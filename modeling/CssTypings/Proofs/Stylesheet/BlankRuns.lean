import CssTypings.Proofs.Stylesheet.Alike
import CssTypings.Proofs.Stylesheet.AtRules
import CssTypings.Proofs.Stylesheet.Occurrences

/-!
# Alike texts export the same names

How long the blanks in a text are does not matter for the names it exports, nor for whether it has a
fault: `occurrences_agree`. The scanners are taken one by one. Each runs on two alike texts side by
side, and what it gives on them agrees:

* at-rules, with alike arguments, and animations with the same name (`Alike.animation?_eq`);
* the parts between commas (`Selector.splitFrom_alike`), and from these the names of a selector
  list (`Selector.listNames_agree`);
* the blocks of a text (`Block.splitFrom_agree`).

The splitters at commas and at braces do not know escapes and may cut one in two. In front of the
cut a backslash is then left at the end, and behind it a new text begins. So an escape is two steps
there, and what was collected before the second one is alike as it stands, but it is the escaped
character that has to come next if there is to be more of it.
-/

namespace CssTypings.Stylesheet

variable {t u : Text}

/-! ### At-rules -/

/-- At-rules with the same keyword and alike arguments. -/
def AtRule.SameRule (rule rule' : AtRule) : Prop :=
  rule.keyword = rule'.keyword ∧ Alike rule.argument rule'.argument

namespace Alike

theorem ofPrelude? (h : Alike t u) :
    Option.Rel AtRule.SameRule (AtRule.ofPrelude? t) (AtRule.ofPrelude? u) := by
  have hnone {t : Text} (ht : t.head? ≠ some '@') : AtRule.ofPrelude? t = none :=
    AtRule.ofPrelude?_eq_none ht
  cases h with
  | nil => exact .none
  | blanks hg hh _ =>
    rw [hnone (hg.not_mem_head? (by decide) _), hnone (hh.not_mem_head? (by decide) _)]
    exact .none
  | escape c _ =>
    rw [hnone (by simp), hnone (by simp)]
    exact .none
  | backslash => exact .none
  | @plain c t u hc hrest =>
    by_cases hat : c = '@'
    · subst hat
      obtain ⟨hword, hargument⟩ := hrest.takeWhile_eq (p := Text.isWordOrHyphen) (by decide)
        fun _ ↦ Text.not_isWordOrHyphen_of_isBlank
      rw [AtRule.ofPrelude?_cons, AtRule.ofPrelude?_cons, hword]
      split
      · exact .none
      · exact .some ⟨rfl, hargument.trim⟩
    · rw [hnone (by simpa using hat), hnone (by simpa using hat)]
      exact .none

theorem unwrapped (h : Alike t u) : Alike (AtRule.unwrapped t) (AtRule.unwrapped u) := by
  have hopen : (":local(".toList).all isSolid = true := by decide
  rw [AtRule.unwrapped, AtRule.unwrapped]
  rcases optionRel_iff.1 (h.after? hopen) with ⟨ht, hu⟩ | ⟨r, s, ht, hu, hrest⟩
  · rw [ht, hu]
    exact h
  · rw [ht, hu]
    exact hrest.trimLeft

/-- **Alike arguments name the same animation**, or none. -/
theorem animation?_eq (h : Alike t u) : AtRule.animation? t = AtRule.animation? u := by
  rw [AtRule.animation?_eq, AtRule.animation?_eq]
  rcases optionRel_iff.1 h.unwrapped.scan? with
    ⟨ht, hu⟩ | ⟨⟨raw, rest⟩, ⟨raw', rest'⟩, ht, hu, hraw, hrest⟩
  · rw [ht, hu]
  · obtain rfl : raw = raw' := hraw
    have hnil := hrest.trimLeft.eq_nil_iff
    have hclose := hrest.trimLeft.eq_singleton_iff (c := ')') (by decide) (by decide)
    rw [ht, hu]
    show AtRule.closed? (raw, rest) = AtRule.closed? (raw, rest')
    by_cases h : rest.trimLeft = [] ∨ rest.trimLeft = [')']
    · rw [AtRule.closed?_of_eq h, AtRule.closed?_of_eq (h.imp hnil.1 hclose.1)]
    · rw [not_or] at h
      rw [AtRule.closed?_of_ne h.1 h.2,
        AtRule.closed?_of_ne (fun h' ↦ h.1 (hnil.2 h')) fun h' ↦ h.2 (hclose.2 h')]

end Alike

/-! ### Names of a selector -/

namespace Selector

/-- The splitter at commas takes a character. The first part may have any common text `s` in front,
such as a backslash that was taken before. -/
theorem splitFrom_cons_alike {x : Char} {s : Text}
    (hextend : ∀ i j, Alike i j → Alike (s ++ x :: i) (s ++ x :: j))
    (h : ∀ depth, List.Forall₂ Alike (splitFrom depth t) (splitFrom depth u)) (depth : Nat) :
    List.Forall₂ Alike ((splitFrom depth (x :: t)).modifyHead (s ++ ·))
      ((splitFrom depth (x :: u)).modifyHead (s ++ ·)) := by
  rw [splitFrom_cons, splitFrom_cons]
  split
  · exact .cons (.refl _) (h 0)
  · rw [List.modifyHead_modifyHead, List.modifyHead_modifyHead]
    exact forall₂_modifyHead (h _) hextend

/-- **Alike texts have alike parts between commas.** -/
theorem splitFrom_alike (h : Alike t u) (depth : Nat) :
    List.Forall₂ Alike (splitFrom depth t) (splitFrom depth u) := by
  have hslash {depth : Nat} (r : Text) :
      splitFrom depth ('\\' :: r) = (splitFrom depth r).modifyHead (['\\'] ++ ·) :=
    passes_singleton (by decide) (by simp) r
  induction h generalizing depth with
  | nil => exact .cons .nil .nil
  | @blanks g h t u hg hh hrest ih =>
    have hskip {g : Text} (hg : IsGap g) : Passes depth g := passes_of_class (by decide) hg.2
    rw [hskip hg, hskip hh]
    exact forall₂_modifyHead (ih depth) fun _ _ ↦ .blanks hg hh
  | escape x _ ih =>
    rw [hslash, hslash]
    exact splitFrom_cons_alike (fun _ _ ↦ .escape x) ih depth
  | backslash =>
    rw [hslash]
    exact .cons .backslash .nil
  | @plain x t u hx _ ih =>
    have hid (l : List Text) : l.modifyHead (([] : Text) ++ ·) = l := congrFun List.modifyHead_id l
    rw [← hid (splitFrom depth (x :: t)), ← hid (splitFrom depth (x :: u))]
    exact splitFrom_cons_alike (fun _ _ ↦ .plain hx) ih depth

theorem listNames_agree (h : Alike t u) : Agree (· = ·) (listNames t) (listNames u) := by
  rw [listNames_eq, listNames_eq]
  exact agree_collect ((splitFrom_alike h 0).imp fun _ _ hpart ↦ hpart.trim.lockstep.namesFrom_agree)

end Selector

/-! ### Blocks -/

/-- Texts collected backwards to which alike texts can be added. -/
def Extends (p q : Text) : Prop := ∀ t u, Alike t u → Alike (p.reverse ++ t) (q.reverse ++ u)

namespace Extends

variable {p q : Text}

theorem nil : Extends [] [] := fun _ _ h ↦ h

/-- What was collected is alike. -/
theorem alike (h : Extends p q) : Alike p.reverse q.reverse := by
  simpa using h [] [] .nil

theorem gap {g g' : Text} (h : Extends p q) (hg : IsGap g) (hg' : IsGap g') :
    Extends (g.reverse ++ p) (g'.reverse ++ q) := by
  intro t u htu
  simpa using h _ _ (.blanks hg hg' htu)

theorem escape (h : Extends p q) (c : Char) : Extends (c :: '\\' :: p) (c :: '\\' :: q) := by
  intro t u htu
  simpa using h _ _ (.escape c htu)

/-- A backslash was collected, and what it escapes is cut off. -/
theorem alike_backslash (h : Extends p q) :
    Alike (List.reverse ('\\' :: p)) (List.reverse ('\\' :: q)) := by
  simpa using h _ _ .backslash

theorem plain {c : Char} (h : Extends p q) (hc : c ≠ '\\') : Extends (c :: p) (c :: q) := by
  intro t u htu
  simpa using h _ _ (.plain hc htu)

end Extends

namespace Block

/-- Blocks with alike preludes and alike bodies. -/
def SameBlock (block block' : Block) : Prop :=
  Alike block.prelude block'.prelude ∧ Alike block.body block'.body

/-- The splitter stands at the same place in two texts, between escapes. -/
inductive SamePlace : Place → Place → Prop
  | outside {p q : Text} : Extends p q → SamePlace (.outside p) (.outside q)
  | inside {p q a b : Text} (depth : Nat) : Alike p.reverse q.reverse → Extends a b →
      SamePlace (.inside p a depth) (.inside q b depth)

/-- The splitter stands at the same place in two texts, in front of the character `c`, which may be
an escaped one: what was collected is alike, and can be added to with `c`. -/
inductive SamePlaceBefore (c : Char) : Place → Place → Prop
  | outside {p q : Text} : Alike p.reverse q.reverse → Extends (c :: p) (c :: q) →
      SamePlaceBefore c (.outside p) (.outside q)
  | inside {p q a b : Text} (depth : Nat) : Alike p.reverse q.reverse →
      Alike a.reverse b.reverse → Extends (c :: a) (c :: b) →
      SamePlaceBefore c (.inside p a depth) (.inside q b depth)

theorem splitFrom_cons_agree {c : Char} {place place' : Place}
    (hplace : SamePlaceBefore c place place')
    (h : ∀ {place place'}, SamePlace place place' →
      Agree (List.Forall₂ SameBlock) (splitFrom place t) (splitFrom place' u)) :
    Agree (List.Forall₂ SameBlock) (splitFrom place (c :: t)) (splitFrom place' (c :: u)) := by
  cases hplace with
  | outside hprelude hextend =>
    by_cases hbreak : isBreak c = true
    · simp only [isBreak, Bool.or_eq_true, beq_iff_eq] at hbreak
      rcases hbreak with (rfl | rfl) | rfl
      · exact h (.inside 0 hprelude .nil)
      · exact .error _ _
      · exact h (.outside .nil)
    · rw [splitFrom_outside_other (by simpa using hbreak),
        splitFrom_outside_other (by simpa using hbreak)]
      exact h (.outside hextend)
  | inside depth hprelude hbody hextend =>
    by_cases hopen : c = '{'
    · subst hopen
      rw [splitFrom_inside_opening, splitFrom_inside_opening]
      exact h (.inside (depth + 1) hprelude hextend)
    · by_cases hclose : c = '}'
      · subst hclose
        cases depth with
        | zero => exact (h (.outside .nil)).map fun _ _ ↦ .cons ⟨hprelude.trim, hbody⟩
        | succ depth =>
          rw [splitFrom_inside_closing, splitFrom_inside_closing]
          exact h (.inside depth hprelude hextend)
      · rw [splitFrom_inside_other hopen hclose, splitFrom_inside_other hopen hclose]
        exact h (.inside depth hprelude hextend)

/-- **Alike texts have alike blocks.** -/
theorem splitFrom_agree {place place' : Place} (h : Alike t u) (hplace : SamePlace place place') :
    Agree (List.Forall₂ SameBlock) (splitFrom place t) (splitFrom place' u) := by
  induction h generalizing place place' with
  | nil =>
    cases hplace with
    | outside _ => exact .ok .nil
    | inside depth _ _ => cases depth <;> exact .error _ _
  | @blanks g g' t u hg hg' _ ih =>
    cases hplace with
    | outside hextend =>
      have hskip {g p r : Text} (hg : IsGap g) :
          splitFrom (.outside p) (g ++ r) = splitFrom (.outside (g.reverse ++ p)) r :=
        splitFrom_outside_append fun _ hx ↦ isBreak_of_class (by decide) (hg.2 _ hx)
      rw [hskip hg, hskip hg']
      exact ih (.outside (hextend.gap hg hg'))
    | inside depth hprelude hextend =>
      rw [splitFrom_inside_append_of_not_mem (hg.not_mem (by decide)) (hg.not_mem (by decide)),
        splitFrom_inside_append_of_not_mem (hg'.not_mem (by decide)) (hg'.not_mem (by decide))]
      exact ih (.inside depth hprelude (hextend.gap hg hg'))
  | escape c _ ih =>
    cases hplace with
    | outside hextend =>
      have hslash {p : Text} (r : Text) :
          splitFrom (.outside p) ('\\' :: r) = splitFrom (.outside ('\\' :: p)) r :=
        splitFrom_outside_other (by decide)
      rw [hslash, hslash]
      exact splitFrom_cons_agree (.outside hextend.alike_backslash (hextend.escape c)) ih
    | inside depth hprelude hextend =>
      have hslash {p b : Text} (r : Text) :
          splitFrom (.inside p b depth) ('\\' :: r) = splitFrom (.inside p ('\\' :: b) depth) r :=
        splitFrom_inside_other (by decide) (by decide)
      rw [hslash, hslash]
      exact splitFrom_cons_agree
        (.inside depth hprelude hextend.alike_backslash (hextend.escape c)) ih
  | backslash =>
    cases hplace with
    | outside _ => exact .ok .nil
    | inside depth _ _ => cases depth <;> exact .error _ _
  | plain hc _ ih =>
    cases hplace with
    | outside hextend =>
      exact splitFrom_cons_agree (.outside hextend.alike (hextend.plain hc)) ih
    | inside depth hprelude hextend =>
      exact splitFrom_cons_agree (.inside depth hprelude hextend.alike (hextend.plain hc)) ih

theorem split_agree (h : Alike t u) : Agree (List.Forall₂ SameBlock) (split t) (split u) :=
  splitFrom_agree h (.outside .nil)

/-- Alike blocks export the same names if their bodies do. -/
theorem names_agree {block block' : Block} (hprelude : Alike block.prelude block'.prelude)
    (hbody : Agree (· = ·) (occurrences block.body) (occurrences block'.body)) :
    Agree (· = ·) block.names block'.names := by
  rcases optionRel_iff.1 hprelude.ofPrelude? with
    ⟨h, h'⟩ | ⟨rule, rule', h, h', hkeyword, hargument⟩
  · rw [names_of_style h, names_of_style h']
    exact Selector.listNames_agree hprelude
  · have hrole : rule.role = rule'.role := by rw [AtRule.role, AtRule.role, hkeyword]
    rw [names_of_rule h, names_of_rule h']
    cases hrole' : rule'.role with
    | keyframes =>
      rw [AtRule.names_of_keyframes (hrole.trans hrole'), AtRule.names_of_keyframes hrole',
        hargument.animation?_eq]
      exact .ok rfl
    | nesting =>
      rw [AtRule.names_of_nesting (hrole.trans hrole'), AtRule.names_of_nesting hrole']
      exact hbody
    | ignored =>
      rw [AtRule.names_of_ignored (hrole.trans hrole'), AtRule.names_of_ignored hrole']
      exact .ok rfl

end Block

/-! ### Names of a text -/

/-- **Alike texts export the same names**, or both have a fault. -/
theorem occurrences_agree (h : Alike t u) : Agree (· = ·) (occurrences t) (occurrences u) := by
  obtain ⟨n, hn⟩ : ∃ n, t.length = n := ⟨_, rfl⟩
  induction n using Nat.strong_induction_on generalizing t u with
  | _ n ih =>
    subst hn
    rw [occurrences_eq, occurrences_eq]
    refine (Block.split_agree h).bind_of_ok fun blocks blocks' hsplit hblocks ↦ ?_
    refine agree_collect (forall₂_imp_of_mem hblocks fun block hmem _ hsame ↦ ?_)
    exact Block.names_agree hsame.1
      (ih _ (Block.length_body_lt_of_mem_split hsplit hmem) hsame.2 rfl)

end CssTypings.Stylesheet

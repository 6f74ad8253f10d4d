import CssTypings.Proofs.Text.Ends
import CssTypings.Stylesheet.Block
import CssTypings.Stylesheet.Bracket
import Mathlib.Data.List.Basic
import Mathlib.Data.List.Count

/-!
# Balanced texts and the scanners that count brackets

Two scanners follow brackets of one kind by a depth: the one that looks for a partner
(`splitAtClose`) and the one that collects the body of a block (`Block.splitFrom`). Both pass over a
balanced text as over a single character. The equations are stated from any depth and over any rest,
with the weaker condition that no initial part closes more brackets than are open (`Covered`), since
that is what an induction along the text keeps.
-/

namespace CssTypings.Stylesheet

/-! ### Covered and balanced texts -/

/-- With `depth` brackets open in front, no bracket is closed that is not open. -/
def Covered (opening closing : Char) (depth : Nat) (t : Text) : Prop :=
  ∀ n, (t.take n).count closing ≤ depth + (t.take n).count opening

/-- Every bracket of the kind has its partner inside the text. -/
structure Balanced (opening closing : Char) (t : Text) : Prop where
  /-- There are as many closing brackets as opening ones. -/
  count_eq : t.count closing = t.count opening
  /-- No initial part closes a bracket that it does not open. -/
  covered : Covered opening closing 0 t

section

variable {o c x : Char} {d : Nat} {s t r : Text}

theorem covered_cons_iff : Covered o c d (x :: t) ↔
    ∀ n, (x :: t.take n).count c ≤ d + (x :: t.take n).count o := by
  refine ⟨fun h n ↦ h (n + 1), fun h n ↦ ?_⟩
  cases n with
  | zero => simp
  | succ n => exact h n

theorem covered_cons_opening (hoc : o ≠ c) : Covered o c d (o :: t) ↔ Covered o c (d + 1) t := by
  simp only [covered_cons_iff, List.count_cons_self, List.count_cons_of_ne hoc]
  exact forall_congr' fun n ↦ by omega

theorem covered_cons_closing (hoc : o ≠ c) :
    Covered o c d (c :: t) ↔ ∃ d', d = d' + 1 ∧ Covered o c d' t := by
  simp only [covered_cons_iff, List.count_cons_self, List.count_cons_of_ne hoc.symm]
  cases d with
  | zero => simpa using ⟨0, by simp⟩
  | succ d =>
    simp only [Nat.add_right_cancel_iff, exists_eq_left']
    exact forall_congr' fun n ↦ by omega

theorem covered_cons_other (ho : x ≠ o) (hc : x ≠ c) :
    Covered o c d (x :: t) ↔ Covered o c d t := by
  simp only [covered_cons_iff, List.count_cons_of_ne ho, List.count_cons_of_ne hc]
  rfl

theorem Covered.mono {d' : Nat} (hd : d ≤ d') (h : Covered o c d t) : Covered o c d' t := fun n ↦
  (h n).trans (Nat.add_le_add_right hd _)

theorem covered_zero_iff :
    Covered o c 0 t ↔ ∀ s, s <+: t → s.count c ≤ s.count o := by
  constructor
  · intro h s hs
    have := h s.length
    rwa [← List.prefix_iff_eq_take.1 hs, Nat.zero_add] at this
  · intro h n
    rw [Nat.zero_add]
    exact h _ (List.take_prefix n t)

theorem balanced_nil : Balanced o c [] := ⟨rfl, fun n ↦ by simp⟩

theorem covered_of_not_mem (hc : c ∉ t) : Covered o c d t := by
  intro n
  rw [List.count_eq_zero.2 fun h ↦ hc (List.mem_of_mem_take h)]
  exact Nat.zero_le _

theorem balanced_of_not_mem (ho : o ∉ t) (hc : c ∉ t) : Balanced o c t where
  count_eq := by rw [List.count_eq_zero.2 ho, List.count_eq_zero.2 hc]
  covered := covered_of_not_mem hc

theorem Balanced.append (hs : Balanced o c s) (ht : Balanced o c t) : Balanced o c (s ++ t) where
  count_eq := by rw [List.count_append, List.count_append, hs.count_eq, ht.count_eq]
  covered n := by
    have h₁ := hs.covered n
    have h₂ := ht.covered (n - s.length)
    rw [List.take_append, List.count_append, List.count_append]
    omega

theorem Balanced.enclose (hoc : o ≠ c) (ht : Balanced o c t) : Balanced o c (o :: t ++ [c]) where
  count_eq := by simp [hoc, hoc.symm, ht.count_eq]
  covered n := by
    cases n with
    | zero => simp
    | succ n =>
      have h₁ := ht.covered n
      have h₂ : ([c].take (n - t.length)).count c ≤ 1 :=
        Nat.le_trans ((List.take_sublist _ _).count_le _) (by simp)
      rw [List.cons_append, List.take_succ_cons, List.take_append, List.count_cons_of_ne hoc,
        List.count_cons_self, List.count_append, List.count_append]
      omega

/-- Behind a balanced text the depth is what it was in front. -/
theorem Balanced.covered_append_iff (hs : Balanced o c s) :
    Covered o c d (s ++ t) ↔ Covered o c d t := by
  have hcount := hs.count_eq
  constructor
  · intro h n
    have := h (s.length + n)
    rw [List.take_length_add_append, List.count_append, List.count_append] at this
    omega
  · intro h n
    have h₁ := hs.covered n
    have h₂ := h (n - s.length)
    rw [List.take_append, List.count_append, List.count_append]
    by_cases hn : n ≤ s.length
    · simp only [Nat.sub_eq_zero_of_le hn, List.take_zero, List.count_nil]
      omega
    · rw [List.take_of_length_le (Nat.le_of_not_le hn)]
      omega

theorem Balanced.append_iff (hs : Balanced o c s) : Balanced o c (s ++ t) ↔ Balanced o c t := by
  have hcount : (s ++ t).count c = (s ++ t).count o ↔ t.count c = t.count o := by
    rw [List.count_append, List.count_append, hs.count_eq, Nat.add_left_cancel_iff]
  exact ⟨fun h ↦ ⟨hcount.1 h.count_eq, hs.covered_append_iff.1 h.covered⟩,
    fun h ↦ ⟨hcount.2 h.count_eq, hs.covered_append_iff.2 h.covered⟩⟩

/-! ### Looking for a partner -/

theorem splitAtClose_cons_opening :
    splitAtClose o c d (o :: r) =
      (splitAtClose o c (d + 1) r).map fun (i, rest) ↦ (o :: i, rest) := by
  cases d <;> simp [splitAtClose]

theorem splitAtClose_cons_closing (hoc : o ≠ c) :
    splitAtClose o c (d + 1) (c :: r) =
      (splitAtClose o c d r).map fun (i, rest) ↦ (c :: i, rest) := by
  simp [splitAtClose, hoc.symm]

theorem splitAtClose_cons_other (ho : x ≠ o) (hc : x ≠ c) :
    splitAtClose o c d (x :: r) =
      (splitAtClose o c d r).map fun (i, rest) ↦ (x :: i, rest) := by
  cases d <;> simp [splitAtClose, ho, hc]

/-- A covered text is passed over; only the depth changes. -/
theorem splitAtClose_append (hoc : o ≠ c) (h : Covered o c d t) :
    splitAtClose o c d (t ++ r) =
      (splitAtClose o c (d + t.count o - t.count c) r).map fun (i, rest) ↦ (t ++ i, rest) := by
  induction t generalizing d with
  | nil => simp
  | cons x t ih =>
    rw [List.cons_append]
    by_cases ho : x = o
    · subst ho
      rw [splitAtClose_cons_opening, ih ((covered_cons_opening hoc).1 h), Option.map_map,
        List.count_cons_self, List.count_cons_of_ne hoc]
      congr 2
      omega
    · by_cases hc : x = c
      · subst hc
        obtain ⟨d, rfl, ht⟩ := (covered_cons_closing hoc).1 h
        rw [splitAtClose_cons_closing hoc, ih ht, Option.map_map, List.count_cons_self,
          List.count_cons_of_ne hoc.symm]
        congr 2
        omega
      · rw [splitAtClose_cons_other ho hc, ih ((covered_cons_other ho hc).1 h), Option.map_map,
          List.count_cons_of_ne ho, List.count_cons_of_ne hc]
        rfl

theorem splitAtClose_append_of_not_mem (hoc : o ≠ c) (ho : o ∉ t) (hc : c ∉ t) :
    splitAtClose o c d (t ++ r) =
      (splitAtClose o c d r).map fun (i, rest) ↦ (t ++ i, rest) := by
  rw [splitAtClose_append hoc (covered_of_not_mem hc), List.count_eq_zero.2 ho,
    List.count_eq_zero.2 hc, Nat.add_zero, Nat.sub_zero]

/-- **The partner of a bracket stands behind a balanced text.** -/
theorem splitAtClose_of_balanced (hoc : o ≠ c) (h : Balanced o c t) :
    splitAtClose o c 0 (t ++ c :: r) = some (t, r) := by
  rw [splitAtClose_append hoc h.covered, h.count_eq, Nat.add_sub_cancel_right]
  simp [splitAtClose, hoc.symm]

/-- What stands in front of a partner closes as many brackets as it opens or finds open. -/
theorem covered_of_splitAtClose (hoc : o ≠ c) {i : Text} (h : splitAtClose o c d t = some (i, r)) :
    Covered o c d i ∧ i.count c = d + i.count o := by
  induction t generalizing d i with
  | nil => cases d <;> simp [splitAtClose] at h
  | cons x t ih =>
    by_cases ho : x = o
    · subst ho
      rw [splitAtClose_cons_opening] at h
      obtain ⟨⟨i', r'⟩, hsplit, heq⟩ := Option.map_eq_some_iff.1 h
      cases heq
      obtain ⟨hcovered, hcount⟩ := ih hsplit
      refine ⟨(covered_cons_opening hoc).2 hcovered, ?_⟩
      rw [List.count_cons_self, List.count_cons_of_ne hoc]
      omega
    · by_cases hc : x = c
      · subst hc
        cases d with
        | zero =>
          simp only [splitAtClose, if_neg ho, if_true, Option.some.injEq, Prod.mk.injEq] at h
          obtain ⟨rfl, rfl⟩ := h
          exact ⟨balanced_nil.covered, rfl⟩
        | succ d =>
          rw [splitAtClose_cons_closing hoc] at h
          obtain ⟨⟨i', r'⟩, hsplit, heq⟩ := Option.map_eq_some_iff.1 h
          cases heq
          obtain ⟨hcovered, hcount⟩ := ih hsplit
          refine ⟨(covered_cons_closing hoc).2 ⟨d, rfl, hcovered⟩, ?_⟩
          rw [List.count_cons_self, List.count_cons_of_ne hoc.symm]
          omega
      · rw [splitAtClose_cons_other ho hc] at h
        obtain ⟨⟨i', r'⟩, hsplit, heq⟩ := Option.map_eq_some_iff.1 h
        cases heq
        obtain ⟨hcovered, hcount⟩ := ih hsplit
        refine ⟨(covered_cons_other ho hc).2 hcovered, ?_⟩
        rw [List.count_cons_of_ne ho, List.count_cons_of_ne hc, hcount]

/-- **A partner is where it belongs**: behind a balanced text, and nowhere else. -/
theorem splitAtClose_eq_some_iff (hoc : o ≠ c) {i : Text} :
    splitAtClose o c 0 t = some (i, r) ↔ Balanced o c i ∧ i ++ c :: r = t := by
  constructor
  · intro h
    obtain ⟨hcovered, hcount⟩ := covered_of_splitAtClose hoc h
    exact ⟨⟨by omega, hcovered⟩, append_of_splitAtClose h⟩
  · rintro ⟨hbalanced, rfl⟩
    exact splitAtClose_of_balanced hoc hbalanced

/-- **A bracket has no partner** exactly if no initial part closes it. -/
theorem splitAtClose_eq_none_iff (hoc : o ≠ c) : splitAtClose o c d t = none ↔ Covered o c d t := by
  constructor
  · intro h
    induction t generalizing d with
    | nil => exact covered_of_not_mem (by simp)
    | cons x t ih =>
      by_cases ho : x = o
      · subst ho
        rw [splitAtClose_cons_opening, Option.map_eq_none_iff] at h
        exact (covered_cons_opening hoc).2 (ih h)
      · by_cases hc : x = c
        · subst hc
          cases d with
          | zero => simp [splitAtClose, ho] at h
          | succ d =>
            rw [splitAtClose_cons_closing hoc, Option.map_eq_none_iff] at h
            exact (covered_cons_closing hoc).2 ⟨d, rfl, ih h⟩
        · rw [splitAtClose_cons_other ho hc, Option.map_eq_none_iff] at h
          exact (covered_cons_other ho hc).2 (ih h)
  · intro h
    have hend := splitAtClose_append (r := []) hoc h
    rw [List.append_nil] at hend
    rw [hend, splitAtClose]
    rfl

end

/-! ### Collecting a body -/

namespace Block

variable {d : Nat} {p b t r : Text}

theorem splitFrom_inside_opening :
    splitFrom (.inside p b d) ('{' :: r) = splitFrom (.inside p ('{' :: b) (d + 1)) r := by
  cases d <;> simp [splitFrom]

theorem splitFrom_inside_closing :
    splitFrom (.inside p b (d + 1)) ('}' :: r) = splitFrom (.inside p ('}' :: b) d) r := by
  simp [splitFrom]

theorem splitFrom_inside_other {x : Char} (ho : x ≠ '{') (hc : x ≠ '}') :
    splitFrom (.inside p b d) (x :: r) = splitFrom (.inside p (x :: b) d) r := by
  cases d <;> simp [splitFrom, ho, hc]

/-- A covered text goes into the body; besides, only the depth changes. -/
theorem splitFrom_inside_append (h : Covered '{' '}' d t) :
    splitFrom (.inside p b d) (t ++ r) =
      splitFrom (.inside p (t.reverse ++ b) (d + t.count '{' - t.count '}')) r := by
  have hoc : ('{' : Char) ≠ '}' := by decide
  induction t generalizing d b with
  | nil => simp
  | cons x t ih =>
    rw [List.cons_append, List.reverse_cons, List.append_assoc, List.singleton_append]
    by_cases ho : x = '{'
    · subst ho
      rw [splitFrom_inside_opening, ih ((covered_cons_opening hoc).1 h), List.count_cons_self,
        List.count_cons_of_ne hoc]
      congr 2
      omega
    · by_cases hc : x = '}'
      · subst hc
        obtain ⟨d, rfl, ht⟩ := (covered_cons_closing hoc).1 h
        rw [splitFrom_inside_closing, ih ht, List.count_cons_self, List.count_cons_of_ne hoc.symm]
        congr 2
        omega
      · rw [splitFrom_inside_other ho hc, ih ((covered_cons_other ho hc).1 h), List.count_cons_of_ne ho,
          List.count_cons_of_ne hc]

theorem splitFrom_inside_append_of_not_mem (ho : '{' ∉ t) (hc : '}' ∉ t) :
    splitFrom (.inside p b d) (t ++ r) = splitFrom (.inside p (t.reverse ++ b) d) r := by
  rw [splitFrom_inside_append (covered_of_not_mem hc), List.count_eq_zero.2 ho,
    List.count_eq_zero.2 hc, Nat.add_zero, Nat.sub_zero]

/-- **A block with a balanced body is split off.** -/
theorem splitFrom_block (h : Balanced '{' '}' t) :
    splitFrom (.outside p) ('{' :: (t ++ '}' :: r)) =
      (splitFrom (.outside []) r).map (⟨Text.trim p.reverse, t⟩ :: ·) := by
  rw [splitFrom, if_pos rfl, splitFrom_inside_append h.covered, h.count_eq,
    Nat.add_sub_cancel_right, splitFrom, if_neg (by decide), if_pos rfl, List.append_nil,
    List.reverse_reverse]

/-! ### Between blocks -/

/-- A character that ends what stands between two blocks: a brace or a semicolon. -/
def isBreak (c : Char) : Bool := c == '{' || c == '}' || c == ';'

/-- A class of characters without braces and semicolons does not break a text. -/
theorem isBreak_of_class {q : Char → Bool} (h : q '{' = false ∧ q '}' = false ∧ q ';' = false)
    {x : Char} (hx : q x = true) : isBreak x = false := by
  simp [isBreak, Text.ne_of_pos_of_neg hx h.1, Text.ne_of_pos_of_neg hx h.2.1,
    Text.ne_of_pos_of_neg hx h.2.2]

/-- No brace is among characters that do not break a text. -/
theorem balanced_of_unbroken (ht : ∀ x ∈ t, isBreak x = false) : Balanced '{' '}' t :=
  balanced_of_not_mem (fun h ↦ absurd (ht _ h) (by decide)) fun h ↦ absurd (ht _ h) (by decide)

theorem splitFrom_outside_other {x : Char} (hx : isBreak x = false) :
    splitFrom (.outside p) (x :: r) = splitFrom (.outside (x :: p)) r := by
  simp only [isBreak, Bool.or_eq_false_iff, beq_eq_false_iff_ne] at hx
  rw [splitFrom, if_neg hx.1.1, if_neg hx.1.2, if_neg hx.2]

theorem splitFrom_outside_append (ht : ∀ x ∈ t, isBreak x = false) :
    splitFrom (.outside p) (t ++ r) = splitFrom (.outside (t.reverse ++ p)) r := by
  induction t generalizing p with
  | nil => rfl
  | cons x t ih =>
    rw [List.cons_append, splitFrom_outside_other (ht x List.mem_cons_self),
      ih fun y hy ↦ ht y (List.mem_cons_of_mem _ hy)]
    simp

theorem splitFrom_outside_semicolon :
    splitFrom (.outside p) (';' :: r) = splitFrom (.outside []) r := by
  simp [splitFrom]

end Block

end CssTypings.Stylesheet

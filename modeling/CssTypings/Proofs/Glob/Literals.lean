import CssTypings.Glob.Expand
import Mathlib.Data.List.Infix

/-!
# Wildcards that hold text

A character that is not magic stands for itself in a wildcard, and a magic one does when it is
escaped. So an escaped text matches itself and nothing else (`wildcard_escape`), and a star with a
text behind it matches what ends with the text (`wildcard_star`).

Both follow from what the tokens of a text leave of the suffixes of another one
(`foldl_advance_literal`).
-/

namespace CssTypings

theorem Text.mem_suffixes {s t : Text} : s ∈ suffixes t ↔ s <:+ t := by
  induction t with
  | nil => simp [suffixes]
  | cons c t ih => rw [suffixes, List.mem_cons, ih, List.suffix_cons_iff]

theorem Text.after?_eq_some {head t rest : Text} : after? head t = some rest ↔ t = head ++ rest := by
  rw [after?]
  split
  · next h =>
    obtain ⟨behind, rfl⟩ := List.isPrefixOf_iff_prefix.1 h
    simp
  · next h =>
    simp only [reduceCtorEq, false_iff]
    rintro rfl
    exact h (List.isPrefixOf_iff_prefix.2 (List.prefix_append _ _))

namespace Glob

variable {c : Char} {s t x : Text}

namespace Token

/-! ### Reading texts -/

/-- The tokens that stand for the characters of a text. -/
def literal (t : Text) : List Token := t.map fun c ↦ one (.single c)

theorem readFrom_of_not_isMagic (h : isMagic c = false) (r : Text) :
    readFrom none (c :: r) = one (.single c) :: readFrom none r := by
  simp only [isMagic, Bool.or_eq_false_iff, beq_eq_false_iff_ne, ne_eq] at h
  obtain ⟨⟨hstar, hmark⟩, hbracket⟩ := h
  simp [readFrom, hstar, hmark, hbracket]

theorem readFrom_append (h : ∀ c ∈ t, isMagic c = false) (r : Text) :
    readFrom none (t ++ r) = literal t ++ readFrom none r := by
  induction t with
  | nil => rfl
  | cons c t ih =>
    obtain ⟨hc, ht⟩ := List.forall_mem_cons.1 h
    rw [List.cons_append, readFrom_of_not_isMagic hc, ih ht]
    rfl

theorem isMagic_iff : isMagic c = true ↔ c = '*' ∨ c = '?' ∨ c = '[' := by
  simp [isMagic, or_assoc]

/-- A magic character in brackets stands for itself. -/
theorem readFrom_bracketed (h : isMagic c = true) (r : Text) :
    readFrom none ('[' :: c :: ']' :: r) = one (.single c) :: readFrom none r := by
  have hset : CharSet.ofText ['*'] = .single '*' ∧ CharSet.ofText ['?'] = .single '?' ∧
      CharSet.ofText ['['] = .single '[' := by decide +kernel
  obtain ⟨hstar, hmark, hbracket⟩ := hset
  rcases isMagic_iff.1 h with rfl | rfl | rfl <;>
    simp [readFrom, closes, hstar, hmark, hbracket]

theorem readFrom_escape (t r : Text) :
    readFrom none (escape t ++ r) = literal t ++ readFrom none r := by
  induction t with
  | nil => rfl
  | cons c t ih =>
    rw [escape, List.flatMap_cons, ← escape]
    by_cases h : isMagic c = true
    · rw [if_pos h]
      exact (readFrom_bracketed h _).trans (congrArg _ ih)
    · rw [if_neg h]
      exact (readFrom_of_not_isMagic (Bool.eq_false_iff.2 h) _).trans (congrArg _ ih)

/-! ### Matching texts -/

/-- Of every suffix that starts with the text, the tokens of the text leave the rest. -/
theorem foldl_advance_literal (t : Text) (left : List Text) :
    (literal t).foldl advance left = left.filterMap (Text.after? t) := by
  induction t generalizing left with
  | nil =>
    have hsome : Text.after? [] = some := by
      funext x
      simp [Text.after?]
    rw [hsome, List.filterMap_some]
    rfl
  | cons c t ih =>
    have hstep : ∀ x, (leave? (.single c) x).bind (Text.after? t) = Text.after? (c :: t) x := by
      intro x
      cases x with
      | nil => simp [leave?, Text.after?]
      | cons d x =>
        by_cases hd : c = d
        · simp [leave?, Text.after?, hd, CharSet.has_single]
        · have hnot : (CharSet.single c).has d = false :=
            Bool.eq_false_iff.2 fun h ↦ hd (CharSet.has_single.1 h)
          simp [leave?, Text.after?, hd, hnot]
    show (literal t).foldl advance (left.filterMap (leave? (.single c))) = _
    rw [ih, List.filterMap_filterMap, funext hstep]

/-- The tokens of a text leave nothing of one of the suffixes if that is the text. -/
theorem contains_foldl_advance_literal (t : Text) (left : List Text) :
    ((literal t).foldl advance left).contains [] = true ↔ t ∈ left := by
  rw [foldl_advance_literal, List.contains_iff_mem, List.mem_filterMap]
  constructor
  · rintro ⟨x, hx, hrest⟩
    rw [Text.after?_eq_some, List.append_nil] at hrest
    exact hrest ▸ hx
  · intro ht
    exact ⟨t, ht, Text.after?_eq_some.2 (List.append_nil t).symm⟩

end Token

/-- **An escaped text matches itself only.** -/
theorem wildcard_escape : wildcard (escape t) x = true ↔ x = t := by
  have hread := Token.readFrom_escape t []
  rw [List.append_nil, Token.readFrom, List.append_nil] at hread
  rw [wildcard, Token.read, hread, Token.contains_foldl_advance_literal, List.mem_singleton]
  exact eq_comm

/-- **A star with a text behind it** matches what ends with the text. -/
theorem wildcard_star (h : ∀ c ∈ t, isMagic c = false) :
    wildcard ('*' :: t) x = true ↔ t <:+ x := by
  have hread := Token.readFrom_append h []
  rw [List.append_nil, Token.readFrom, List.append_nil] at hread
  have hstar : Token.readFrom none ('*' :: t) = .star :: Token.literal t := by
    rw [Token.readFrom, if_pos rfl, hread]
  rw [wildcard, Token.read, hstar]
  exact (Token.contains_foldl_advance_literal t _).trans Text.mem_suffixes

theorem not_isMagic_of_any (h : t.any isMagic = false) : ∀ c ∈ t, isMagic c = false :=
  fun c hc ↦ Bool.eq_false_iff.2 (List.any_eq_false.1 h c hc)

/-! ### Escaped texts -/

@[simp] theorem escape_nil : escape [] = [] := rfl

theorem escape_append (s t : Text) : escape (s ++ t) = escape s ++ escape t :=
  List.flatMap_append

theorem escape_of_not_isMagic (h : ∀ c ∈ t, isMagic c = false) : escape t = t := by
  have hsame : ∀ c ∈ t, (if isMagic c then ['[', c, ']'] else [c]) = [c] := by
    intro c hc
    rw [h c hc]
    rfl
  rw [escape, List.flatMap_congr hsame]
  exact List.flatMap_singleton' t

theorem any_isMagic_escape : (escape t).any isMagic = t.any isMagic := by
  induction t with
  | nil => rfl
  | cons c t ih =>
    have hbracket : isMagic '[' = true := rfl
    rw [escape, List.flatMap_cons, ← escape, List.any_append, ih, List.any_cons]
    by_cases h : isMagic c = true
    · simp [h, hbracket]
    · simp [h]

/-- A text that is not magic when it is escaped needs no escaping. -/
theorem escape_eq_self (h : ∀ c ∈ escape t, isMagic c = false) : escape t = t := by
  refine escape_of_not_isMagic (not_isMagic_of_any ?_)
  rw [← any_isMagic_escape, List.any_eq_false]
  exact fun c hc ↦ by rw [h c hc]; exact Bool.false_ne_true

/-- Escaping hides no dot at the start, and makes none. -/
theorem head?_escape : (escape t).head? = some '.' ↔ t.head? = some '.' := by
  cases t with
  | nil => rfl
  | cons c t =>
    rw [escape, List.flatMap_cons]
    by_cases h : isMagic c = true
    · have hc : c ≠ '.' := by
        rintro rfl
        exact absurd h (by decide)
      simp [h, hc]
    · simp [h]

theorem not_mem_escape (h : c ∉ t) (hbracket : c ≠ '[') (hbracket' : c ≠ ']') : c ∉ escape t := by
  rw [escape, List.mem_flatMap]
  rintro ⟨d, hd, hc⟩
  have hne : c ≠ d := fun heq ↦ h (heq ▸ hd)
  split at hc <;> simp_all

theorem escape_ne_nil (h : t ≠ []) : escape t ≠ [] := by
  obtain ⟨c, t, rfl⟩ := List.exists_cons_of_ne_nil h
  rw [escape, List.flatMap_cons]
  split <;> simp

/-- An escaped text is not the component for any number of directories. -/
theorem escape_ne_deep (t : Text) : escape t ≠ ['*', '*'] := by
  cases t with
  | nil => simp
  | cons c t =>
    rw [escape, List.flatMap_cons]
    by_cases h : isMagic c = true
    · simp [h]
    · have hc : c ≠ '*' := by
        rintro rfl
        exact h (by decide)
      simp [h, hc]

end Glob

end CssTypings

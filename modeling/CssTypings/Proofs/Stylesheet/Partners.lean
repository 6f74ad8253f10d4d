import CssTypings.Proofs.Stylesheet.Balance
import CssTypings.Stylesheet.Selector
import Mathlib.Order.Bounds.Basic

/-!
# Where a bracket is closed

Counted from an opening bracket on, brackets of its kind are opened more often than closed until its
partner is reached. So the partner is the least index behind the bracket up to which they are opened
as often as closed, and what stands between the two is balanced (`IsPartner`).

The scanner of selectors splits what stands behind a bracket at the partner, whenever there is one,
and has a fault only if there is none (`Piece.bracket_cases`).
-/

namespace CssTypings.Stylesheet

/-- From index `i` to index `j`, both included, brackets are opened as often as closed. -/
structure EvenBetween (opening closing : Char) (t : Text) (i j : Nat) : Prop where
  lt : i < j
  lt_length : j < t.length
  count_eq : (t.extract i (j + 1)).count opening = (t.extract i (j + 1)).count closing

/-- The bracket that is opened at index `i` is closed at index `j`. -/
structure IsPartner (opening closing : Char) (t : Text) (i j : Nat) : Prop where
  /-- It is the first index up to which brackets are opened as often as closed. -/
  isLeast : IsLeast {k | EvenBetween opening closing t i k} j
  /-- What stands between has its brackets closed, and no initial part of it closes too many. -/
  balanced : Balanced opening closing (t.extract (i + 1) j)

theorem IsPartner.unique {o c : Char} {t : Text} {i j k : Nat} (hj : IsPartner o c t i j)
    (hk : IsPartner o c t i k) : j = k :=
  hj.isLeast.unique hk.isLeast

theorem EvenBetween.exists_eq {o c : Char} {t : Text} {i j : Nat} (h : EvenBetween o c t i j) :
    ∃ n, j = i + 1 + n :=
  Nat.exists_eq_add_of_le h.lt

theorem extract_of_drop_eq_append {t s r : Text} {k : Nat} (h : t.drop k = s ++ r) :
    t.extract k (k + s.length) = s := by
  rw [List.extract_eq_take_drop, h, Nat.add_sub_cancel_left, List.take_left]

section

variable {o c : Char} {t : Text} {i : Nat} (hoc : o ≠ c) (hopen : t[i]? = some o)
include hoc hopen

/-- Behind an opening bracket one more bracket has to be closed than is opened. -/
theorem evenBetween_iff {n : Nat} : EvenBetween o c t i (i + 1 + n) ↔
    i + 1 + n < t.length ∧
      ((t.drop (i + 1)).take (n + 1)).count c = ((t.drop (i + 1)).take (n + 1)).count o + 1 := by
  have hpart : t.extract i (i + 1 + n + 1) = o :: (t.drop (i + 1)).take (n + 1) := by
    rw [List.extract_eq_take_drop, List.drop_eq_getElem?_toList_append, hopen, Option.toList_some,
      List.singleton_append, show i + 1 + n + 1 - i = n + 1 + 1 by omega, List.take_succ_cons]
  have hcount : (t.extract i (i + 1 + n + 1)).count o = (t.extract i (i + 1 + n + 1)).count c ↔
      ((t.drop (i + 1)).take (n + 1)).count c = ((t.drop (i + 1)).take (n + 1)).count o + 1 := by
    rw [hpart, List.count_cons_self, List.count_cons_of_ne hoc]
    exact eq_comm
  constructor
  · intro h
    exact ⟨h.lt_length, hcount.1 h.count_eq⟩
  · rintro ⟨hlength, h⟩
    exact ⟨by omega, hlength, hcount.2 h⟩

/-- Where nothing is closed that is open in front, the bracket is not closed. -/
theorem not_evenBetween_of_covered (hcovered : Covered o c 0 (t.drop (i + 1))) :
    ¬ ∃ j, EvenBetween o c t i j := by
  rintro ⟨j, h⟩
  obtain ⟨n, rfl⟩ := h.exists_eq
  have hcount := ((evenBetween_iff hoc hopen).1 h).2
  have := hcovered (n + 1)
  omega

/-- Behind a balanced text the bracket is closed, and not earlier. -/
theorem isPartner_of_balanced {inside rest : Text} (hbalanced : Balanced o c inside)
    (hbehind : t.drop (i + 1) = inside ++ c :: rest) :
    IsPartner o c t i (i + 1 + inside.length) := by
  refine ⟨⟨?_, ?_⟩, ?_⟩
  · have hlength := congrArg List.length hbehind
    rw [List.length_drop, List.length_append, List.length_cons] at hlength
    refine (evenBetween_iff hoc hopen).2 ⟨by omega, ?_⟩
    have htake : (inside ++ c :: rest).take (inside.length + 1) = inside ++ [c] := by
      rw [List.take_length_add_append]
      rfl
    rw [hbehind, htake, List.count_append, List.count_append, hbalanced.count_eq,
      List.count_singleton_self, List.count_singleton, if_neg (by simpa using hoc.symm)]
  · intro k hk
    obtain ⟨n, rfl⟩ := EvenBetween.exists_eq hk
    have hcount := ((evenBetween_iff hoc hopen).1 hk).2
    by_contra hlt
    -- up to an earlier index there is only a part of the inside
    have hle : n + 1 ≤ inside.length := by omega
    rw [hbehind, List.take_append_of_le_length hle] at hcount
    have := hbalanced.covered (n + 1)
    omega
  · rwa [extract_of_drop_eq_append hbehind]

/-- **The scanner splits at the partner of a bracket**, or the brackets are never even behind it. -/
theorem Piece.bracket_cases :
    (∃ j, IsPartner o c t i j ∧
      bracket t o c (t.drop (i + 1)) = .ok (t.extract (i + 1) j, t.drop (j + 1))) ∨
    (¬ ∃ j, EvenBetween o c t i j) ∧
      bracket t o c (t.drop (i + 1)) = .error (.unclosedBracket o t) := by
  cases hsplit : splitAtClose o c 0 (t.drop (i + 1)) with
  | none =>
    refine Or.inr ⟨?_, by rw [bracket, hsplit]⟩
    exact not_evenBetween_of_covered hoc hopen ((splitAtClose_eq_none_iff hoc).1 hsplit)
  | some split =>
    obtain ⟨inside, rest⟩ := split
    obtain ⟨hbalanced, hbehind⟩ := (splitAtClose_eq_some_iff hoc).1 hsplit
    refine Or.inl ⟨_, isPartner_of_balanced hoc hopen hbalanced hbehind.symm, ?_⟩
    have hrest : t.drop (i + 1 + inside.length + 1) = rest := by
      rw [Nat.add_assoc, ← List.drop_drop, ← hbehind, List.drop_length_add_append]
      rfl
    rw [bracket, hsplit, extract_of_drop_eq_append hbehind.symm, hrest]

/-- A bracket has a partner if brackets are even anywhere behind it. -/
theorem exists_isPartner_iff : (∃ j, IsPartner o c t i j) ↔ ∃ j, EvenBetween o c t i j := by
  constructor
  · rintro ⟨j, h⟩
    exact ⟨j, h.isLeast.1⟩
  · intro h
    rcases Piece.bracket_cases hoc hopen with ⟨j, hpartner, -⟩ | ⟨hnone, -⟩
    · exact ⟨j, hpartner⟩
    · exact absurd h hnone

/-- **In a balanced text every bracket has a partner.** -/
theorem exists_isPartner_of_balanced (h : Balanced o c t) : ∃ j, IsPartner o c t i j := by
  cases hsplit : splitAtClose o c 0 (t.drop (i + 1)) with
  | some split =>
    obtain ⟨hbalanced, hbehind⟩ := (splitAtClose_eq_some_iff hoc).1 hsplit
    exact ⟨_, isPartner_of_balanced hoc hopen hbalanced hbehind.symm⟩
  | none =>
    -- neither in front of the bracket nor behind it is more closed than opened
    have hfront := h.covered i
    have hbehind := (splitAtClose_eq_none_iff hoc).1 hsplit (t.drop (i + 1)).length
    rw [List.take_length] at hbehind
    have htext : t = t.take i ++ o :: t.drop (i + 1) := by
      conv_lhs => rw [← List.take_append_drop i t, List.drop_eq_getElem?_toList_append, hopen]
      rfl
    have hopened := congrArg (List.count o) htext
    have hclosed := congrArg (List.count c) htext
    rw [List.count_append, List.count_cons_self] at hopened
    rw [List.count_append, List.count_cons_of_ne hoc] at hclosed
    have := h.count_eq
    omega

theorem Piece.bracket_eq_ok_iff {j : Nat} :
    bracket t o c (t.drop (i + 1)) = .ok (t.extract (i + 1) j, t.drop (j + 1)) ↔
      IsPartner o c t i j := by
  rcases bracket_cases hoc hopen with ⟨k, hpartner, hbracket⟩ | ⟨hnone, hbracket⟩ <;> rw [hbracket]
  · constructor
    · intro h
      obtain ⟨hinside, hrest⟩ := Prod.mk.inj (Except.ok.inj h)
      -- the two parts are as long only if they end at the same index
      have hinside := congrArg List.length hinside
      have hrest := congrArg List.length hrest
      simp only [List.extract_eq_take_drop, List.length_take, List.length_drop] at hinside hrest
      have := hpartner.isLeast.1.lt
      have := hpartner.isLeast.1.lt_length
      obtain rfl : k = j := by omega
      exact hpartner
    · intro h
      rw [h.unique hpartner]
  · simpa using fun h ↦ hnone ⟨j, IsPartner.isLeast h |>.1⟩

theorem Piece.bracket_eq_error_iff :
    bracket t o c (t.drop (i + 1)) = .error (.unclosedBracket o t) ↔
      ¬ ∃ j, IsPartner o c t i j := by
  rcases bracket_cases hoc hopen with ⟨k, hpartner, hbracket⟩ | ⟨hnone, hbracket⟩ <;> rw [hbracket]
  · simpa using ⟨k, hpartner⟩
  · exact iff_of_true rfl (mt (exists_isPartner_iff hoc hopen).1 hnone)

end

end CssTypings.Stylesheet

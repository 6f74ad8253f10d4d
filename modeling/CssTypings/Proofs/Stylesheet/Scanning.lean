import CssTypings.Proofs.Stylesheet.Partners
import CssTypings.Proofs.Stylesheet.Provenance
import Mathlib.Logic.Relation

/-!
# Every scan of a selector ends

A scan stands at an index of the text that it scans (`Cursor`). It goes on behind the piece that
begins there (`Onward`), and at a `:local(…)` it first scans what is inside, as a text of its own
(`Inward`). With both of them less is ahead (`length_ahead_lt_of_step`), which is the one measure by
which there is no endless scan.

A scan that is not at the end of its text goes on or is stuck, namely at a bracket that is opened
there and not closed (`exists_step`). This is the only way to a fault, and the fault says which
bracket it is and in which text it stands (`namesFrom_eq_error_iff`). What is scanned on its own has
its parentheses closed, so if the bracket is one of them, the text is the whole selector
(`text_eq_of_unclosed_parenthesis`).
-/

namespace CssTypings.Stylesheet.Selector

open Relation (ReflTransGen)

/-- Where a scan stands: in which text, at which index, and in which scope. -/
structure Cursor where
  text : Text
  index : Nat
  scope : Scope

namespace Cursor

/-- What is still to be scanned. An escape at the end of the text leads past the end, where there is
nothing ahead either. -/
def ahead (p : Cursor) : Text := p.text.drop p.index

/-- The names from the cursor on. -/
def run (p : Cursor) : Except Fault (List Text) := namesFrom p.text p.scope p.ahead

/-! ### What a scan does -/

/-- Everything is scanned. -/
def IsOver (p : Cursor) : Prop := p.text.length ≤ p.index

/-- The scan goes on behind the piece at the cursor, as soon as it has the names of that piece. -/
def Onward (p q : Cursor) : Prop :=
  ∃ c r piece names, p.ahead = c :: r ∧ Piece.next p.text c r = .ok (piece, q.ahead) ∧
    piece.names p.scope = .ok names ∧ q.text = p.text ∧ q.scope = piece.scopeAfter p.scope

/-- The names of the piece at the cursor are those of what is inside it. -/
def Inward (p q : Cursor) : Prop :=
  ∃ c r rest, p.ahead = c :: r ∧ Piece.next p.text c r = .ok (.group .sheet q.text, rest) ∧
    q.index = 0 ∧ q.scope = .sheet

/-- What the scan does next. -/
def Step (p q : Cursor) : Prop := p.Onward q ∨ p.Inward q

/-- The piece at the cursor has an opening bracket at index `k`: an attribute test begins with one,
and a scope keyword may have one behind it. -/
inductive Opens (p : Cursor) : (opening closing : Char) → (k : Nat) → Prop where
  | test (here : p.text[p.index]? = some '[') : Opens p '[' ']' p.index
  | group (scope : Scope) (here : scope.keyword ++ ['('] <+: p.ahead) :
      Opens p '(' ')' (p.index + scope.keyword.length)

/-- The piece at the cursor opens a bracket that is not closed. -/
def IsStuck (p : Cursor) (opening : Char) : Prop :=
  ∃ closing k, p.Opens opening closing k ∧ ¬ ∃ j, IsPartner opening closing p.text k j

variable {p q : Cursor} {o c d : Char} {k : Nat} {r : Text} {fault : Fault}

theorem isOver_iff : p.IsOver ↔ p.ahead = [] := List.drop_eq_nil_iff.symm

theorem length_ahead (p : Cursor) : p.ahead.length = p.text.length - p.index := List.length_drop

/-! ### Every step leaves less ahead -/

theorem length_ahead_lt_of_onward (h : p.Onward q) : q.ahead.length < p.ahead.length := by
  obtain ⟨c, r, piece, names, hahead, hnext, -⟩ := h
  have := Piece.length_le_of_next hnext
  rw [hahead, List.length_cons]
  omega

theorem length_text_lt_length_ahead (h : p.Inward q) : q.text.length < p.ahead.length := by
  obtain ⟨c, r, rest, hahead, hnext, -⟩ := h
  have := Piece.length_le_of_next hnext
  rw [Piece.insideLength] at this
  rw [hahead, List.length_cons]
  omega

theorem length_ahead_lt_of_step (h : p.Step q) : q.ahead.length < p.ahead.length := by
  rcases h with h | h
  · exact length_ahead_lt_of_onward h
  · calc q.ahead.length
      _ ≤ q.text.length := by rw [length_ahead]; exact Nat.sub_le _ _
      _ < p.ahead.length := length_text_lt_length_ahead h

/-- **There is no endless scan.** -/
theorem wellFounded_step : WellFounded fun q p : Cursor ↦ p.Step q :=
  Subrelation.wf length_ahead_lt_of_step (measure fun p : Cursor ↦ p.ahead.length).wf

/-- **The index grows.** -/
theorem index_lt_of_onward (h : p.Onward q) : p.index < q.index := by
  have hlength := length_ahead_lt_of_onward h
  obtain ⟨-, -, -, -, -, -, -, htext, -⟩ := h
  rw [length_ahead, length_ahead, htext] at hlength
  omega

/-- **What is scanned on its own is shorter.** -/
theorem length_text_lt_of_inward (h : p.Inward q) : q.text.length < p.text.length := by
  have hlength := length_text_lt_length_ahead h
  rw [length_ahead] at hlength
  omega

/-! ### Where a scan is stuck -/

theorem Opens.ne (h : p.Opens o c k) : o ≠ c := by
  cases h <;> decide

theorem Opens.getElem?_eq (h : p.Opens o c k) : p.text[k]? = some o := by
  cases h with
  | test here => exact here
  | group scope here =>
    obtain ⟨rest, hrest⟩ := here
    rw [← List.getElem?_drop]
    show p.ahead[_]? = _
    rw [← hrest, List.append_assoc, List.getElem?_append_right (Nat.le_refl _), Nat.sub_self]
    rfl

theorem opens_of_scan? {scope : Scope} {rest : Text} (hahead : p.ahead = d :: r)
    (hscan : Scope.scan? (d :: r) = some (scope, '(' :: rest)) :
    p.Opens '(' ')' (p.index + scope.keyword.length) := by
  refine .group scope ⟨rest, ?_⟩
  rw [hahead, Scope.eq_append_of_scan? hscan, List.append_assoc]
  rfl

/-- The piece at the cursor goes on to the end of the bracket that is opened there. -/
theorem Opens.exists_next_eq (h : p.Opens o c k) (hahead : p.ahead = d :: r) :
    ∃ pieceOf : Text × Text → Piece × Text,
      Piece.next p.text d r = (Piece.bracket p.text o c (p.text.drop (k + 1))).map pieceOf := by
  have hdrop : p.text.drop k = o :: p.text.drop (k + 1) := by
    rw [List.drop_eq_getElem?_toList_append, h.getElem?_eq]
    rfl
  cases h with
  | test here =>
    obtain ⟨rfl, rfl⟩ := List.cons.inj (hahead.symm.trans hdrop)
    exact ⟨_, Piece.next_attribute⟩
  | group scope here =>
    obtain ⟨rest, hrest⟩ := here
    have hkeyword : d :: r = scope.keyword ++ p.text.drop (p.index + scope.keyword.length) := by
      rw [← List.drop_drop]
      show _ = _ ++ p.ahead.drop _
      rw [← hahead, ← hrest, List.append_assoc, List.drop_left]
    rw [hdrop] at hkeyword
    have hscan : Scope.scan? (d :: r) =
        some (scope, '(' :: p.text.drop (p.index + scope.keyword.length + 1)) := by
      rw [hkeyword]
      exact scope.scan?_keyword_append (by simp; decide)
    exact ⟨_, Piece.next_group hscan⟩

/-- A piece that opens no bracket has an end. -/
theorem exists_next_eq_ok (hahead : p.ahead = d :: r) (hopens : ¬ ∃ o c k, p.Opens o c k) :
    ∃ found, Piece.next p.text d r = .ok found := by
  rcases Piece.next_cases p.text d r with ⟨scope, rest, hscan, -⟩ | ⟨_, _, -, hnext⟩ | ⟨rfl, -⟩ |
    ⟨_, _, -, -, hnext⟩ | ⟨_, -, hnext⟩
  · exact absurd ⟨_, _, _, opens_of_scan? hahead hscan⟩ hopens
  · exact ⟨_, hnext⟩
  · refine absurd ⟨_, _, _, Opens.test ?_⟩ hopens
    rw [← List.head?_drop]
    exact congrArg List.head? hahead
  · exact ⟨_, hnext⟩
  · exact ⟨_, hnext⟩

/-- **A piece has no end where the scan is stuck.** -/
theorem next_eq_error_iff (hahead : p.ahead = d :: r) :
    Piece.next p.text d r = .error fault ↔
      ∃ o, p.IsStuck o ∧ fault = .unclosedBracket o p.text := by
  constructor
  · intro h
    by_cases hopens : ∃ o c k, p.Opens o c k
    · obtain ⟨o, c, k, hopens⟩ := hopens
      obtain ⟨pieceOf, hnext⟩ := hopens.exists_next_eq hahead
      rw [hnext, map_eq_error] at h
      rcases Piece.bracket_cases hopens.ne hopens.getElem?_eq with ⟨j, -, hbracket⟩ | ⟨hnone, hbracket⟩
      · rw [hbracket] at h
        cases h
      · rw [hbracket] at h
        exact ⟨o, ⟨c, k, hopens, fun ⟨j, hpartner⟩ ↦ hnone ⟨j, hpartner.isLeast.1⟩⟩,
          (Except.error.inj h).symm⟩
    · obtain ⟨found, hnext⟩ := exists_next_eq_ok hahead hopens
      rw [hnext] at h
      cases h
  · rintro ⟨o, ⟨c, k, hopens, hnone⟩, rfl⟩
    obtain ⟨pieceOf, hnext⟩ := hopens.exists_next_eq hahead
    rw [hnext, map_eq_error]
    exact (Piece.bracket_eq_error_iff hopens.ne hopens.getElem?_eq).2 hnone

/-! ### What is scanned on its own -/

/-- What is scanned on its own stands between a parenthesis and its partner. -/
theorem Inward.exists_isPartner (h : p.Inward q) :
    ∃ k j, IsPartner '(' ')' p.text k j ∧ q.text = p.text.extract (k + 1) j := by
  obtain ⟨d, r, rest, hahead, hnext, -⟩ := h
  rcases Piece.next_cases p.text d r with ⟨scope, inner, hscan, heq⟩ | ⟨_, _, -, heq⟩ | ⟨-, heq⟩ |
    ⟨_, _, -, -, heq⟩ | ⟨_, -, heq⟩ <;> rw [heq] at hnext
  · have hopens := opens_of_scan? hahead hscan
    have hinner : p.text.drop (p.index + scope.keyword.length + 1) = inner := by
      rw [Nat.add_assoc, ← List.drop_drop, ← List.drop_drop]
      show (p.ahead.drop _).drop 1 = inner
      rw [hahead, Scope.eq_append_of_scan? hscan, List.drop_left]
      rfl
    rw [← hinner] at hnext
    rcases Piece.bracket_cases hopens.ne hopens.getElem?_eq with ⟨j, hpartner, hbracket⟩ | ⟨-, hbracket⟩
    · rw [hbracket] at hnext
      obtain ⟨hpiece, -⟩ := Prod.mk.inj (Except.ok.inj hnext)
      exact ⟨_, j, hpartner, (Piece.group.inj hpiece).2.symm⟩
    · rw [hbracket] at hnext
      cases hnext
  · cases hnext
  · obtain ⟨_, -, heq⟩ := exists_of_map_eq_ok hnext
    cases heq
  · cases hnext
  · cases hnext

/-- **Parentheses are closed in whatever is scanned on its own.** -/
theorem text_eq_or_balanced (h : ReflTransGen Step p q) :
    q.text = p.text ∨ Balanced '(' ')' q.text := by
  induction h with
  | refl => exact Or.inl rfl
  | tail _ hstep ih =>
    rcases hstep with ⟨-, -, -, -, -, -, -, htext, -⟩ | hinward
    · rwa [htext]
    · obtain ⟨k, j, hpartner, htext⟩ := hinward.exists_isPartner
      rw [htext]
      exact Or.inr hpartner.balanced

theorem not_isStuck_of_balanced (h : Balanced '(' ')' p.text) : ¬ p.IsStuck '(' := by
  rintro ⟨c, k, hopens, hnone⟩
  obtain rfl : c = ')' := by
    generalize ho : '(' = o at hopens
    cases hopens with
    | test here => exact absurd ho (by decide)
    | group scope here => rfl
  exact hnone (exists_isPartner_of_balanced hopens.ne hopens.getElem?_eq h)

/-! ### What a run comes to -/

/-- A scan that is stuck is at a piece. -/
theorem IsStuck.exists_ahead (h : p.IsStuck o) : ∃ c r, p.ahead = c :: r := by
  obtain ⟨c, k, hopens, -⟩ := h
  cases hahead : p.ahead with
  | cons d r => exact ⟨d, r, rfl⟩
  | nil =>
    have hlength : p.text.length ≤ p.index := isOver_iff.2 hahead
    have hk := (List.getElem?_eq_some_iff.1 hopens.getElem?_eq).1
    have hle : p.index ≤ k := by cases hopens <;> omega
    omega

/-- One piece, and then the rest. -/
theorem run_eq (hahead : p.ahead = d :: r) :
    p.run = do
      let (piece, rest) ← Piece.next p.text d r
      let first ← piece.names p.scope
      let others ← namesFrom p.text (piece.scopeAfter p.scope) rest
      return first ++ others := by
  rw [run, hahead, namesFrom_cons]

theorem run_of_isOver (h : p.IsOver) : p.run = .ok [] := by
  rw [run, isOver_iff.1 h, namesFrom_nil]

theorem run_of_isStuck (h : p.IsStuck o) : p.run = .error (.unclosedBracket o p.text) := by
  obtain ⟨d, r, hahead⟩ := h.exists_ahead
  rw [run_eq hahead, (next_eq_error_iff hahead).2 ⟨o, h, rfl⟩]
  rfl

/-- The names of a piece come in front of those of the rest. -/
theorem exists_run_of_onward (h : p.Onward q) :
    ∃ names, p.run = do let others ← q.run; return names ++ others := by
  obtain ⟨c, r, piece, names, hahead, hnext, hnames, htext, hscope⟩ := h
  refine ⟨names, ?_⟩
  rw [run_eq hahead, hnext, run, htext, hscope]
  show (do let first ← piece.names p.scope; _) = _
  rw [hnames]
  rfl

/-- A fault inside or behind is a fault of the whole. -/
theorem run_eq_error_of_step (h : p.Step q) (hfault : q.run = .error fault) :
    p.run = .error fault := by
  rcases h with h | ⟨c, r, rest, hahead, hnext, hindex, hscope⟩
  · obtain ⟨names, hrun⟩ := exists_run_of_onward h
    rw [hrun, hfault]
    rfl
  · have hinside : namesFrom q.text .sheet q.text = .error fault := by
      rw [← hfault, run, ahead, hindex, hscope, List.drop_zero]
    rw [run_eq hahead, hnext]
    show (do let first ← namesFrom q.text .sheet q.text; _) = _
    rw [hinside]
    rfl

section

variable {piece : Piece} {rest : Text} (hahead : p.ahead = d :: r)
  (hnext : Piece.next p.text d r = .ok (piece, rest))
include hahead hnext

/-- Only what is inside of a `:local(…)` has a fault of its own. -/
theorem exists_inward (hnames : piece.names p.scope = .error fault) :
    ∃ q, p.Inward q ∧ q.run = .error fault := by
  rcases piece.names_cases p.scope with ⟨inside, rfl, h⟩ | ⟨raw, -, h⟩ | h <;> rw [h] at hnames
  · exact ⟨⟨inside, 0, .sheet⟩, ⟨d, r, rest, hahead, hnext, rfl, rfl⟩, hnames⟩
  · cases hnames
  · cases hnames

theorem exists_onward {names : List Text} (hnames : piece.names p.scope = .ok names) :
    ∃ q, p.Onward q := by
  obtain ⟨front, hfront⟩ : rest <:+ p.ahead := hahead ▸ (Piece.takenFrom_of_next hnext).rest_suffix
  have hrest : p.text.drop (p.index + front.length) = rest := by
    rw [← List.drop_drop]
    show p.ahead.drop _ = rest
    rw [← hfront, List.drop_left]
  refine ⟨⟨p.text, p.index + front.length, piece.scopeAfter p.scope⟩, d, r, piece, names, hahead, ?_,
    hnames, rfl, rfl⟩
  rw [hnext, ahead, hrest]

end

/-- **A scan is over, or it is stuck, or it goes on**; and it goes where its fault is, if it has
one. -/
theorem exists_step (p : Cursor) :
    p.IsOver ∨ (∃ o, p.IsStuck o) ∨
      ∃ q, p.Step q ∧ ∀ fault, p.run = .error fault → q.run = .error fault := by
  cases hahead : p.ahead with
  | nil => exact Or.inl (isOver_iff.2 hahead)
  | cons d r =>
    refine Or.inr ?_
    cases hnext : Piece.next p.text d r with
    | error fault =>
      obtain ⟨o, hstuck, -⟩ := (next_eq_error_iff hahead).1 hnext
      exact Or.inl ⟨o, hstuck⟩
    | ok found =>
      obtain ⟨piece, rest⟩ := found
      refine Or.inr ?_
      cases hnames : piece.names p.scope with
      | error fault =>
        obtain ⟨q, hinward, hfault⟩ := exists_inward hahead hnext hnames
        refine ⟨q, Or.inr hinward, fun fault' h ↦ ?_⟩
        have hself : p.run = .error fault := by
          rw [run_eq hahead, hnext]
          exact bind_eq_error.2 (Or.inr ⟨_, rfl, bind_eq_error.2 (Or.inl hnames)⟩)
        rw [hfault, ← hself, h]
      | ok names =>
        obtain ⟨q, honward⟩ := exists_onward hahead hnext hnames
        refine ⟨q, Or.inl honward, fun fault h ↦ ?_⟩
        obtain ⟨names, hself⟩ := exists_run_of_onward honward
        rw [hself] at h
        rcases bind_eq_error.1 h with h | ⟨_, -, h⟩
        · exact h
        · cases h

/-- **A scan has a fault exactly if it comes to a place where it is stuck.** -/
theorem run_eq_error_iff :
    p.run = .error fault ↔
      ∃ q o, ReflTransGen Step p q ∧ q.IsStuck o ∧ fault = .unclosedBracket o q.text := by
  constructor
  · intro h
    -- along the steps, each of which takes the fault with it
    induction p using wellFounded_step.induction with
    | _ p ih =>
      rcases p.exists_step with hover | ⟨o, hstuck⟩ | ⟨q, hstep, hfault⟩
      · rw [run_of_isOver hover] at h
        cases h
      · rw [run_of_isStuck hstuck] at h
        exact ⟨p, o, .refl, hstuck, (Except.error.inj h).symm⟩
      · obtain ⟨q', o, hreach, hstuck⟩ := ih q hstep (hfault fault h)
        exact ⟨q', o, .head hstep hreach, hstuck⟩
  · rintro ⟨q, o, hreach, hstuck, rfl⟩
    induction hreach using ReflTransGen.head_induction_on with
    | refl => exact run_of_isStuck hstuck
    | head hstep _ ih => exact run_eq_error_of_step hstep ih

end Cursor

/-- **The faults of a scan** are the brackets that are never closed and that it comes to. -/
theorem namesFrom_eq_error_iff {t : Text} {scope : Scope} {fault : Fault} :
    namesFrom t scope t = .error fault ↔ ∃ p o,
      ReflTransGen Cursor.Step ⟨t, 0, scope⟩ p ∧ p.IsStuck o ∧ fault = .unclosedBracket o p.text :=
  Cursor.run_eq_error_iff (p := ⟨t, 0, scope⟩)

/-- **A parenthesis that is never closed is one of the selector itself**: only a square bracket can
be open at the end of what is scanned on its own. -/
theorem text_eq_of_unclosed_parenthesis {t part : Text} {scope : Scope}
    (h : namesFrom t scope t = .error (.unclosedBracket '(' part)) : part = t := by
  obtain ⟨p, o, hreach, hstuck, hfault⟩ := namesFrom_eq_error_iff.1 h
  obtain ⟨rfl, rfl⟩ := Fault.unclosedBracket.inj hfault
  rcases Cursor.text_eq_or_balanced hreach with htext | hbalanced
  · exact htext
  · exact absurd hstuck (Cursor.not_isStuck_of_balanced hbalanced)

/-- **Brackets are closed at their partners, and every scan of a selector ends.** What stands behind
an opening bracket is split at its partner, which is the first index up to which brackets are opened
as often as closed, and there is a fault exactly if there is no such index. With each piece the scan
of a text comes to a larger index, and what is scanned on its own is shorter, so there is no endless
scan. It ends at the end of the text or where a bracket is never closed: the result is the list of
names, or the fault that says which bracket it is and in which text, if the scan comes to one. -/
theorem scan_ends (t : Text) :
    (∀ (o c : Char) (i : Nat), o ≠ c → t[i]? = some o →
      (∀ j, Piece.bracket t o c (t.drop (i + 1)) = .ok (t.extract (i + 1) j, t.drop (j + 1)) ↔
        IsPartner o c t i j) ∧
      (Piece.bracket t o c (t.drop (i + 1)) = .error (.unclosedBracket o t) ↔
        ¬ ∃ j, IsPartner o c t i j) ∧
      ((∃ j, IsPartner o c t i j) ↔ ∃ j, EvenBetween o c t i j)) ∧
    (∀ p q : Cursor, p.Onward q → p.index < q.index) ∧
    (∀ p q : Cursor, p.Inward q → q.text.length < p.text.length) ∧
    WellFounded (fun q p : Cursor ↦ p.Step q) ∧
    (∀ p : Cursor, p.IsOver ∨ (∃ o, p.IsStuck o) ∨ ∃ q, p.Step q) ∧
    ∀ scope,
      ((∃ names, namesFrom t scope t = .ok names) ∨
        ∃ o part, namesFrom t scope t = .error (.unclosedBracket o part)) ∧
      ∀ o part, namesFrom t scope t = .error (.unclosedBracket o part) ↔
        ∃ p : Cursor, ReflTransGen Cursor.Step ⟨t, 0, scope⟩ p ∧ p.text = part ∧ p.IsStuck o := by
  refine ⟨fun o c i hoc hopen ↦ ⟨fun j ↦ Piece.bracket_eq_ok_iff hoc hopen,
    Piece.bracket_eq_error_iff hoc hopen, exists_isPartner_iff hoc hopen⟩,
    fun p q ↦ Cursor.index_lt_of_onward, fun p q ↦ Cursor.length_text_lt_of_inward,
    Cursor.wellFounded_step, fun p ↦ ?_, fun scope ↦ ?_⟩
  · exact p.exists_step.imp_right (Or.imp_right fun ⟨q, hstep, _⟩ ↦ ⟨q, hstep⟩)
  · constructor
    · cases hnames : namesFrom t scope t with
      | ok names => exact Or.inl ⟨names, rfl⟩
      | error fault =>
        obtain ⟨p, o, -, -, rfl⟩ := namesFrom_eq_error_iff.1 hnames
        exact Or.inr ⟨o, p.text, rfl⟩
    · intro o part
      rw [namesFrom_eq_error_iff]
      constructor
      · rintro ⟨p, o', hreach, hstuck, hfault⟩
        obtain ⟨rfl, rfl⟩ := Fault.unclosedBracket.inj hfault
        exact ⟨p, hreach, rfl, hstuck⟩
      · rintro ⟨p, hreach, rfl, hstuck⟩
        exact ⟨p, o, hreach, hstuck, rfl⟩

/-- A selector with a bracket inside of a `:local(…)` that is closed only behind it. -/
def crossedSelector : Text := ":local(.a :global([) [b) ]\\".toList

/-- The parenthesis is closed in spite of the brackets inside, so what is scanned on its own has a
bracket that is not closed there. -/
theorem scan_ends_crossedSelector :
    ('(' ≠ ')' ∧ crossedSelector[6]? = some '(' ∧ IsPartner '(' ')' crossedSelector 6 23) ∧
    (Cursor.Inward ⟨crossedSelector, 0, .global⟩ ⟨".a :global([) [b".toList, 0, .sheet⟩ ∧
      ".a :global([) [b".toList.length < crossedSelector.length) ∧
    (Cursor.Onward ⟨".a :global([) [b".toList, 3, .sheet⟩ ⟨".a :global([) [b".toList, 13, .sheet⟩ ∧
      3 < 13) ∧
    ∃ p : Cursor, ReflTransGen Cursor.Step ⟨crossedSelector, 0, .global⟩ p ∧
      p.text = ".a :global([) [b".toList ∧ p.IsStuck '[' := by
  obtain ⟨hbracket, honward, hinward, -, -, hscan⟩ := scan_ends crossedSelector
  have hopen : crossedSelector[6]? = some '(' := by decide
  have hinside : Cursor.Inward ⟨crossedSelector, 0, .global⟩ ⟨".a :global([) [b".toList, 0, .sheet⟩ :=
    ⟨':', crossedSelector.tail, " ]\\".toList, by decide, by decide +kernel, rfl, rfl⟩
  have hbehind : Cursor.Onward ⟨".a :global([) [b".toList, 3, .sheet⟩
      ⟨".a :global([) [b".toList, 13, .sheet⟩ :=
    ⟨':', "global([) [b".toList, .group .global ['['], [], by decide, by decide +kernel, rfl, rfl, rfl⟩
  refine ⟨⟨by decide, hopen, ?_⟩, ⟨hinside, hinward _ _ hinside⟩, ⟨hbehind, honward _ _ hbehind⟩, ?_⟩
  · exact ((hbracket '(' ')' 6 (by decide) hopen).1 23).1 (by decide +kernel)
  · exact ((hscan .global).2 _ _).1 (by decide +kernel)

end CssTypings.Stylesheet.Selector

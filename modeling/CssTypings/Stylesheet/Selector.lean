import CssTypings.Stylesheet.Bracket
import CssTypings.Stylesheet.Fault
import CssTypings.Stylesheet.Identifier

/-!
# The names in a selector

A selector exports the class and id names in it. The marks `:global` and `:local` turn exporting
off and on for what follows them; with a parenthesis they apply to what is inside it: a `:local(…)`
is scanned like a selector of its own, a `:global(…)` is passed over. Attribute tests `[…]` are
passed over too, and a backslash takes the meaning of the character behind it away.

A comma at the top level separates selectors, each of which starts with exporting on.
-/

namespace CssTypings.Stylesheet

/-- Who sees the names that are declared: the sheet, which exports them, or everyone. -/
inductive Scope where
  | sheet
  | global
deriving DecidableEq, Repr

namespace Scope

/-- The keyword that marks a scope in a selector. -/
def keyword : Scope → Text
  | .sheet => ":local".toList
  | .global => ":global".toList

/-- What follows the keyword of a scope; the keyword ends where the word ends. -/
def after? (scope : Scope) (t : Text) : Option Text :=
  match Text.after? scope.keyword t with
  | some (c :: r) => if Text.isWord c then none else some (c :: r)
  | some [] => some []
  | none => none

/-- The scope whose keyword stands at the start of the text, and what follows the keyword. -/
def scan? (t : Text) : Option (Scope × Text) :=
  ((global.after? t).map (global, ·)).or ((sheet.after? t).map (sheet, ·))

theorem length_keyword_pos (scope : Scope) : 0 < scope.keyword.length := by
  cases scope <;> decide

theorem length_le_of_after? {scope : Scope} {c : Char} {t rest : Text}
    (h : scope.after? (c :: t) = some rest) : rest.length ≤ t.length := by
  have behind {rest' : Text} (h' : Text.after? scope.keyword (c :: t) = some rest') :
      rest'.length ≤ t.length := by
    simp only [Text.after?, Option.ite_none_right_eq_some, Option.some.injEq] at h'
    have := length_keyword_pos scope
    rw [← h'.2, List.length_drop, List.length_cons]
    omega
  unfold after? at h
  split at h
  · next h' => have := behind h'; split at h <;> simp_all
  · next h' => have := behind h'; simp_all
  · contradiction

theorem length_le_of_scan? {scope : Scope} {c : Char} {t rest : Text}
    (h : scan? (c :: t) = some (scope, rest)) : rest.length ≤ t.length := by
  simp only [scan?, Option.or_eq_some_iff, Option.map_eq_some_iff, Prod.mk.injEq] at h
  rcases h with ⟨_, h, -, rfl⟩ | ⟨-, _, h, -, rfl⟩ <;> exact length_le_of_after? h

end Scope

/-- A piece of a selector. -/
inductive Piece where
  /-- A scope keyword and a parenthesis. -/
  | group (scope : Scope) (inside : Text)
  /-- A scope keyword alone. -/
  | switch (scope : Scope)
  /-- A class or an id, with the raw form of its name. -/
  | name (raw : Text)
  /-- Anything else. -/
  | other
deriving DecidableEq, Repr

namespace Piece

/-- The bracket that opened before `t`, up to its end; `selector` is named if it has none. -/
def bracket (selector : Text) (opening closing : Char) (t : Text) : Except Fault (Text × Text) :=
  match splitAtClose opening closing 0 t with
  | some split => .ok split
  | none => .error (.unclosedBracket opening selector)

/-- The first piece of the text `c :: r`, which is part of `selector`, and the rest. -/
def next (selector : Text) (c : Char) (r : Text) : Except Fault (Piece × Text) :=
  match Scope.scan? (c :: r) with
  | some (scope, '(' :: r') =>
    (bracket selector '(' ')' r').map fun (inside, rest) ↦ (group scope inside, rest)
  | some (scope, rest) => .ok (switch scope, rest)
  | none =>
    if c = '[' then (bracket selector '[' ']' r).map fun (_, rest) ↦ (other, rest)
    -- The character behind a backslash is passed over, whatever it is.
    else if c = '\\' then .ok (other, r.drop 1)
    else if c = '.' ∨ c = '#' then
      match Identifier.scan? r with
      | some (raw, rest) => .ok (name raw, rest)
      | none => .ok (other, r)
    else .ok (other, r)

/-- The length of the text inside a piece that is scanned further. -/
def insideLength : Piece → Nat
  | group _ inside => inside.length
  | _ => 0

theorem length_add_lt_of_bracket {selector : Text} {opening closing : Char}
    {t inside rest : Text} (h : bracket selector opening closing t = .ok (inside, rest)) :
    inside.length + rest.length < t.length := by
  unfold bracket at h
  split at h
  · next hs => cases h; exact length_add_lt_of_splitAtClose hs
  · contradiction

theorem length_le_of_next {selector : Text} {c : Char} {r : Text} {piece : Piece} {rest : Text}
    (h : next selector c r = .ok (piece, rest)) : piece.insideLength + rest.length ≤ r.length := by
  unfold next at h
  split at h
  · next scope r' hs =>
    have hr := Scope.length_le_of_scan? hs
    simp only [Except.map] at h
    split at h <;> cases h
    have := length_add_lt_of_bracket ‹bracket _ _ _ _ = .ok _›
    simp only [List.length_cons, insideLength] at *
    omega
  · next hs => cases h; simpa [insideLength] using Scope.length_le_of_scan? hs
  · split at h
    · simp only [Except.map] at h
      split at h <;> cases h
      have := length_add_lt_of_bracket ‹bracket _ _ _ _ = .ok _›
      simp only [insideLength]
      omega
    · split at h
      · cases h; simp [insideLength]
      · split at h
        · split at h <;> cases h
          · simpa [insideLength] using Identifier.length_rest_le_of_scan? ‹_›
          · simp [insideLength]
        · cases h; simp [insideLength]

end Piece

namespace Selector

/-- The names in a part of `selector`, in order, beginning in the given scope. -/
def namesFrom (selector : Text) (scope : Scope) : Text → Except Fault (List Text)
  | [] => .ok []
  | c :: r =>
    match _ : Piece.next selector c r with
    | .error fault => .error fault
    -- What is inside counts as exported even where exporting is off.
    | .ok (.group .sheet inside, rest) => do
      let inner ← namesFrom inside .sheet inside
      let names ← namesFrom selector scope rest
      return inner ++ names
    | .ok (.group .global _, rest) => namesFrom selector scope rest
    | .ok (.switch scope', rest) => namesFrom selector scope' rest
    | .ok (.name raw, rest) => do
      let names ← namesFrom selector scope rest
      return match scope with
        | .sheet => Identifier.unescape raw :: names
        | .global => names
    | .ok (.other, rest) => namesFrom selector scope rest
termination_by t => t.length
decreasing_by
  all_goals
    have := Piece.length_le_of_next ‹_›
    simp only [Piece.insideLength] at this
    simp only [List.length_cons]
    omega

/-- The names that one selector exports. -/
def names (selector : Text) : Except Fault (List Text) := namesFrom selector .sheet selector

/-- The parts of a text between top-level commas, with `depth` brackets open; round and square
brackets count alike. -/
def splitFrom : (depth : Nat) → Text → List Text
  | _, [] => [[]]
  | 0, ',' :: r => [] :: splitFrom 0 r
  | depth, c :: r =>
    let depth' := if c = '(' ∨ c = '[' then depth + 1
      else if c = ')' ∨ c = ']' then depth - 1 else depth
    (splitFrom depth' r).modifyHead (c :: ·)

/-- The selectors of a rule, in order, without the blanks around them; empty ones are left out. -/
def split (t : Text) : List Text := ((splitFrom 0 t).map Text.trim).filter (· ≠ [])

/-- The names that the prelude of a rule exports, in order and with repetitions. -/
def listNames (t : Text) : Except Fault (List Text) := return (← (split t).mapM names).flatten

end Selector

end CssTypings.Stylesheet

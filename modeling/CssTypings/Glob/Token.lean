import CssTypings.Text.Basic

/-!
# Wildcards

A wildcard pattern is a sequence of tokens. `*` stands for any text, `?` for any one character, and
`[…]` for one character of a set; every other character stands for itself. Neither slashes nor
newlines are special, and a pattern has to account for the whole of a text.

A set lists characters and ranges `a-z`, and with `!` in front it stands for the characters that it
does not list. A `]` right behind the opening is listed, and an opening without an end is an
ordinary character. The hyphens that make ranges divide the set into chunks; a range that runs
backwards is dropped together with its two ends. A set in which nothing is left matches nothing,
but `!` alone matches every character. If only `!` is left in front of a hyphen, the hyphen is the
first character that the set lists.
-/

namespace CssTypings.Glob

/-- A set of characters. -/
structure CharSet where
  /-- Whether the set holds the characters outside the ranges instead. -/
  negated : Bool
  /-- Inclusive ranges. -/
  ranges : List (Char × Char)
deriving DecidableEq, Repr

namespace CharSet

/-- Whether the set holds the character. -/
def has (set : CharSet) (c : Char) : Bool :=
  (set.ranges.any fun r ↦ decide (r.1 ≤ c) && decide (c ≤ r.2)) != set.negated

/-- The set of one character. -/
def single (c : Char) : CharSet := ⟨false, [(c, c)]⟩

/-- The set of all characters. -/
def all : CharSet := ⟨true, []⟩

theorem has_single {c d : Char} : (single c).has d = true ↔ c = d := by
  simp only [has, single, List.any_cons, List.any_nil, Bool.or_false, Bool.bne_false,
    Bool.and_eq_true, decide_eq_true_eq]
  exact ⟨fun h ↦ Char.le_antisymm h.1 h.2, fun h ↦ h ▸ ⟨Char.le_refl c, Char.le_refl c⟩⟩

@[simp] theorem has_all (c : Char) : all.has c = true := rfl

/-! ### Reading a set -/

/-- Cuts a text at the first hyphen that has at least `skip` characters in front of it. -/
def cutHyphen? : (skip : Nat) → Text → Option (Text × Text)
  | _, [] => none
  | 0, c :: r =>
    if c = '-' then some ([], r) else (cutHyphen? 0 r).map fun (a, b) ↦ (c :: a, b)
  | skip + 1, c :: r => (cutHyphen? skip r).map fun (a, b) ↦ (c :: a, b)

theorem length_lt_of_cutHyphen? {skip : Nat} {t a b : Text} (h : cutHyphen? skip t = some (a, b)) :
    b.length < t.length := by
  fun_induction cutHyphen? skip t generalizing a b with
  | case1 => contradiction
  | case2 r => simp_all
  | case3 c r _ ih | case4 skip c r ih =>
    simp only [Option.map_eq_some_iff, Prod.mk.injEq, Prod.exists] at h
    obtain ⟨a', b', h, -, rfl⟩ := h
    exact Nat.lt_succ_of_lt (ih h)

/-- The chunks of a text between the hyphens that make ranges: the first of them has at least `skip`
characters in front of it, each later one at least two since the hyphen before. -/
def chunks (skip : Nat) (t : Text) : List Text :=
  match _ : cutHyphen? skip t with
  | none => [t]
  | some (chunk, rest) => chunk :: chunks 2 rest
termination_by t.length
decreasing_by exact length_lt_of_cutHyphen? ‹_›

/-- A hyphen at the end of a set makes no range: it belongs to the chunk before it. -/
def mendLast : List Text → List Text
  | [chunk, []] => [chunk ++ ['-']]
  | chunk :: rest => chunk :: mendLast rest
  | [] => []

/-- Drops the ranges that run backwards, from the right: the chunks on both sides lose the end of
the range and become one. -/
def dropBackward : List Text → List Text
  | [] => []
  | chunk :: rest =>
    match dropBackward rest with
    | [] => [chunk]
    | next :: rest' =>
      match chunk.getLast?, next with
      | some a, b :: next' =>
        if b < a then (chunk.dropLast ++ next') :: rest' else chunk :: (b :: next') :: rest'
      | _, _ => chunk :: next :: rest'

/-- The characters of the chunks and the ranges between them. -/
def rangesOf : List Text → List (Char × Char)
  | [] => []
  | chunk :: rest =>
    let spans := match chunk.getLast?, rest.head?.bind List.head? with
      | some a, some b => [(a, b)]
      | _, _ => []
    chunk.map (fun c ↦ (c, c)) ++ spans ++ rangesOf rest

/-- The set that the text between the square brackets describes. -/
def ofText (t : Text) : CharSet :=
  -- The first character that is listed is listed even if it is a hyphen.
  let skip := if t.head? = some '!' then 2 else 1
  match dropBackward (mendLast (chunks skip t)) with
  | [['!']] => all
  | ['!'] :: rest => ⟨true, ('-', '-') :: rangesOf rest⟩
  | ('!' :: chunk) :: rest => ⟨true, rangesOf (chunk :: rest)⟩
  | parts => ⟨false, rangesOf parts⟩

end CharSet

/-- A position of a wildcard pattern. -/
inductive Token where
  /-- Any text. -/
  | star
  /-- One character of a set. -/
  | one (set : CharSet)
deriving DecidableEq, Repr

namespace Token

/-- Whether a set whose opening stands before the text has an end. -/
def closes (t : Text) : Bool :=
  let t := match t with | '!' :: r => r | t => t
  let t := match t with | ']' :: r => r | t => t
  t.contains ']'

/-- The tokens of a pattern that continues inside a set, of which `seen` was read, backwards, or
outside of one. -/
def readFrom : (seen : Option Text) → Text → List Token
  | _, [] => []
  | none, c :: r =>
    if c = '*' then star :: readFrom none r
    else if c = '?' then one CharSet.all :: readFrom none r
    else if c = '[' ∧ closes r then readFrom (some []) r
    else one (.single c) :: readFrom none r
  | some seen, c :: r =>
    -- Right behind the opening a closing bracket is one of the characters.
    if c = ']' ∧ seen ≠ [] ∧ seen ≠ ['!'] then
      one (.ofText seen.reverse) :: readFrom none r
    else readFrom (some (c :: seen)) r

/-- The tokens of a pattern. -/
def read (pattern : Text) : List Token := readFrom none pattern

/-! ### Matching -/

/-- What a text leaves after one character of the set. -/
def leave? (set : CharSet) : Text → Option Text
  | [] => none
  | c :: r => if set.has c then some r else none

/-- What a token leaves of the given suffixes of a text, the longest first: a star leaves every
suffix of the longest. -/
def advance (left : List Text) : Token → List Text
  | star => match left with
    | [] => []
    | longest :: _ => Text.suffixes longest
  | one set => left.filterMap (leave? set)

end Token

/-- Whether the pattern accounts for the whole text. -/
def wildcard (pattern t : Text) : Bool :=
  ((Token.read pattern).foldl Token.advance [t]).contains []

end CssTypings.Glob

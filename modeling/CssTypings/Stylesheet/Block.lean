import CssTypings.Stylesheet.Fault

/-!
# Blocks

A masked stylesheet is a sequence of blocks `prelude { body }` and of statements ended by `;`,
which are dropped. Bodies may hold further blocks; they are kept as text, so that the caller
decides which of them to open.

A text splits exactly if its braces are balanced. A `}` too many is reported where it stands, a
`{` too many at the end of the text.
-/

namespace CssTypings.Stylesheet

/-- A block at the top level of a text. -/
structure Block where
  /-- What stands before the opening brace, without the blanks around it. -/
  prelude : Text
  /-- What stands between the braces. -/
  body : Text
deriving DecidableEq, Repr

namespace Block

/-- Where the splitter stands; texts are collected backwards. -/
inductive Place where
  /-- Between blocks, after `prelude`. -/
  | outside (prelude : Text)
  /-- In a block, after `body`, with `depth` further blocks open inside it. -/
  | inside (prelude body : Text) (depth : Nat)

/-- The blocks of a text that continues from the given place. -/
def splitFrom : Place → Text → Except Fault (List Block)
  | .outside _, [] => .ok []
  | .inside .., [] => .error .unclosedBlock
  | .outside p, c :: r =>
    if c = '{' then splitFrom (.inside p [] 0) r
    else if c = '}' then .error .unexpectedClose
    else if c = ';' then splitFrom (.outside []) r
    else splitFrom (.outside (c :: p)) r
  | .inside p b 0, c :: r =>
    if c = '{' then splitFrom (.inside p (c :: b) 1) r
    else if c = '}' then
      (splitFrom (.outside []) r).map (⟨Text.trim p.reverse, b.reverse⟩ :: ·)
    else splitFrom (.inside p (c :: b) 0) r
  | .inside p b (d + 1), c :: r =>
    if c = '{' then splitFrom (.inside p (c :: b) (d + 2)) r
    else if c = '}' then splitFrom (.inside p (c :: b) d) r
    else splitFrom (.inside p (c :: b) (d + 1)) r

/-- The blocks of a text, in order. -/
def split (t : Text) : Except Fault (List Block) := splitFrom (.outside []) t

/-! ### A body is shorter than the text it was found in -/

/-- The length of the body collected so far; between blocks there is none. -/
def Place.bodyLength : Place → Nat
  | .outside _ => 0
  | .inside _ b _ => b.length

theorem length_body_lt_of_mem_splitFrom {place : Place} {t : Text} {bs : List Block} {b : Block}
    (h : splitFrom place t = .ok bs) (hb : b ∈ bs) :
    b.body.length < place.bodyLength + t.length := by
  fun_induction splitFrom place t generalizing bs with
  | case1 => simp_all
  | case2 => simp_all
  | case3 p r ih => have := ih h hb; simp_all [Place.bodyLength]; omega
  | case4 => simp_all
  | case5 p r _ _ ih => have := ih h hb; simp_all [Place.bodyLength]; omega
  | case6 p c r _ _ _ ih => have := ih h hb; simp_all [Place.bodyLength]; omega
  | case7 p b r ih => have := ih h hb; simp_all [Place.bodyLength]; omega
  | case8 p b' r _ ih =>
    cases hr : splitFrom (.outside []) r with
    | error e => simp [hr, Except.map] at h
    | ok bs' =>
      simp only [hr, Except.map, Except.ok.injEq] at h
      subst h
      rcases List.mem_cons.1 hb with rfl | hb
      · simp [Place.bodyLength]
      · have := ih hr hb
        simp_all [Place.bodyLength]; omega
  | case9 p b c r _ _ ih => have := ih h hb; simp_all [Place.bodyLength]; omega
  | case10 p b d r ih => have := ih h hb; simp_all [Place.bodyLength]; omega
  | case11 p b d r _ ih => have := ih h hb; simp_all [Place.bodyLength]; omega
  | case12 p b d c r _ _ ih => have := ih h hb; simp_all [Place.bodyLength]; omega

theorem length_body_lt_of_mem_split {t : Text} {bs : List Block} {b : Block}
    (h : split t = .ok bs) (hb : b ∈ bs) : b.body.length < t.length := by
  simpa [Place.bodyLength] using length_body_lt_of_mem_splitFrom h hb

end Block

end CssTypings.Stylesheet

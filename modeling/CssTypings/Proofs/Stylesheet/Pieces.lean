import CssTypings.Proofs.Collect
import CssTypings.Proofs.Stylesheet.Balance
import CssTypings.Proofs.Stylesheet.Naming
import CssTypings.Stylesheet.Selector

/-!
# The scanner of selectors, one piece at a time

One equation carries all proofs about the scanner (`Selector.namesFrom_cons`): it takes a piece,
lists the names of the piece, goes over to the scope that the piece leaves, and scans the rest. What
a piece lists and which scope it leaves are functions of the piece alone (`Piece.names`,
`Piece.scopeAfter`). The other lemmas say which piece comes next, by the first character, and all
that can come is listed in `Piece.next_cases`.

The splitter at commas has one equation as well (`Selector.splitFrom_cons`), from which follows what
it passes over (`Selector.Passes`). A list of selectors exports what its parts export, in order
(`Selector.listNames_eq`).
-/

namespace CssTypings.Stylesheet

/-! ### Scope keywords -/

namespace Scope

theorem keyword_sheet : sheet.keyword = ':' :: "local".toList := by decide

theorem keyword_global : global.keyword = ':' :: "global".toList := by decide

theorem after?_eq_none {scope : Scope} {t : Text} (h : Text.after? scope.keyword t = none) :
    scope.after? t = none := by
  rw [after?, h]

theorem after?_eq_filter (scope : Scope) (t : Text) :
    scope.after? t = (Text.after? scope.keyword t).filter fun r ↦ !r.head?.any Text.isWord := by
  rw [after?]
  split
  · next c r h => cases hword : Text.isWord c <;> simp [h, hword, Option.filter]
  · next h => simp [h, Option.filter]
  · next h => rw [h]; rfl

/-- A keyword stands where it is read. -/
theorem eq_append_of_scan? {scope : Scope} {t rest : Text} (h : scan? t = some (scope, rest)) :
    t = scope.keyword ++ rest := by
  have hkeyword {scope : Scope} (h : scope.after? t = some rest) : t = scope.keyword ++ rest := by
    rw [after?_eq_filter, Option.filter_eq_some_iff] at h
    exact Text.eq_append_of_after? h.1
  simp only [scan?, Option.or_eq_some_iff, Option.map_eq_some_iff, Prod.mk.injEq] at h
  rcases h with ⟨_, h, rfl, rfl⟩ | ⟨-, _, h, rfl, rfl⟩ <;> exact hkeyword h

theorem scan?_of_head? {t : Text} (ht : ':' ∉ t.head?) : scan? t = none := by
  have hnone (scope : Scope) : scope.after? t = none :=
    after?_eq_none (Text.after?_eq_none_of_head? (c := ':') (by cases scope <;> decide) ht)
  rw [scan?, hnone, hnone]
  rfl

/-- **A keyword is read where its word ends.** -/
theorem scan?_keyword_append (scope : Scope) {rest : Text}
    (hrest : ∀ c ∈ rest.head?, Text.isWord c = false) :
    scan? (scope.keyword ++ rest) = some (scope, rest) := by
  have hself : scope.after? (scope.keyword ++ rest) = some rest := by
    rw [after?, Text.after?_append]
    cases rest with
    | nil => rfl
    | cons c r => simp [hrest c rfl]
  cases scope with
  | global => rw [scan?, hself]; rfl
  | sheet =>
    have hother : global.after? (sheet.keyword ++ rest) = none := by
      have hsheet : sheet.keyword = ':' :: 'l' :: "ocal".toList := by decide
      have hglobal : global.keyword = ':' :: 'g' :: "lobal".toList := by decide
      refine after?_eq_none ?_
      rw [Text.after?, if_neg]
      rw [hsheet, hglobal, List.cons_append, List.cons_append, List.isPrefixOf, List.isPrefixOf]
      simp
    rw [scan?, hself, hother]
    rfl

end Scope

/-! ### The next piece -/

namespace Piece

variable {selector r : Text} {c : Char}

/-- A character that is passed over on its own: it begins neither a name nor a scope keyword nor an
attribute test, and it is no backslash. -/
def isInert (c : Char) : Bool := !(c == ':' || c == '[' || c == '\\' || c == '.' || c == '#')

theorem isInert_of_class {p : Char → Bool}
    (h : p ':' = false ∧ p '[' = false ∧ p '\\' = false ∧ p '.' = false ∧ p '#' = false)
    (hc : p c = true) : isInert c = true := by
  simp [isInert, Text.ne_of_pos_of_neg hc h.1, Text.ne_of_pos_of_neg hc h.2.1,
    Text.ne_of_pos_of_neg hc h.2.2.1, Text.ne_of_pos_of_neg hc h.2.2.2.1,
    Text.ne_of_pos_of_neg hc h.2.2.2.2]

theorem scan?_cons_of_ne (hc : c ≠ ':') : Scope.scan? (c :: r) = none :=
  Scope.scan?_of_head? (by simpa using hc)

/-- Where no scope keyword stands, the first character decides what the piece is. -/
theorem next_of_scan?_eq_none (h : Scope.scan? (c :: r) = none) :
    next selector c r =
      if c = '[' then (bracket selector '[' ']' r).map fun (_, rest) ↦ (other, rest)
      else if c = '\\' then .ok (other, r.drop 1)
      else if c = '.' ∨ c = '#' then
        match Identifier.scan? r with
        | some (raw, rest) => .ok (name raw, rest)
        | none => .ok (other, r)
      else .ok (other, r) := by
  rewrite [next, h]
  rfl

theorem next_of_isInert (hc : isInert c = true) : next selector c r = .ok (other, r) := by
  simp only [isInert, Bool.not_eq_true', Bool.or_eq_false_iff, beq_eq_false_iff_ne] at hc
  obtain ⟨⟨⟨⟨hcolon, hbracket⟩, hslash⟩, hdot⟩, hhash⟩ := hc
  simp [next_of_scan?_eq_none (scan?_cons_of_ne hcolon), hbracket, hslash, hdot, hhash]

theorem next_colon (h : Scope.scan? (':' :: r) = none) : next selector ':' r = .ok (other, r) := by
  simp [next_of_scan?_eq_none h]

theorem next_backslash : next selector '\\' r = .ok (other, r.drop 1) := by
  rw [next_of_scan?_eq_none (scan?_cons_of_ne (by decide))]
  rfl

theorem next_attribute :
    next selector '[' r =
      (bracket selector '[' ']' r).map fun (_, rest) ↦ (other, rest) := by
  rw [next_of_scan?_eq_none (scan?_cons_of_ne (by decide))]
  rfl

theorem next_mark (hc : c = '.' ∨ c = '#') :
    next selector c r =
      match Identifier.scan? r with
      | some (raw, rest) => .ok (name raw, rest)
      | none => .ok (other, r) := by
  rcases hc with rfl | rfl <;>
    (rw [next_of_scan?_eq_none (scan?_cons_of_ne (by decide))]; rfl)

theorem bracket_of_balanced {o c : Char} {t : Text} (hoc : o ≠ c) (h : Balanced o c t) :
    bracket selector o c (t ++ c :: r) = .ok (t, r) := by
  rw [bracket, splitAtClose_of_balanced hoc h]

theorem next_group {scope : Scope} {rest : Text}
    (h : Scope.scan? (c :: r) = some (scope, '(' :: rest)) :
    next selector c r =
      (bracket selector '(' ')' rest).map fun (inside, rest) ↦ (group scope inside, rest) := by
  rw [next, h]
  rfl

theorem next_switch {scope : Scope} {rest : Text} (h : Scope.scan? (c :: r) = some (scope, rest))
    (hrest : '(' ∉ rest.head?) : next selector c r = .ok (switch scope, rest) := by
  rw [next, h]
  split
  · next heq =>
    obtain ⟨-, rfl⟩ := Prod.mk.inj (Option.some.inj heq)
    simp at hrest
  · next heq =>
    obtain ⟨rfl, rfl⟩ := Prod.mk.inj (Option.some.inj heq)
    rfl
  · next heq => simp at heq

/-- **What the next piece can be**: a scope with or without a parenthesis, an attribute test, a name
behind its mark, or something that is passed over. -/
theorem next_cases (selector : Text) (c : Char) (r : Text) :
    (∃ scope rest, Scope.scan? (c :: r) = some (scope, '(' :: rest) ∧
      next selector c r =
        (bracket selector '(' ')' rest).map fun (inside, rest) ↦ (group scope inside, rest)) ∨
    (∃ scope rest, Scope.scan? (c :: r) = some (scope, rest) ∧
      next selector c r = .ok (switch scope, rest)) ∨
    (c = '[' ∧
      next selector c r = (bracket selector '[' ']' r).map fun (_, rest) ↦ (other, rest)) ∨
    (∃ raw rest, (c = '.' ∨ c = '#') ∧ Identifier.scan? r = some (raw, rest) ∧
      next selector c r = .ok (name raw, rest)) ∨
    ∃ rest, rest <:+ r ∧ next selector c r = .ok (other, rest) := by
  cases hscan : Scope.scan? (c :: r) with
  | some found =>
    obtain ⟨scope, rest⟩ := found
    by_cases hopen : '(' ∈ rest.head?
    · obtain ⟨rest, rfl⟩ := List.head?_eq_some_iff.1 hopen
      exact Or.inl ⟨scope, rest, rfl, next_group hscan⟩
    · exact Or.inr (Or.inl ⟨scope, rest, rfl, next_switch hscan hopen⟩)
  | none =>
    refine Or.inr (Or.inr ?_)
    by_cases hbracket : c = '['
    · subst hbracket
      exact Or.inl ⟨rfl, next_attribute⟩
    by_cases hslash : c = '\\'
    · subst hslash
      exact Or.inr (Or.inr ⟨_, List.drop_suffix 1 r, next_backslash⟩)
    by_cases hmark : c = '.' ∨ c = '#'
    · cases hname : Identifier.scan? r with
      | some found => exact Or.inr (Or.inl ⟨_, _, hmark, rfl, by rw [next_mark hmark, hname]⟩)
      | none => exact Or.inr (Or.inr ⟨r, List.suffix_rfl, by rw [next_mark hmark, hname]⟩)
    · refine Or.inr (Or.inr ⟨r, List.suffix_rfl, ?_⟩)
      rw [next_of_scan?_eq_none hscan, if_neg hbracket, if_neg hslash, if_neg hmark]

/-- The names that a piece lists, in the scope it is found in. -/
def names (scope : Scope) : Piece → Except Fault (List Text)
  | group .sheet inside => Selector.namesFrom inside .sheet inside
  | group .global _ => .ok []
  | switch _ => .ok []
  | name raw =>
    match scope with
    | .sheet => .ok [Identifier.unescape raw]
    | .global => .ok []
  | other => .ok []

theorem names_cases (scope : Scope) (piece : Piece) :
    (∃ inside, piece = group .sheet inside ∧
      piece.names scope = Selector.namesFrom inside .sheet inside) ∨
    (∃ raw, piece = name raw ∧ piece.names scope = .ok [Identifier.unescape raw]) ∨
    piece.names scope = .ok [] := by
  cases piece with
  | group scope' inside =>
    cases scope' with
    | sheet => exact Or.inl ⟨inside, rfl, rfl⟩
    | global => exact Or.inr (Or.inr rfl)
  | name raw =>
    cases scope with
    | sheet => exact Or.inr (Or.inl ⟨raw, rfl, rfl⟩)
    | global => exact Or.inr (Or.inr rfl)
  | switch _ | other => exact Or.inr (Or.inr rfl)

/-- The scope behind a piece that is found in the given scope. -/
def scopeAfter (scope : Scope) : Piece → Scope
  | switch scope' => scope'
  | _ => scope

end Piece

/-! ### The names of a text -/

namespace Selector

variable {selector t r : Text} {scope : Scope} {c : Char}

theorem namesFrom_nil : namesFrom selector scope [] = .ok [] := by rw [namesFrom]

/-- **One step of the scanner.** -/
theorem namesFrom_cons :
    namesFrom selector scope (c :: r) = do
      let (piece, rest) ← Piece.next selector c r
      let first ← piece.names scope
      let others ← namesFrom selector (piece.scopeAfter scope) rest
      return first ++ others := by
  have hid (rest : Text) (scope : Scope) :
      (namesFrom selector scope rest >>= fun others ↦ .ok ([] ++ others)) =
        namesFrom selector scope rest := by
    cases namesFrom selector scope rest <;> rfl
  rw [namesFrom]
  split
  · next h => rw [h]; rfl
  · next h => rw [h]; rfl
  · next rest h => rw [h]; exact (hid rest scope).symm
  · next scope' rest h => rw [h]; exact (hid rest scope').symm
  · next raw rest h =>
    rw [h]
    cases scope with
    | sheet => rfl
    | global => rfl
  · next rest h => rw [h]; exact (hid rest scope).symm

/-- A piece without names that leaves the scope as it is may be skipped. -/
theorem namesFrom_of_other (h : Piece.next selector c r = .ok (.other, t)) :
    namesFrom selector scope (c :: r) = namesFrom selector scope t := by
  rw [namesFrom_cons, h]
  show (do let others ← namesFrom selector scope t; return [] ++ others) = _
  cases namesFrom selector scope t <;> rfl

theorem namesFrom_append_of_isInert (ht : ∀ c ∈ t, Piece.isInert c = true) :
    namesFrom selector scope (t ++ r) = namesFrom selector scope r := by
  induction t with
  | nil => rfl
  | cons c t ih =>
    obtain ⟨hc, ht⟩ := List.forall_mem_cons.1 ht
    rw [List.cons_append, namesFrom_of_other (Piece.next_of_isInert hc), ih ht]

/-! ### Selectors between commas -/

/-- The number of open brackets behind a character, with `depth` of them open in front of it. -/
def depthAfter (depth : Nat) (c : Char) : Nat :=
  if c = '(' ∨ c = '[' then depth + 1 else if c = ')' ∨ c = ']' then depth - 1 else depth

theorem splitFrom_nil (depth : Nat) : splitFrom depth [] = [[]] := by cases depth <;> rfl

/-- **One step of the splitter.** -/
theorem splitFrom_cons (depth : Nat) :
    splitFrom depth (c :: r) =
      if depth = 0 ∧ c = ',' then [] :: splitFrom 0 r
      else (splitFrom (depthAfter depth c) r).modifyHead (c :: ·) := by
  split
  · next h =>
    obtain ⟨rfl, rfl⟩ := h
    rfl
  · next h =>
    rw [splitFrom]
    · rfl
    · rintro hdepth rfl
      exact h ⟨hdepth, rfl⟩

theorem splitFrom_ne_nil (depth : Nat) (t : Text) : splitFrom depth t ≠ [] := by
  induction t generalizing depth with
  | nil => simp [splitFrom_nil]
  | cons c r ih =>
    rw [splitFrom_cons]
    split
    · simp
    · simpa using ih _

/-- **The parts between commas are parts of the text**, and the first one begins it. -/
theorem prefix_and_infix_of_splitFrom (depth : Nat) (t : Text) :
    (∀ part ∈ (splitFrom depth t).head?, part <+: t) ∧
      ∀ part ∈ splitFrom depth t, part <:+: t := by
  induction t generalizing depth with
  | nil => simp [splitFrom_nil]
  | cons c r ih =>
    have hbehind {part : Text} (h : part <:+: r) : part <:+: c :: r :=
      h.trans (List.suffix_cons c r).isInfix
    rw [splitFrom_cons]
    split
    · refine ⟨by simp, List.forall_mem_cons.2 ⟨List.nil_infix, fun part hpart ↦ ?_⟩⟩
      exact hbehind ((ih 0).2 part hpart)
    · obtain ⟨hhead, hparts⟩ := ih (depthAfter depth c)
      cases hsplit : splitFrom (depthAfter depth c) r with
      | nil => simp
      | cons head parts =>
        rw [hsplit] at hhead hparts
        have hfirst : c :: head <+: c :: r := List.cons_prefix_cons.2 ⟨rfl, hhead head rfl⟩
        refine ⟨by simpa using hfirst, List.forall_mem_cons.2 ⟨hfirst.isInfix, fun part hpart ↦ ?_⟩⟩
        exact hbehind (hparts part (List.mem_cons_of_mem head hpart))

/-- A bracket of either kind. -/
def isBracket (c : Char) : Bool := c == '(' || c == ')' || c == '[' || c == ']'

theorem isBracket_of_class {p : Char → Bool}
    (h : p '(' = false ∧ p ')' = false ∧ p '[' = false ∧ p ']' = false) (hc : p c = true) :
    isBracket c = false := by
  simp [isBracket, Text.ne_of_pos_of_neg hc h.1, Text.ne_of_pos_of_neg hc h.2.1,
    Text.ne_of_pos_of_neg hc h.2.2.1, Text.ne_of_pos_of_neg hc h.2.2.2]

/-- The splitter passes over the text without a split, and is at the same depth behind it. -/
def Passes (depth : Nat) (t : Text) : Prop :=
  ∀ r, splitFrom depth (t ++ r) = (splitFrom depth r).modifyHead (t ++ ·)

theorem passes_nil (depth : Nat) : Passes depth [] := fun _ ↦ (congrFun List.modifyHead_id _).symm

theorem Passes.append {depth : Nat} {s t : Text} (hs : Passes depth s) (ht : Passes depth t) :
    Passes depth (s ++ t) := by
  intro r
  rw [List.append_assoc, hs, ht, List.modifyHead_modifyHead]
  congr 1
  funext u
  exact (List.append_assoc s t u).symm

theorem passes_singleton {depth : Nat} {c : Char} (hc : isBracket c = false)
    (hcomma : c = ',' → 0 < depth) : Passes depth [c] := by
  intro r
  simp only [isBracket, Bool.or_eq_false_iff, beq_eq_false_iff_ne] at hc
  have hdepth : depthAfter depth c = depth := by simp [depthAfter, hc]
  rw [List.singleton_append, splitFrom_cons, if_neg, hdepth]
  · rfl
  · rintro ⟨rfl, hc⟩
    exact absurd (hcomma hc) (by decide)

theorem passes_of_forall {depth : Nat} {t : Text}
    (ht : ∀ c ∈ t, isBracket c = false ∧ (c = ',' → 0 < depth)) : Passes depth t := by
  induction t with
  | nil => exact passes_nil depth
  | cons c t ih =>
    obtain ⟨⟨hc, hcomma⟩, ht⟩ := List.forall_mem_cons.1 ht
    exact (passes_singleton hc hcomma).append (ih ht)

/-- A class of characters without brackets and commas is passed over. -/
theorem passes_of_class {depth : Nat} {p : Char → Bool}
    (h : p '(' = false ∧ p ')' = false ∧ p '[' = false ∧ p ']' = false ∧ p ',' = false) {t : Text}
    (ht : ∀ c ∈ t, p c = true) : Passes depth t := by
  obtain ⟨hopen, hclose, hopen', hclose', hcomma⟩ := h
  refine passes_of_forall fun c hc ↦ ⟨?_, fun heq ↦ absurd heq ?_⟩
  · exact isBracket_of_class ⟨hopen, hclose, hopen', hclose'⟩ (ht c hc)
  · exact Text.ne_of_pos_of_neg (ht c hc) hcomma

/-- Inside a bracket the depth is one more, whatever kind of bracket closes it. -/
theorem Passes.enclose {depth : Nat} {o c : Char} {t : Text} (ho : o = '(' ∨ o = '[')
    (hc : c = ')' ∨ c = ']') (ht : Passes (depth + 1) t) : Passes depth (o :: (t ++ [c])) := by
  intro r
  have hopen : depthAfter depth o = depth + 1 := by simp [depthAfter, ho]
  have hclose : depthAfter (depth + 1) c = depth := by
    rcases hc with rfl | rfl <;> rfl
  have hcomma : o ≠ ',' ∧ c ≠ ',' := by
    rcases ho with rfl | rfl <;> rcases hc with rfl | rfl <;> decide
  rw [List.cons_append, splitFrom_cons, if_neg (fun h ↦ hcomma.1 h.2), hopen,
    List.append_assoc, ht, List.singleton_append, splitFrom_cons,
    if_neg (fun h ↦ hcomma.2 h.2), hclose, List.modifyHead_modifyHead, List.modifyHead_modifyHead]
  congr 1
  funext u
  simp

/-- The parts of a text export what the text exports. -/
theorem listNames_eq : listNames t = collect (fun part ↦ names part.trim) (splitFrom 0 t) := by
  have hnames : names [] = .ok [] := namesFrom_nil
  have hskip (parts : List Text) :
      collect names (parts.filter (· ≠ [])) = collect names parts := by
    induction parts with
    | nil => rfl
    | cons part parts ih =>
      by_cases hpart : part = []
      · subst hpart
        rw [collect_cons, hnames, List.filter_cons_of_neg (by simp), ih]
        show _ = (do let others ← collect names parts; return [] ++ others)
        cases collect names parts <;> rfl
      · rw [List.filter_cons_of_pos (by simpa using hpart), collect_cons, collect_cons, ih]
  rw [← collect_map, ← hskip, collect_eq_mapM]
  rfl

end Selector

end CssTypings.Stylesheet

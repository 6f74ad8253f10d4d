import CssTypings.Proofs.Stylesheet.Pieces

/-!
# Elements of selectors

A selector as a list of elements, the text it is written as (`Element.renderAll`), and a reading of
it by recursion on the elements: in order, with the scope that the switches in front leave, and
without any look at the text (`Element.effectAll`).

Elements are well-formed when no word at the end of one is gone on with by the next
(`Element.WellFormedAll`). Two things hold of their text besides: parentheses are balanced, so that
a group ends at its own parenthesis (`Element.balanced_renderAll`), and commas inside brackets do
not split it (`Element.passes_renderAll`).
-/

namespace CssTypings.Stylesheet

open Selector (isBracket Passes passes_nil passes_singleton passes_of_forall passes_of_class)

/-! ### Elements -/

/-- The characters that have a meaning of their own in a selector. -/
def specials : List Char := ['.', '#', ':', '[', ']', '(', ')', ',', '\\']

/-- The name of a pseudo-class that does not begin with a scope keyword. -/
structure PseudoClass where
  /-- What stands behind the colon. -/
  name : Ident
  /-- It is neither a scope keyword nor one that goes on with a hyphen. -/
  noScope : ∀ scope : Scope,
    ':' :: name.text ≠ scope.keyword ∧ ¬ scope.keyword ++ ['-'] <+: ':' :: name.text

/-- An element of a selector. -/
inductive Element where
  /-- A class or an id. -/
  | name (mark : Char) (isMark : mark = '.' ∨ mark = '#') (ident : Ident)
  /-- A character without a meaning of its own. -/
  | ordinary (c : Char) (isOrdinary : c ∉ specials)
  /-- A comma inside parentheses. -/
  | comma
  /-- An attribute test. -/
  | test (text : Text) (isPlain : ∀ c ∈ text, isBracket c = false)
  /-- A scope keyword alone. -/
  | switch (scope : Scope)
  /-- A scope keyword with elements in parentheses. -/
  | group (scope : Scope) (inner : List Element)
  /-- A pseudo-class. -/
  | pseudo (pseudoClass : PseudoClass)
  /-- A pseudo-class with elements in parentheses. -/
  | call (pseudoClass : PseudoClass) (inner : List Element)

namespace Element

mutual

/-- An element as it is written. -/
def render : Element → Text
  | name mark _ ident => mark :: ident.text
  | ordinary c _ => [c]
  | comma => [',']
  | test text _ => '[' :: (text ++ [']'])
  | switch scope => scope.keyword
  | group scope inner => scope.keyword ++ '(' :: (renderAll inner ++ [')'])
  | pseudo pseudoClass => ':' :: pseudoClass.name.text
  | call pseudoClass inner => ':' :: (pseudoClass.name.text ++ '(' :: (renderAll inner ++ [')']))

/-- Elements as they are written, one after the other. -/
def renderAll : List Element → Text
  | [] => []
  | element :: elements => element.render ++ renderAll elements

end

/-! ### The reading -/

mutual

/-- The names that an element exports in the given scope, and the scope behind it. -/
def effect (scope : Scope) : Element → List Text × Scope
  | name _ _ ident =>
    match scope with
    | .sheet => ([ident.text], scope)
    | .global => ([], scope)
  | switch scope' => ([], scope')
  | group .sheet inner => ((effectAll .sheet inner).1, scope)
  | group .global _ => ([], scope)
  | call _ inner => effectAll scope inner
  | ordinary .. => ([], scope)
  | comma => ([], scope)
  | test .. => ([], scope)
  | pseudo _ => ([], scope)

/-- The names that elements export when they begin in the given scope, in order and with
repetitions, and the scope behind them. -/
def effectAll (scope : Scope) : List Element → List Text × Scope
  | [] => ([], scope)
  | element :: elements =>
    ((element.effect scope).1 ++ (effectAll (element.effect scope).2 elements).1,
      (effectAll (element.effect scope).2 elements).2)

end

/-! ### Well-formed elements -/

/-- The text does not go on with a word that stands in front of it. A blank, for one, never does. -/
def Stops (rest : Text) : Prop :=
  ∀ c ∈ rest.head?, Text.isWordOrHyphen c = false ∧ c ≠ '\\' ∧ c ≠ '('

/-- The element ends in a word, which the text behind could go on with. -/
def IsOpen : Element → Prop
  | name .. => True
  | switch _ => True
  | pseudo _ => True
  | _ => False

mutual

/-- The elements inside are well-formed. -/
def WellFormed : Element → Prop
  | group _ inner => WellFormedAll inner
  | call _ inner => WellFormedAll inner
  | _ => True

/-- No word at the end of an element is gone on with by the next one. -/
def WellFormedAll : List Element → Prop
  | [] => True
  | element :: elements =>
    element.WellFormed ∧ (element.IsOpen → Stops (renderAll elements)) ∧ WellFormedAll elements

end

/-! ### Where a word ends -/

theorem stops_nil : Stops [] := by simp [Stops]

theorem stops_cons {c : Char} {t : Text} :
    Stops (c :: t) ↔ Text.isWordOrHyphen c = false ∧ c ≠ '\\' ∧ c ≠ '(' := by
  simp [Stops]

theorem stops_close (t : Text) : Stops (')' :: t) := stops_cons.2 (by decide)

theorem Stops.append {s t : Text} (hs : Stops s) (ht : Stops t) : Stops (s ++ t) := by
  cases s with
  | nil => exact ht
  | cons c s => exact stops_cons.2 (stops_cons.1 hs)

theorem Stops.mono {s t : Text} (ht : Stops t) (hst : s <+: t) : Stops s :=
  fun c hc ↦ ht c (Text.mem_head?_mono hst hc)

theorem Stops.endsName {rest : Text} (h : Stops rest) : Identifier.EndsName rest :=
  fun c hc ↦ ⟨(h c hc).1, (h c hc).2.1⟩

theorem Stops.isWord_head {rest : Text} (h : Stops rest) :
    ∀ c ∈ rest.head?, Text.isWord c = false := by
  intro c hc
  have := (h c hc).1
  rw [Text.isWordOrHyphen, Bool.or_eq_false_iff] at this
  exact this.1

end Element

/-! ### Pseudo-classes are no scope keywords -/

/-- A keyword is a colon and a word. -/
theorem Scope.exists_keyword_eq (scope : Scope) :
    ∃ word, scope.keyword = ':' :: word ∧ ∀ c ∈ word, Text.isWord c = true := by
  cases scope with
  | sheet => exact ⟨_, keyword_sheet, List.all_eq_true.1 (by decide)⟩
  | global => exact ⟨_, keyword_global, List.all_eq_true.1 (by decide)⟩

namespace Scope

/-- The name behind a colon is read as the keyword of a scope: it is the keyword, or the keyword and
a hyphen begin it. -/
def IsReadIn (scope : Scope) (name : Text) : Prop :=
  ':' :: name = scope.keyword ∨ scope.keyword ++ ['-'] <+: ':' :: name

instance (scope : Scope) (name : Text) : Decidable (scope.IsReadIn name) :=
  inferInstanceAs (Decidable (_ ∨ _))

/-- **What is not read as a keyword is not taken for one**, whatever follows it but a word
character. Of the two texts one begins with the other: either the keyword, and then a word character
goes on with it, or the name, and then the rest would begin with a word character. -/
theorem scan?_colon_eq_none {name rest : Text}
    (hname : ∀ c ∈ name, Text.isWordOrHyphen c = true) (hread : ∀ scope : Scope, ¬ scope.IsReadIn name)
    (hrest : ∀ c ∈ rest.head?, Text.isWord c = false) : scan? (':' :: (name ++ rest)) = none := by
  have hnone (scope : Scope) : scope.after? (':' :: (name ++ rest)) = none := by
    obtain ⟨hne, hhyphen⟩ := not_or.1 (hread scope)
    obtain ⟨word, hkeyword, hword⟩ := scope.exists_keyword_eq
    rw [after?]
    cases h : Text.after? scope.keyword (':' :: (name ++ rest)) with
    | none => rfl
    | some r =>
      have heq := Text.eq_append_of_after? h
      rw [← List.cons_append] at heq
      rcases List.append_eq_append_iff.1 heq with ⟨v, hv, hrest'⟩ | ⟨u, hu, hr⟩
      · cases v with
        | nil => exact absurd (by rw [hv, List.append_nil]) hne
        | cons c v =>
          have hc : c ∈ word := by
            rw [hkeyword, List.cons_append] at hv
            rw [(List.cons.inj hv).2]
            simp
          rw [hrest', List.cons_append] at hrest
          exact absurd (hword c hc) (by rw [hrest c rfl]; decide)
      · cases u with
        | nil => exact absurd (by rw [hu, List.append_nil]) hne
        | cons c u =>
          have hc : c ∈ name := by
            rw [hkeyword, List.cons_append] at hu
            rw [(List.cons.inj hu).2]
            simp
          have hnot : c ≠ '-' := by
            rintro rfl
            exact hhyphen ⟨u, by rw [hu, List.append_assoc]; rfl⟩
          have hisWord : Text.isWord c = true := by
            have := hname c hc
            rwa [Text.isWordOrHyphen, Bool.or_eq_true, or_iff_left (by simpa using hnot)] at this
          rw [hr, List.cons_append]
          simp [hisWord]
  rw [scan?, hnone, hnone]
  rfl

end Scope

theorem PseudoClass.scan?_eq_none (pseudoClass : PseudoClass) {rest : Text}
    (hrest : ∀ c ∈ rest.head?, Text.isWord c = false) :
    Scope.scan? (':' :: (pseudoClass.name.text ++ rest)) = none :=
  Scope.scan?_colon_eq_none (fun _ ↦ pseudoClass.name.isWordOrHyphen_of_mem)
    (fun scope ↦ not_or.2 (pseudoClass.noScope scope)) hrest

namespace Element

/-! ### Parentheses are balanced -/

theorem ne_of_not_mem_specials {c d : Char} (hc : c ∉ specials) (hd : d ∈ specials) : c ≠ d := by
  rintro rfl
  exact hc hd

theorem balanced_parens_of_class {p : Char → Bool} (h : p '(' = false ∧ p ')' = false) {t : Text}
    (ht : ∀ c ∈ t, p c = true) : Balanced '(' ')' t :=
  balanced_of_not_mem (fun hc ↦ Text.ne_of_pos_of_neg (ht _ hc) h.1 rfl)
    fun hc ↦ Text.ne_of_pos_of_neg (ht _ hc) h.2 rfl

theorem balanced_ident (ident : Ident) : Balanced '(' ')' ident.text :=
  balanced_parens_of_class (by decide) fun _ ↦ ident.isWordOrHyphen_of_mem

theorem balanced_singleton {c : Char} (hopen : c ≠ '(') (hclose : c ≠ ')') :
    Balanced '(' ')' [c] :=
  balanced_of_not_mem (by simpa using hopen.symm) (by simpa using hclose.symm)

theorem balanced_keyword (scope : Scope) : Balanced '(' ')' scope.keyword :=
  balanced_of_not_mem (by cases scope <;> decide) (by cases scope <;> decide)

mutual

theorem balanced_render : ∀ element : Element, Balanced '(' ')' element.render
  | name mark isMark ident => by
    have hmark : Balanced '(' ')' [mark] := by
      rcases isMark with rfl | rfl <;> exact balanced_singleton (by decide) (by decide)
    exact hmark.append (balanced_ident ident)
  | ordinary c isOrdinary =>
    balanced_singleton (ne_of_not_mem_specials isOrdinary (by decide))
      (ne_of_not_mem_specials isOrdinary (by decide))
  | comma => balanced_singleton (by decide) (by decide)
  | test text isPlain => by
    have htext : Balanced '(' ')' text :=
      balanced_of_not_mem (fun hc ↦ absurd (isPlain _ hc) (by decide))
        fun hc ↦ absurd (isPlain _ hc) (by decide)
    exact (balanced_singleton (c := '[') (by decide) (by decide)).append
      (htext.append (balanced_singleton (by decide) (by decide)))
  | switch scope => balanced_keyword scope
  | group scope inner =>
    (balanced_keyword scope).append ((balanced_renderAll inner).enclose (by decide))
  | pseudo pseudoClass =>
    (balanced_singleton (c := ':') (by decide) (by decide)).append
      (balanced_ident pseudoClass.name)
  | call pseudoClass inner =>
    (balanced_singleton (c := ':') (by decide) (by decide)).append
      ((balanced_ident pseudoClass.name).append ((balanced_renderAll inner).enclose (by decide)))

theorem balanced_renderAll : ∀ elements : List Element, Balanced '(' ')' (renderAll elements)
  | [] => balanced_nil
  | element :: elements => element.balanced_render.append (balanced_renderAll elements)

end

/-! ### Commas inside brackets do not split -/

theorem passes_ident (depth : Nat) (ident : Ident) : Passes depth ident.text :=
  passes_of_class (by decide) fun _ ↦ ident.isWordOrHyphen_of_mem

theorem passes_keyword (depth : Nat) (scope : Scope) : Passes depth scope.keyword := by
  have hall : scope.keyword.all (fun c ↦ !isBracket c && c != ',') = true := by
    cases scope <;> decide
  refine passes_of_forall fun c hc ↦ ?_
  have h : isBracket c = false ∧ c ≠ ',' := by simpa using List.all_eq_true.1 hall c hc
  exact ⟨h.1, fun hcomma ↦ absurd hcomma h.2⟩

mutual

theorem passes_render : ∀ (element : Element) {depth : Nat}, (element = comma → 0 < depth) →
    Passes depth element.render
  | name mark isMark ident, depth, _ => by
    have hmark : Passes depth [mark] := by
      rcases isMark with rfl | rfl <;> exact passes_singleton (by decide) (by simp)
    exact hmark.append (passes_ident depth ident)
  | ordinary c isOrdinary, depth, _ => by
    have hclass : ∀ d ∈ [c], (!specials.contains d) = true := by simpa using isOrdinary
    exact passes_of_class (by decide) hclass
  | comma, depth, hdepth => passes_singleton (by decide) fun _ ↦ hdepth rfl
  | test text isPlain, depth, _ =>
    Passes.enclose (Or.inr rfl) (Or.inr rfl)
      (passes_of_forall fun c hc ↦ ⟨isPlain c hc, fun _ ↦ Nat.succ_pos depth⟩)
  | switch scope, depth, _ => passes_keyword depth scope
  | group scope inner, depth, _ =>
    (passes_keyword depth scope).append
      ((passes_renderAll inner fun _ ↦ Nat.succ_pos depth).enclose (Or.inl rfl) (Or.inl rfl))
  | pseudo pseudoClass, depth, _ =>
    (passes_singleton (c := ':') (by decide) (by simp)).append
      (passes_ident depth pseudoClass.name)
  | call pseudoClass inner, depth, _ =>
    (passes_singleton (c := ':') (by decide) (by simp)).append
      ((passes_ident depth pseudoClass.name).append
        ((passes_renderAll inner fun _ ↦ Nat.succ_pos depth).enclose (Or.inl rfl) (Or.inl rfl)))

theorem passes_renderAll : ∀ (elements : List Element) {depth : Nat},
    (comma ∈ elements → 0 < depth) → Passes depth (renderAll elements)
  | [], depth, _ => passes_nil depth
  | element :: elements, _, h =>
    (element.passes_render fun heq ↦ h (heq ▸ List.mem_cons_self)).append
      (passes_renderAll elements fun hmem ↦ h (List.mem_cons_of_mem _ hmem))

end

end Element

end CssTypings.Stylesheet

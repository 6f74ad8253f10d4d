import CssTypings.Proofs.Stylesheet.Elements

/-!
# Scoping in selectors

The main statement, `listNames_render`, is that the scanner lists exactly the names that the reading
of elements gives, selector by selector.

* Each selector begins in the scope of the sheet, and a bare switch holds for the rest of the text
  that is scanned together: to the end of the selector, or of the scope group it stands in. The
  parentheses of another pseudo-class do not end it, since they are passed over like characters.
* A group `:local(…)` is read in the scope of the sheet, whatever scope it stands in, and a group
  `:global(…)` lists nothing. Neither changes the scope behind it.

The scanner is followed through one element after the other (`Element.reads_renderAll`), and what it
does with an element does not depend on the text behind, as long as that does not go on with the
element. The blanks around a selector are elements as well, so that a trimmed selector is again one.
-/

namespace CssTypings.Stylesheet

namespace Element

/-! ### The scanner reads elements -/

section

open Selector

/-- The scanner reads a text that stands in front of any rest: it lists the names, and goes on in
the scope behind the text. -/
def Reads (selector : Text) (scope : Scope) (t : Text) (effect : List Text × Scope) (rest : Text) :
    Prop :=
  namesFrom selector scope (t ++ rest) =
    (namesFrom selector effect.2 rest).map (effect.1 ++ ·)

variable {selector rest : Text} {scope : Scope}

theorem Reads.append {s t : Text} {e f : List Text × Scope}
    (hs : Reads selector scope s e (t ++ rest)) (ht : Reads selector e.2 t f rest) :
    Reads selector scope (s ++ t) (e.1 ++ f.1, f.2) rest := by
  rw [Reads] at *
  rw [List.append_assoc, hs, ht]
  cases namesFrom selector f.2 rest with
  | error fault => rfl
  | ok names => exact congrArg Except.ok (List.append_assoc _ _ _).symm

theorem reads_of_eq {t : Text}
    (h : namesFrom selector scope (t ++ rest) = namesFrom selector scope rest) :
    Reads selector scope t ([], scope) rest := by
  rw [Reads, h]
  cases namesFrom selector scope rest <;> rfl

/-- A piece at the start of a text lists its own names. -/
theorem reads_of_next {c : Char} {r : Text} {piece : Piece} {names : List Text}
    (hnext : Piece.next selector c (r ++ rest) = .ok (piece, rest))
    (hnames : piece.names scope = .ok names) :
    Reads selector scope (c :: r) (names, piece.scopeAfter scope) rest := by
  rw [Reads, List.cons_append, namesFrom_cons, hnext]
  show (do let first ← piece.names scope; _) = _
  rw [hnames]
  cases namesFrom selector (piece.scopeAfter scope) rest <;> rfl

theorem reads_ident (ident : Ident) : Reads selector scope ident.text ([], scope) rest :=
  reads_of_eq (namesFrom_append_of_isInert fun _ hc ↦
    Piece.isInert_of_class (by decide) (ident.isWordOrHyphen_of_mem hc))

theorem reads_singleton {c : Char} (hc : Piece.isInert c = true) :
    Reads selector scope [c] ([], scope) rest :=
  reads_of_eq (namesFrom_append_of_isInert (by simpa using hc))

theorem reads_colon (pseudoClass : PseudoClass) (hrest : ∀ c ∈ rest.head?, Text.isWord c = false) :
    Reads selector scope (':' :: pseudoClass.name.text) ([], scope) rest := by
  have hcolon : Reads selector scope [':'] ([], scope) (pseudoClass.name.text ++ rest) :=
    reads_of_eq (namesFrom_of_other (Piece.next_colon (pseudoClass.scan?_eq_none hrest)))
  exact hcolon.append (reads_ident pseudoClass.name)

mutual

/-- **The scanner reads an element.** -/
theorem reads_render : ∀ (element : Element), element.WellFormed → ∀ {selector rest : Text}
    {scope : Scope}, (element.IsOpen → Stops rest) →
    Reads selector scope element.render (element.effect scope) rest
  | name mark isMark ident, _, selector, rest, scope, hrest => by
    have hscan := ident.scan?_text_append (hrest trivial).endsName
    have hnext : Piece.next selector mark (ident.text ++ rest) = .ok (.name ident.text, rest) := by
      rw [Piece.next_mark isMark, hscan]
    cases scope with
    | sheet =>
      refine reads_of_next hnext ?_
      rw [Piece.names, ident.unescape_text]
    | global => exact reads_of_next hnext rfl
  | ordinary c isOrdinary, _, selector, rest, scope, _ => by
    have hclass : (!specials.contains c) = true := by simpa using isOrdinary
    exact reads_singleton (Piece.isInert_of_class (p := (!specials.contains ·)) (by decide) hclass)
  | comma, _, selector, rest, scope, _ => reads_singleton (by decide)
  | test text isPlain, _, selector, rest, scope, _ => by
    have hbalanced : Balanced '[' ']' text :=
      balanced_of_not_mem (fun hc ↦ absurd (isPlain _ hc) (by decide))
        fun hc ↦ absurd (isPlain _ hc) (by decide)
    have hnext : Piece.next selector '[' (text ++ [']'] ++ rest) = .ok (.other, rest) := by
      rw [Piece.next_attribute, List.append_assoc, List.singleton_append,
        Piece.bracket_of_balanced (by decide) hbalanced]
      rfl
    exact reads_of_next hnext rfl
  | switch scope', _, selector, rest, scope, hrest => by
    have hscan := scope'.scan?_keyword_append (hrest trivial).isWord_head
    obtain ⟨word, hkeyword, -⟩ := scope'.exists_keyword_eq
    rw [hkeyword, List.cons_append] at hscan
    rw [render, hkeyword]
    refine reads_of_next (Piece.next_switch hscan fun h ↦ ?_) rfl
    exact (hrest trivial _ h).2.2 rfl
  | group scope' inner, hinner, selector, rest, scope, _ => by
    have hparen : ∀ c ∈ ('(' :: (renderAll inner ++ ')' :: rest)).head?, Text.isWord c = false := by
      simp
      decide
    have hscan := scope'.scan?_keyword_append hparen
    obtain ⟨word, hkeyword, -⟩ := scope'.exists_keyword_eq
    rw [hkeyword, List.cons_append] at hscan
    have hnext : Piece.next selector ':' (word ++ '(' :: (renderAll inner ++ [')']) ++ rest) =
        .ok (.group scope' (renderAll inner), rest) := by
      rw [List.append_assoc, List.cons_append, List.append_assoc, List.singleton_append,
        Piece.next_group hscan, Piece.bracket_of_balanced (by decide) (balanced_renderAll inner)]
      rfl
    rw [render, hkeyword]
    cases scope' with
    | sheet =>
      -- what is inside is a text of its own, with nothing behind it
      have hread : Reads (renderAll inner) .sheet (renderAll inner) (effectAll .sheet inner) [] :=
        reads_renderAll inner hinner stops_nil
      refine reads_of_next hnext ?_
      rw [Reads, List.append_nil, namesFrom_nil] at hread
      rw [Piece.names, hread]
      exact congrArg Except.ok (List.append_nil _)
    | global => exact reads_of_next hnext rfl
  | pseudo pseudoClass, _, selector, rest, scope, hrest =>
    reads_colon pseudoClass (hrest trivial).isWord_head
  | call pseudoClass inner, hinner, selector, rest, scope, _ => by
    -- the parentheses are passed over, so the scope behind them is the one that is reached inside
    have hinside : Reads selector scope (renderAll inner ++ [')'])
        ((effectAll scope inner).1 ++ [], (effectAll scope inner).2) rest :=
      (reads_renderAll inner hinner (stops_close rest)).append (reads_singleton (by decide))
    have hopen : Reads selector scope ['('] ([], scope) (renderAll inner ++ [')'] ++ rest) :=
      reads_singleton (by decide)
    have hcolon : Reads selector scope (':' :: pseudoClass.name.text) ([], scope)
        (['('] ++ (renderAll inner ++ [')']) ++ rest) :=
      reads_colon pseudoClass (by simp; decide)
    have hall := hcolon.append (hopen.append hinside)
    simp only [List.nil_append, List.append_nil] at hall
    exact hall

/-- **The scanner reads elements**, as long as the text behind them does not go on with the last
one. -/
theorem reads_renderAll : ∀ (elements : List Element), WellFormedAll elements →
    ∀ {selector rest : Text} {scope : Scope}, Stops rest →
    Reads selector scope (renderAll elements) (effectAll scope elements) rest
  | [], _, _, _, _, _ => reads_of_eq rfl
  | element :: elements, h, _, _, _, hrest =>
    (reads_render element h.1 fun hopen ↦ (h.2.1 hopen).append hrest).append
      (reads_renderAll elements h.2.2 hrest)

end

end

/-! ### Blanks around a selector -/

/-- The element is a blank. -/
def isBlank : Element → Bool
  | ordinary c _ => Text.isBlank c
  | _ => false

/-- Elements without the blanks at the end. -/
def trimRight : List Element → List Element
  | [] => []
  | element :: elements =>
    if element.isBlank = true ∧ trimRight elements = [] then []
    else element :: trimRight elements

variable {element : Element} {scope : Scope}

theorem render_of_isBlank (h : element.isBlank = true) :
    ∀ c ∈ element.render, Text.isBlank c = true := by
  cases element with
  | ordinary c isOrdinary => simpa [render, isBlank] using h
  | _ => exact absurd h (by simp [isBlank])

theorem effect_of_isBlank (h : element.isBlank = true) : element.effect scope = ([], scope) := by
  cases element with
  | ordinary c isOrdinary => rfl
  | _ => exact absurd h (by simp [isBlank])

theorem render_ne_nil (element : Element) : element.render ≠ [] := by
  cases element with
  | switch scope | group scope inner =>
    obtain ⟨word, hkeyword, -⟩ := scope.exists_keyword_eq
    simp [render, hkeyword]
  | _ => simp [render]

theorem renderAll_eq_nil_iff {elements : List Element} :
    renderAll elements = [] ↔ elements = [] := by
  cases elements with
  | nil => simp [renderAll]
  | cons element elements => simp [renderAll, element.render_ne_nil]

theorem head?_render (h : element.isBlank = false) :
    ∀ c ∈ element.render.head?, Text.isBlank c = false := by
  cases element with
  | name mark isMark ident => rcases isMark with rfl | rfl <;> (simp [render]; decide)
  | ordinary c isOrdinary => simpa [render, isBlank] using h
  | switch scope | group scope inner =>
    obtain ⟨word, hkeyword, -⟩ := scope.exists_keyword_eq
    simp [render, hkeyword]
    decide
  | _ => simp [render]; decide

theorem getLast?_cons_ident {c : Char} (ident : Ident) :
    ∀ d ∈ (c :: ident.text).getLast?, Text.isBlank d = false := by
  intro d hd
  rw [List.getLast?_cons_of_ne_nil ident.text_ne_nil] at hd
  exact Text.not_isBlank_of_isWordOrHyphen (ident.isWordOrHyphen_of_mem (List.mem_of_getLast? hd))

theorem getLast?_render (h : element.isBlank = false) :
    ∀ c ∈ element.render.getLast?, Text.isBlank c = false := by
  have hlast {d : Char} (hd : Text.isBlank d = false) (t : Text) :
      ∀ c ∈ (t ++ [d]).getLast?, Text.isBlank c = false := by
    simpa using hd
  cases element with
  | name mark isMark ident => exact getLast?_cons_ident ident
  | ordinary c isOrdinary => simpa [render, isBlank] using h
  | switch scope =>
    have hall : scope.keyword.all (!Text.isBlank ·) = true := by cases scope <;> decide
    exact fun c hc ↦ by simpa using List.all_eq_true.1 hall c (List.mem_of_getLast? hc)
  | pseudo pseudoClass => exact getLast?_cons_ident pseudoClass.name
  | comma => simp [render]; decide
  | test text isPlain => exact hlast (by decide) ('[' :: text)
  | group scope inner =>
    rw [render, ← List.cons_append, ← List.append_assoc]
    exact hlast (by decide) _
  | call pseudoClass inner =>
    have heq : render (call pseudoClass inner) =
        (':' :: pseudoClass.name.text ++ '(' :: renderAll inner) ++ [')'] := by simp [render]
    rw [heq]
    exact hlast (by decide) _

theorem renderAll_dropWhile (elements : List Element) :
    renderAll (elements.dropWhile isBlank) = (renderAll elements).trimLeft := by
  induction elements with
  | nil => rfl
  | cons element elements ih =>
    by_cases h : element.isBlank = true
    · rw [List.dropWhile_cons_of_pos h, ih, renderAll,
        Text.trimLeft_append_of_isBlank (render_of_isBlank h)]
    · rw [List.dropWhile_cons_of_neg h, renderAll]
      have hhead := head?_render (by simpa using h)
      cases ht : element.render with
      | nil => exact absurd ht element.render_ne_nil
      | cons c t =>
        rw [ht] at hhead
        rw [List.cons_append, Text.trimLeft_cons_of_not_isBlank (hhead c rfl)]

theorem effectAll_dropWhile (elements : List Element) :
    effectAll scope (elements.dropWhile isBlank) = effectAll scope elements := by
  induction elements with
  | nil => rfl
  | cons element elements ih =>
    by_cases h : element.isBlank = true
    · rw [List.dropWhile_cons_of_pos h, ih, effectAll, effect_of_isBlank h]
      rfl
    · rw [List.dropWhile_cons_of_neg h]

theorem wellFormedAll_dropWhile {elements : List Element} (h : WellFormedAll elements) :
    WellFormedAll (elements.dropWhile isBlank) := by
  induction elements with
  | nil => exact h
  | cons element elements ih =>
    by_cases hblank : element.isBlank = true
    · rw [List.dropWhile_cons_of_pos hblank]
      exact ih h.2.2
    · rwa [List.dropWhile_cons_of_neg hblank]

theorem renderAll_trimRight (elements : List Element) :
    renderAll (trimRight elements) = (renderAll elements).trimRight := by
  induction elements with
  | nil => rfl
  | cons element elements ih =>
    have hnil : trimRight elements = [] ↔ (renderAll elements).trimRight = [] := by
      rw [← ih, renderAll_eq_nil_iff]
    rw [trimRight, renderAll]
    by_cases hblank : element.isBlank = true
    · have hrender : Text.trimRight element.render = [] :=
        Text.trimRight_eq_nil_iff.2 (render_of_isBlank hblank)
      rw [Text.trimRight_append, hrender]
      by_cases hrest : trimRight elements = []
      · rw [if_pos ⟨hblank, hrest⟩, if_pos (hnil.1 hrest), renderAll]
      · rw [if_neg fun h ↦ hrest h.2, if_neg fun h ↦ hrest (hnil.2 h), renderAll, ih]
    · rw [if_neg fun h ↦ hblank h.1, renderAll, ih,
        Text.trimRight_append_of_getLast? (getLast?_render (by simpa using hblank))]

theorem effectAll_trimRight (elements : List Element) :
    effectAll scope (trimRight elements) = effectAll scope elements := by
  induction elements generalizing scope with
  | nil => rfl
  | cons element elements ih =>
    rw [trimRight]
    split
    · next h =>
      obtain ⟨hblank, hrest⟩ := h
      have htail : effectAll scope elements = ([], scope) := by
        rw [← ih, hrest, effectAll]
      rw [effectAll, effectAll, effect_of_isBlank hblank, htail]
      rfl
    · rw [effectAll, ih, effectAll]

theorem wellFormedAll_trimRight {elements : List Element} (h : WellFormedAll elements) :
    WellFormedAll (trimRight elements) := by
  induction elements with
  | nil => exact h
  | cons element elements ih =>
    rw [trimRight]
    split
    · trivial
    · refine ⟨h.1, fun hopen ↦ (h.2.1 hopen).mono ?_, ih h.2.2⟩
      rw [renderAll_trimRight]
      exact Text.trimRight_prefix_self _

/-- **A selector lists what the reading of its elements gives**, the blanks around it left out. -/
theorem names_trim_renderAll {elements : List Element} (h : WellFormedAll elements) :
    Selector.names (renderAll elements).trim = .ok (effectAll .sheet elements).1 := by
  have htrim : renderAll (trimRight (elements.dropWhile isBlank)) = (renderAll elements).trim := by
    rw [renderAll_trimRight, renderAll_dropWhile, Text.trim]
  have hread : Reads (renderAll elements).trim .sheet
      (renderAll (trimRight (elements.dropWhile isBlank)))
      (effectAll .sheet (trimRight (elements.dropWhile isBlank))) [] :=
    reads_renderAll _ (wellFormedAll_trimRight (wellFormedAll_dropWhile h)) stops_nil
  rw [Reads, List.append_nil, htrim, Selector.namesFrom_nil, effectAll_trimRight,
    effectAll_dropWhile] at hread
  rw [Selector.names, hread]
  exact congrArg Except.ok (List.append_nil _)

end Element

/-! ### The selectors of a rule -/

/-- One of the selectors in front of a rule. -/
structure ListedSelector where
  /-- What the selector is made of. -/
  elements : List Element
  /-- No word is gone on with by the element behind it. -/
  wellFormed : Element.WellFormedAll elements
  /-- Commas stand in brackets only, the others separate selectors. -/
  comma_notMem : Element.comma ∉ elements

namespace ListedSelector

/-- A selector as it is written. -/
def render (selector : ListedSelector) : Text := Element.renderAll selector.elements

/-- The names a selector exports, in order and with repetitions. -/
def names (selector : ListedSelector) : List Text :=
  (Element.effectAll .sheet selector.elements).1

theorem splitFrom_render_append (selector : ListedSelector) (r : Text) :
    Selector.splitFrom 0 (selector.render ++ r) =
      (Selector.splitFrom 0 r).modifyHead (selector.render ++ ·) :=
  Element.passes_renderAll selector.elements (fun h ↦ absurd h selector.comma_notMem) r

/-- The selectors of a list, with commas between them. -/
def renderList (selectors : List ListedSelector) : Text :=
  Text.join [','] (selectors.map render)

theorem renderList_cons_cons (selector next : ListedSelector) (selectors : List ListedSelector) :
    renderList (selector :: next :: selectors) =
      selector.render ++ ',' :: renderList (next :: selectors) := rfl

/-- The commas of a list are where it is split. -/
theorem splitFrom_renderList (selector : ListedSelector) (selectors : List ListedSelector) :
    Selector.splitFrom 0 (renderList (selector :: selectors)) =
      (selector :: selectors).map render := by
  induction selectors generalizing selector with
  | nil =>
    have hlast := selector.splitFrom_render_append []
    rw [List.append_nil] at hlast
    show Selector.splitFrom 0 (selector.render ++ []) = [selector.render]
    rw [List.append_nil, hlast]
    exact congrArg (· :: []) (List.append_nil _)
  | cons next selectors ih =>
    rw [renderList_cons_cons, splitFrom_render_append, Selector.splitFrom_cons, if_pos ⟨rfl, rfl⟩,
      ih, List.modifyHead_cons, List.append_nil]
    rfl

end ListedSelector

/-- **The scanner lists the names that the reading of the elements gives**, for every list of
selectors: in the order of the text, with repetitions, and without a fault. -/
theorem listNames_render (selectors : List ListedSelector) :
    Selector.listNames (ListedSelector.renderList selectors) =
      .ok (selectors.flatMap ListedSelector.names) := by
  rw [Selector.listNames_eq]
  cases selectors with
  | nil =>
    show collect _ [[]] = _
    rw [collect_singleton]
    exact Selector.namesFrom_nil
  | cons selector selectors =>
    rw [ListedSelector.splitFrom_renderList, collect_map]
    exact collect_of_ok fun selector _ ↦ Element.names_trim_renderAll selector.wellFormed

end CssTypings.Stylesheet

import CssTypings.Proofs.Stylesheet.Lockstep

/-!
# Pseudo-classes that switch the scope

A pseudo-class is written into a list of selectors, at a place outside of escapes where a blank or
the end follows it. What becomes of the names depends on its own name alone
(`Selector.listNames_insert`).

* A keyword ends where its word ends, and a hyphen is no part of a word. So `:global-menu` is read
  as `:global`, like every name that begins with a keyword and a hyphen (`Scope.IsReadIn`), and
  switches the scope.
* Any other name changes nothing.

Either way the pseudo-class is an aside (`isAside_of_isReadIn`, `isAside_of_not_isReadIn`), which
the text with it and the text without it, or with the keyword, are scanned around in lockstep.

Trimming comes in at the end of a selector. Blanks there are dropped, the last one even if it is
escaped, and a pseudo-class behind them keeps them. So leaving it out takes the blank from a name
that ends in one, and such places are set apart (`Selector.KeepsEscapes`).
-/

namespace CssTypings.Stylesheet

/-! ### Places in a selector -/

/-- The text is empty or begins with a blank. -/
def BlankOrEnd (t : Text) : Prop := ∀ c ∈ t.head?, Text.isBlank c = true

/-- The text ends inside an escape: nothing is behind its last backslash. -/
def endsInEscape : Text → Bool
  | [] => false
  | ['\\'] => true
  | '\\' :: _ :: r => endsInEscape r
  | _ :: r => endsInEscape r

section Places

variable {asides : Asides} {c : Char} {s t u : Text}

theorem BlankOrEnd.of_prefix (hst : s <+: t) (ht : BlankOrEnd t) : BlankOrEnd s :=
  fun c hc ↦ ht c (Text.mem_head?_mono hst hc)

theorem BlankOrEnd.stops (ht : BlankOrEnd t) : Element.Stops t := fun c hc ↦
  ⟨Text.not_isWordOrHyphen_of_isBlank (ht c hc), Text.ne_of_pos_of_neg (ht c hc) (by decide),
    Text.ne_of_pos_of_neg (ht c hc) (by decide)⟩

theorem endsInEscape_cons (hc : c ≠ '\\') : endsInEscape (c :: t) = endsInEscape t := by
  rw [endsInEscape]
  · rintro rfl
    exact absurd rfl hc
  · rintro _ _ rfl
    exact absurd rfl hc

/-- Behind any other character than a backslash no escape is open. -/
theorem endsInEscape_append_cons (hc : c ≠ '\\') (s t : Text) :
    endsInEscape (s ++ c :: t) = endsInEscape t := by
  induction s using Identifier.unescape.induct with
  | case1 => exact endsInEscape_cons hc
  | case2 d r ih => exact ih
  | case3 d r hpair ih =>
    by_cases hd : d = '\\'
    · subst hd
      cases r with
      | nil => rfl
      | cons e r => exact absurd rfl (hpair e r rfl)
    · rw [List.cons_append, endsInEscape_cons hd, ih]

/-- What is in front of a place outside escapes may be any text. -/
theorem Lockstep.append_left (hs : endsInEscape s = false) (h : Lockstep asides t u) :
    Lockstep asides (s ++ t) (s ++ u) := by
  induction s using Identifier.unescape.induct with
  | case1 => exact h
  | case2 d r ih => exact escape d (ih hs)
  | case3 d r hpair ih =>
    by_cases hd : d = '\\'
    · subst hd
      cases r with
      | nil => cases hs
      | cons e r => exact absurd rfl (hpair e r rfl)
    · exact plain hd (ih (by rwa [endsInEscape_cons hd] at hs))

end Places

/-! ### Pseudo-classes as asides -/

section Names

variable {p : Text} {scope : Scope} (hp : ∀ c ∈ p, Text.isWordOrHyphen c = true)
include hp

theorem isBracket_of_mem_colon : ∀ c ∈ ':' :: p, Selector.isBracket c = false :=
  List.forall_mem_cons.2 ⟨by decide, fun c hc ↦ Selector.isBracket_of_class (by decide) (hp c hc)⟩

/-- A pseudo-class is passed over. -/
theorem isAside_of_not_isReadIn (hread : ∀ scope : Scope, ¬ scope.IsReadIn p) :
    IsAside BlankOrEnd id (':' :: p) where
  stops _ := Element.stops_cons.2 (by decide)
  isBracket_of_mem := isBracket_of_mem_colon hp
  reads ht selector scope := by
    have hscan := Scope.scan?_colon_eq_none hp hread ht.stops.isWord_head
    rw [List.cons_append, Selector.namesFrom_of_other (Piece.next_colon hscan)]
    exact Selector.namesFrom_append_of_isInert fun c hc ↦ Piece.isInert_of_class (by decide) (hp c hc)

/-- A pseudo-class that is read as a scope keyword switches the scope. -/
theorem isAside_of_isReadIn (hread : scope.IsReadIn p) :
    IsAside BlankOrEnd (fun _ ↦ scope) (':' :: p) where
  stops _ := Element.stops_cons.2 (by decide)
  isBracket_of_mem := isBracket_of_mem_colon hp
  reads {t} ht selector scope' := by
    -- behind the keyword the name ends, or a hyphen and more of it follow
    obtain ⟨tail, hkeyword, htail⟩ : ∃ tail, ':' :: p = scope.keyword ++ tail ∧
        ∀ c ∈ tail.head?, c = '-' := by
      rcases hread with h | ⟨tail, h⟩
      · exact ⟨[], by rw [h, List.append_nil], by simp⟩
      · exact ⟨'-' :: tail, by rw [← h, List.append_assoc]; rfl, by simp⟩
    obtain ⟨word, hword, -⟩ := scope.exists_keyword_eq
    have hbehind : ∀ c ∈ (tail ++ t).head?, Text.isWord c = false ∧ c ≠ '(' := by
      cases tail with
      | nil => exact fun c hc ↦ ⟨ht.stops.isWord_head c hc, (ht.stops c hc).2.2⟩
      | cons d tail =>
        rintro c hc
        rw [htail c hc]
        decide
    have hscan : Scope.scan? (':' :: (word ++ (tail ++ t))) = some (scope, tail ++ t) := by
      rw [← List.cons_append, ← hword]
      exact scope.scan?_keyword_append fun c hc ↦ (hbehind c hc).1
    have hinert : ∀ c ∈ tail, Piece.isInert c = true := by
      rw [hword, List.cons_append] at hkeyword
      intro c hc
      refine Piece.isInert_of_class (by decide) (hp c ?_)
      rw [(List.cons.inj hkeyword).2]
      exact List.mem_append_right word hc
    rw [hkeyword, List.append_assoc, hword, List.cons_append, Selector.namesFrom_cons,
      Piece.next_switch hscan fun h ↦ (hbehind _ h).2 rfl]
    show (do let others ← Selector.namesFrom selector scope (tail ++ t); return [] ++ others) = _
    rw [Selector.namesFrom_append_of_isInert hinert]
    cases Selector.namesFrom selector scope t <;> rfl

end Names

theorem isAside_nil : IsAside BlankOrEnd id [] where
  stops ht := ht.stops
  isBracket_of_mem := by simp
  reads _ _ _ := rfl

/-- Blanks in front of an aside belong to it. -/
theorem IsAside.append_left {f : Scope → Scope} {b g : Text}
    (hb : ∀ c ∈ b, Text.isBlank c = true) (hg : IsAside BlankOrEnd f g) :
    IsAside BlankOrEnd f (b ++ g) where
  stops ht := by
    rw [List.append_assoc]
    exact Element.Stops.append (BlankOrEnd.stops fun c hc ↦ hb c (List.mem_of_mem_head? hc))
      (hg.stops ht)
  isBracket_of_mem c hc := by
    rcases List.mem_append.1 hc with hc | hc
    · exact Selector.isBracket_of_class (by decide) (hb c hc)
    · exact hg.isBracket_of_mem c hc
  reads ht selector scope := by
    rw [List.append_assoc, Selector.namesFrom_append_of_isInert fun c hc ↦
      Piece.isInert_of_class (by decide) (hb c hc)]
    exact hg.reads ht selector scope

namespace Selector

variable {f : Scope → Scope} {g h s t u v : Text}

/-! ### One selector -/

/-- **Asides with the same effect give the same names** at a place outside escapes. -/
theorem namesFrom_agree_of_isAside (hg : IsAside BlankOrEnd f g) (hh : IsAside BlankOrEnd f h)
    (hs : endsInEscape s = false) (ht : BlankOrEnd t) (selector selector' : Text) (scope : Scope) :
    Agree (· = ·) (namesFrom selector scope (s ++ (g ++ t)))
      (namesFrom selector' scope (s ++ (h ++ t))) := by
  let asides : Asides :=
    { SameEffect a b := a ++ b ≠ [] ∧ a = g ∧ b = h
      Follows := BlankOrEnd
      follows_of_prefix := BlankOrEnd.of_prefix
      ne_nil := fun hab ↦ hab.1
      isAside := by
        rintro _ _ ⟨-, rfl, rfl⟩
        exact ⟨f, hg, hh⟩ }
  have hlockstep : Lockstep asides (g ++ t) (h ++ t) := by
    by_cases hne : g ++ h = []
    · obtain ⟨rfl, rfl⟩ := List.append_eq_nil_iff.1 hne
      exact .refl t
    · exact .aside ⟨hne, rfl, rfl⟩ ht ht (.refl t)
  exact (hlockstep.append_left hs).namesFrom_agree

/-- Blanks in front of a selector do not matter. -/
theorem namesFrom_trimRight (selector : Text) (scope : Scope) (t : Text) :
    namesFrom selector scope t.trimRight = namesFrom selector scope t.trim := by
  obtain ⟨b, hb, ht⟩ : ∃ b : Text, (∀ c ∈ b, Text.isBlank c = true) ∧ b ++ t.trimLeft = t :=
    ⟨t.takeWhile Text.isBlank, fun _ ↦ List.mem_takeWhile_imp, List.takeWhile_append_dropWhile⟩
  conv_lhs => rw [← ht]
  rw [Text.trimRight_append, Text.trim]
  split
  · next h => rw [h, Text.trimRight_eq_nil_iff.2 hb]
  · exact namesFrom_append_of_isInert fun c hc ↦ Piece.isInert_of_class (by decide) (hb c hc)

/-- Both texts, with their blanks at the end dropped, are the same but for asides with the same
effect. -/
theorem names_agree_of_isAside (hg : IsAside BlankOrEnd f g)
    (hh : IsAside BlankOrEnd f h) (hs : endsInEscape s = false) (ht : BlankOrEnd t)
    (hu : Text.trimRight u = s ++ (g ++ t)) (hv : Text.trimRight v = s ++ (h ++ t)) :
    Agree (· = ·) (names u.trim) (names v.trim) := by
  rw [names, names, ← namesFrom_trimRight, ← namesFrom_trimRight _ _ v, hu, hv]
  exact namesFrom_agree_of_isAside hg hh hs ht _ _ _

/-- What is not all blank stays when the blanks behind it are dropped. -/
theorem trimRight_append_aside (hg : g ≠ []) (hblank : ∀ c ∈ g, Text.isBlank c = false)
    (s t : Text) : Text.trimRight (s ++ (g ++ t)) = s ++ (g ++ t.trimRight) := by
  rw [Text.trimRight_append, Text.trimRight_append_of_not_isBlank hblank, if_neg (by simp [hg])]

/-- **An aside in a selector changes nothing**, unless what is behind it is blank and an escaped
blank in front. -/
theorem names_agree_insert (hg : IsAside BlankOrEnd id g) (hne : g ≠ [])
    (hblank : ∀ c ∈ g, Text.isBlank c = false) (hs : endsInEscape s = false) (ht : BlankOrEnd t)
    (htrim : endsInEscape s.trimRight = false ∨ ∃ c ∈ t, Text.isBlank c = false) :
    Agree (· = ·) (names (Text.trim (s ++ (g ++ t)))) (names (Text.trim (s ++ t))) := by
  by_cases hend : t.trimRight = []
  · -- blanks in front of the aside are kept because of it
    have hall := Text.trimRight_eq_nil_iff.1 hend
    have htrim : endsInEscape s.trimRight = false :=
      htrim.resolve_right fun ⟨c, hc, h⟩ ↦ absurd (hall c hc) (by simp [h])
    obtain ⟨b, hb, hsb⟩ : ∃ b : Text, (∀ c ∈ b, Text.isBlank c = true) ∧ s.trimRight ++ b = s :=
      ⟨s.rtakeWhile Text.isBlank, fun _ ↦ List.mem_rtakeWhile_imp,
        List.rdropWhile_append_rtakeWhile⟩
    refine names_agree_of_isAside (s := s.trimRight) (t := []) (hg.append_left hb) isAside_nil htrim
      (by simp [BlankOrEnd]) ?_ ?_
    · rw [trimRight_append_aside hne hblank, hend, List.append_nil, List.append_nil,
        ← List.append_assoc, hsb]
    · rw [Text.trimRight_append_of_isBlank hall, List.append_nil, List.append_nil]
  · refine names_agree_of_isAside hg isAside_nil hs (ht.of_prefix (Text.trimRight_prefix_self t))
      (trimRight_append_aside hne hblank s t) ?_
    rw [Text.trimRight_append, if_neg hend, List.nil_append]

/-! ### One selector of a list -/

/-- The selector that `u` is cut in goes on in `v` with this, up to its comma. -/
def restOfSelector (u v : Text) : Text := (splitFrom (u.foldl depthAfter 0) v).headD []

/-- The text is what `u` has of its last selector: behind a comma, or all of `u`. -/
def IsLastPart (u part : Text) : Prop := part = u ∨ ∃ front, u = front ++ ',' :: part

theorem IsLastPart.endsInEscape_eq {part : Text} (h : IsLastPart u part) :
    endsInEscape part = endsInEscape u := by
  rcases h with rfl | ⟨front, rfl⟩
  · rfl
  · exact (endsInEscape_append_cons (by decide) front part).symm

theorem IsLastPart.trimRight {part : Text} (h : IsLastPart u part) :
    IsLastPart u.trimRight part.trimRight := by
  rcases h with rfl | ⟨front, rfl⟩
  · exact Or.inl rfl
  · refine Or.inr ⟨front, ?_⟩
    exact trimRight_append_aside (g := [',']) (by simp) (by simp; decide) front part

/-- The splitter starts a part behind every comma at the top level, and goes on with the last
one. -/
theorem exists_splitFrom_append (u : Text) : ∃ parts part, IsLastPart u part ∧ ∀ t,
    splitFrom 0 (u ++ t) =
      parts ++ (splitFrom (u.foldl depthAfter 0) t).modifyHead (part ++ ·) := by
  induction u using List.reverseRecOn with
  | nil => exact ⟨[], [], Or.inl rfl, fun _ ↦ (congrFun List.modifyHead_id _).symm⟩
  | append_singleton u c ih =>
    obtain ⟨parts, part, hpart, hsplit⟩ := ih
    have hstep (t : Text) : splitFrom 0 (u ++ [c] ++ t) =
        parts ++ (splitFrom (u.foldl depthAfter 0) (c :: t)).modifyHead (part ++ ·) := by
      rw [List.append_assoc, List.singleton_append, hsplit]
    rw [List.foldl_append]
    by_cases hcomma : u.foldl depthAfter 0 = 0 ∧ c = ','
    · refine ⟨parts ++ [part], [], Or.inr ⟨u, by rw [hcomma.2]⟩, fun t ↦ ?_⟩
      have hid (l : List Text) : l.modifyHead (([] : Text) ++ ·) = l := congrFun List.modifyHead_id l
      rw [hstep, splitFrom_cons, if_pos hcomma, hcomma.1, hcomma.2, hid]
      simp [depthAfter]
    · refine ⟨parts, part ++ [c], ?_, fun t ↦ ?_⟩
      · rcases hpart with rfl | ⟨front, rfl⟩
        · exact Or.inl rfl
        · exact Or.inr ⟨front, by simp⟩
      · rw [hstep, splitFrom_cons, if_neg hcomma, List.modifyHead_modifyHead]
        congr 2
        funext r
        simp

/-- **What is written into a list of selectors is written into one of them**, if it is passed over
by the splitter at commas. -/
theorem exists_splitFrom_insert (u v : Text) : ∃ parts part others, IsLastPart u part ∧
    ∀ g, (∀ depth, Passes depth g) →
      splitFrom 0 (u ++ (g ++ v)) = parts ++ (part ++ (g ++ restOfSelector u v)) :: others := by
  obtain ⟨parts, part, hpart, hsplit⟩ := exists_splitFrom_append u
  obtain ⟨rest, others, hrest⟩ :=
    List.exists_cons_of_ne_nil (splitFrom_ne_nil (u.foldl depthAfter 0) v)
  refine ⟨parts, part, others, hpart, fun g hg ↦ ?_⟩
  rw [hsplit, hg, restOfSelector, hrest]
  rfl

theorem isPrefix_restOfSelector (u v : Text) : restOfSelector u v <+: v := by
  obtain ⟨rest, others, hrest⟩ :=
    List.exists_cons_of_ne_nil (splitFrom_ne_nil (u.foldl depthAfter 0) v)
  rw [restOfSelector, hrest]
  exact (prefix_and_infix_of_splitFrom _ v).1 rest (by rw [hrest]; rfl)

/-- Lists of selectors give the same names if the selectors do that something is written into. -/
theorem listNames_agree_of_part (hg : ∀ depth, Passes depth g) (hh : ∀ depth, Passes depth h)
    (hpart : ∀ part, IsLastPart u part →
      Agree (· = ·) (names (Text.trim (part ++ (g ++ restOfSelector u v))))
        (names (Text.trim (part ++ (h ++ restOfSelector u v))))) :
    Agree (· = ·) (listNames (u ++ (g ++ v))) (listNames (u ++ (h ++ v))) := by
  obtain ⟨parts, part, others, hlast, hsplit⟩ := exists_splitFrom_insert u v
  rw [listNames_eq, listNames_eq, hsplit g hg, hsplit h hh]
  refine agree_collect (List.rel_append ?_ (.cons (hpart part hlast) ?_))
  · exact List.forall₂_same.2 fun part _ ↦ Agree.refl _
  · exact List.forall₂_same.2 fun part _ ↦ Agree.refl _

/-! ### Lists of selectors -/

/-- A place in a list of selectors, between `u` and `v`, where a pseudo-class can be written:
outside of escapes, and in front of a blank or the end. -/
structure IsPlace (u v : Text) : Prop where
  endsInEscape : endsInEscape u = false
  blankOrEnd : BlankOrEnd v

/-- Trimming the selector cuts no escape in front of the place. -/
def KeepsEscapes (u v : Text) : Prop :=
  Stylesheet.endsInEscape u.trimRight = false ∨ ∃ c ∈ restOfSelector u v, Text.isBlank c = false

instance (u v : Text) : Decidable (KeepsEscapes u v) := inferInstanceAs (Decidable (_ ∨ _))

section Insert

variable {p : Text} (hp : ∀ c ∈ p, Text.isWordOrHyphen c = true)
include hp

theorem passes_colon (depth : Nat) : Passes depth (':' :: p) :=
  (passes_singleton (c := ':') (by decide) (by simp)).append (passes_of_class (by decide) hp)

theorem not_isBlank_of_mem_colon : ∀ c ∈ ':' :: p, Text.isBlank c = false :=
  List.forall_mem_cons.2 ⟨by decide, fun c hc ↦ Text.not_isBlank_of_isWordOrHyphen (hp c hc)⟩

/-- Pseudo-classes with the same effect may stand for one another. -/
theorem listNames_agree_of_isAside {q : Text} (hq : ∀ c ∈ q, Text.isWordOrHyphen c = true)
    (hasideP : IsAside BlankOrEnd f (':' :: p)) (hasideQ : IsAside BlankOrEnd f (':' :: q))
    (hplace : IsPlace u v) :
    Agree (· = ·) (listNames (u ++ (':' :: p ++ v))) (listNames (u ++ (':' :: q ++ v))) := by
  refine listNames_agree_of_part (passes_colon hp) (passes_colon hq) fun part hpart ↦ ?_
  have hrest : BlankOrEnd (restOfSelector u v).trimRight :=
    hplace.blankOrEnd.of_prefix ((Text.trimRight_prefix_self _).trans (isPrefix_restOfSelector u v))
  refine names_agree_of_isAside hasideP hasideQ (hpart.endsInEscape_eq.trans hplace.endsInEscape)
    hrest ?_ ?_
  · exact trimRight_append_aside (by simp) (not_isBlank_of_mem_colon hp) _ _
  · exact trimRight_append_aside (by simp) (not_isBlank_of_mem_colon hq) _ _

/-- A pseudo-class that is no scope keyword may be left out. -/
theorem listNames_agree_of_not_isReadIn (hread : ∀ scope : Scope, ¬ scope.IsReadIn p)
    (hplace : IsPlace u v) (hkeeps : KeepsEscapes u v) :
    Agree (· = ·) (listNames (u ++ (':' :: p ++ v))) (listNames (u ++ v)) := by
  have hinsert := listNames_agree_of_part (u := u) (v := v) (passes_colon hp) passes_nil
    fun part hpart ↦ ?_
  · simpa using hinsert
  · rw [List.nil_append]
    refine names_agree_insert (isAside_of_not_isReadIn hp hread) (by simp)
      (not_isBlank_of_mem_colon hp) (hpart.endsInEscape_eq.trans hplace.endsInEscape)
      (hplace.blankOrEnd.of_prefix (isPrefix_restOfSelector u v)) ?_
    exact hkeeps.imp_left fun h ↦ hpart.trimRight.endsInEscape_eq.trans h

/-- What is read as a scope keyword may be replaced by the keyword. -/
theorem listNames_agree_of_isReadIn {scope : Scope} (hread : scope.IsReadIn p)
    (hplace : IsPlace u v) :
    Agree (· = ·) (listNames (u ++ (':' :: p ++ v))) (listNames (u ++ (scope.keyword ++ v))) := by
  obtain ⟨word, hkeyword, hword⟩ := scope.exists_keyword_eq
  have hword : ∀ c ∈ word, Text.isWordOrHyphen c = true :=
    fun c hc ↦ by simp [Text.isWordOrHyphen, hword c hc]
  have hself : scope.IsReadIn word := Or.inl hkeyword.symm
  rw [hkeyword]
  exact listNames_agree_of_isAside hp hword (isAside_of_isReadIn hp hread)
    (isAside_of_isReadIn hword hself) hplace

end Insert

/-- A keyword changes the names at some place: `:global` in front of a class, `:local` behind
`:global`. -/
theorem exists_place_of_keyword (scope : Scope) : ∃ u v, IsPlace u v ∧ KeepsEscapes u v ∧
    ¬ Agree (· = ·) (listNames (u ++ (scope.keyword ++ v))) (listNames (u ++ v)) := by
  have hplace {u : Text} (hu : Stylesheet.endsInEscape u = false) : IsPlace u " .b".toList :=
    ⟨hu, by simp [BlankOrEnd]; decide⟩
  have hne {names names' : List Text} (h : names ≠ names') :
      ¬ Agree (· = ·) (Except.ok names : Except Fault (List Text)) (.ok names') := by
    rintro ⟨heq⟩
    exact h heq
  cases scope with
  | global =>
    have hinserted : listNames ([] ++ (Scope.global.keyword ++ " .b".toList)) = .ok [] := by
      decide +kernel
    have hleft : listNames ([] ++ " .b".toList) = .ok ["b".toList] := by decide +kernel
    exact ⟨[], " .b".toList, hplace rfl, Or.inl rfl, by rw [hinserted, hleft]; exact hne (by decide)⟩
  | sheet =>
    have hinserted : listNames (":global .a".toList ++ (Scope.sheet.keyword ++ " .b".toList)) =
        .ok ["b".toList] := by decide +kernel
    have hleft : listNames (":global .a".toList ++ " .b".toList) = .ok [] := by decide +kernel
    exact ⟨":global .a".toList, " .b".toList, hplace (by decide), Or.inl (by decide),
      by rw [hinserted, hleft]; exact hne (by decide)⟩

/-- **Which pseudo-classes switch the scope**: those that are read as a keyword do what the keyword
does, at every place, and exactly the others can be left out everywhere. -/
theorem listNames_insert {p : Text} (hp : ∀ c ∈ p, Text.isWordOrHyphen c = true) :
    (∀ scope : Scope, scope.IsReadIn p → ∀ u v, IsPlace u v →
      Agree (· = ·) (listNames (u ++ (':' :: p ++ v))) (listNames (u ++ (scope.keyword ++ v)))) ∧
    ((∀ u v, IsPlace u v → KeepsEscapes u v →
        Agree (· = ·) (listNames (u ++ (':' :: p ++ v))) (listNames (u ++ v))) ↔
      ∀ scope : Scope, ¬ scope.IsReadIn p) := by
  have hswitch (scope : Scope) (hread : scope.IsReadIn p) (u v : Text) (hplace : IsPlace u v) :=
    listNames_agree_of_isReadIn hp hread hplace
  refine ⟨hswitch, fun hleft scope hread ↦ ?_, fun hread u v ↦
    listNames_agree_of_not_isReadIn hp hread⟩
  obtain ⟨u, v, hplace, hkeeps, hdiffer⟩ := exists_place_of_keyword scope
  exact hdiffer ((hswitch scope hread u v hplace).symm.trans (hleft u v hplace hkeeps))

/-- Names with a keyword and a hyphen in front switch the scope; `:global-menu` hides the class
behind it. -/
theorem listNames_insert_globalMenu :
    Agree (· = ·) (listNames ".a :global-menu .b".toList) (listNames ".a :global .b".toList) ∧
      ¬ ∀ u v, IsPlace u v → KeepsEscapes u v →
        Agree (· = ·) (listNames (u ++ (":global-menu".toList ++ v))) (listNames (u ++ v)) := by
  have hname : ∀ c ∈ "global-menu".toList, Text.isWordOrHyphen c = true :=
    List.all_eq_true.1 (by decide)
  have hread : Scope.global.IsReadIn "global-menu".toList := by decide
  have hinsert := listNames_insert hname
  exact ⟨hinsert.1 .global hread ".a ".toList " .b".toList
      ⟨by decide, by simp [BlankOrEnd]; decide⟩,
    fun hleft ↦ hinsert.2.1 hleft .global hread⟩

end Selector

end CssTypings.Stylesheet

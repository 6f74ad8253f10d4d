import CssTypings.Proofs.Agreement
import CssTypings.Proofs.Stylesheet.Elements

/-!
# Scanning two texts in lockstep

Two texts are in lockstep when they are the same but at some places, where each has an aside of its
own: a text that the scanner of selectors passes over with the same effect on the scope, and without
listing a name (`Lockstep`). Which asides may stand for one another, and what has to follow them, is
a parameter (`Asides`). A backslash and the character behind it are taken together, since that
character may be one that begins an aside.

The scanner does the same on both texts, step by step. They begin with the same identifier
(`Lockstep.scan?`) and the same scope keyword (`Lockstep.scope_scan?`), their brackets close at the
same place (`Lockstep.splitAtClose`), and what is behind these is in lockstep again. So both texts
list the same names, or both have a fault: `Lockstep.namesFrom_agree`.
-/

namespace CssTypings.Stylesheet

open Element (Stops)

/-- A text that the scanner of selectors passes over in front of what may follow it: it lists no
names and has no brackets, no word in front is gone on with by it, and `f` says what becomes of the
scope. -/
structure IsAside (follows : Text → Prop) (f : Scope → Scope) (g : Text) : Prop where
  stops : ∀ {t}, follows t → Stops (g ++ t)
  isBracket_of_mem : ∀ c ∈ g, Selector.isBracket c = false
  reads : ∀ {t}, follows t → ∀ selector scope,
    Selector.namesFrom selector scope (g ++ t) = Selector.namesFrom selector (f scope) t

/-- Which asides may stand for one another. -/
structure Asides where
  /-- The second aside may stand for the first one. -/
  SameEffect : Text → Text → Prop
  /-- What may follow an aside. -/
  Follows : Text → Prop
  follows_of_prefix : ∀ {s t}, s <+: t → Follows t → Follows s
  ne_nil : ∀ {g h}, SameEffect g h → g ++ h ≠ []
  isAside : ∀ {g h}, SameEffect g h → ∃ f, IsAside Follows f g ∧ IsAside Follows f h

/-- The texts are the same but for asides that may stand for one another. -/
inductive Lockstep (asides : Asides) : Text → Text → Prop
  | nil : Lockstep asides [] []
  | aside {g h t u : Text} : asides.SameEffect g h → asides.Follows t → asides.Follows u →
      Lockstep asides t u → Lockstep asides (g ++ t) (h ++ u)
  | escape (c : Char) {t u : Text} : Lockstep asides t u →
      Lockstep asides ('\\' :: c :: t) ('\\' :: c :: u)
  /-- A backslash at the end of a text; the character it escapes was cut off. -/
  | backslash : Lockstep asides ['\\'] ['\\']
  | plain {c : Char} {t u : Text} : c ≠ '\\' → Lockstep asides t u →
      Lockstep asides (c :: t) (c :: u)

namespace Lockstep

variable {asides : Asides} {t u : Text}

theorem refl (t : Text) : Lockstep asides t t := by
  induction t using Identifier.unescape.induct with
  | case1 => exact nil
  | case2 c r ih => exact escape c ih
  | case3 c r hpair ih =>
    by_cases hc : c = '\\'
    · subst hc
      cases r with
      | nil => exact backslash
      | cons d r => exact absurd rfl (hpair d r rfl)
    · exact plain hc ih

/-- Both asides stop the word in front of them. -/
theorem stops_aside {g h : Text} (hgh : asides.SameEffect g h) (ht : asides.Follows t)
    (hu : asides.Follows u) : Stops (g ++ t) ∧ Stops (h ++ u) := by
  obtain ⟨f, hg, hh⟩ := asides.isAside hgh
  exact ⟨hg.stops ht, hh.stops hu⟩

/-! ### Identifiers -/

/-- The same was read off two texts, and what is left of them is in lockstep. -/
def SameRead (asides : Asides) {α : Type} (x y : α × Text) : Prop :=
  x.1 = y.1 ∧ Lockstep asides x.2 y.2

theorem scanTail (h : Lockstep asides t u) :
    SameRead asides (Identifier.scanTail t) (Identifier.scanTail u) := by
  induction h with
  | nil => exact ⟨rfl, nil⟩
  | aside hgh ht hu hrest _ =>
    obtain ⟨hg, hh⟩ := stops_aside hgh ht hu
    rw [Identifier.scanTail_of_endsName hg.endsName, Identifier.scanTail_of_endsName hh.endsName]
    exact ⟨rfl, aside hgh ht hu hrest⟩
  | @escape c t u hrest ih =>
    rw [Identifier.scanTail, Identifier.scanTail]
    by_cases hline : c = '\n'
    · rw [if_pos hline, if_pos hline]
      exact ⟨rfl, escape c hrest⟩
    · rw [if_neg hline, if_neg hline]
      exact ⟨congrArg ('\\' :: c :: ·) ih.1, ih.2⟩
  | backslash => exact ⟨rfl, backslash⟩
  | @plain c t u hc hrest ih =>
    have hcons (r : Text) : Identifier.scanTail (c :: r) =
        if Text.isWordOrHyphen c then
          (c :: (Identifier.scanTail r).1, (Identifier.scanTail r).2) else ([], c :: r) := by
      rw [Identifier.scanTail]
      rintro d r' rfl
      exact absurd rfl hc
    rw [hcons, hcons]
    by_cases hword : Text.isWordOrHyphen c = true
    · rw [if_pos hword, if_pos hword]
      exact ⟨congrArg (c :: ·) ih.1, ih.2⟩
    · rw [if_neg hword, if_neg hword]
      exact ⟨rfl, plain hc hrest⟩

theorem scanPlain? (h : Lockstep asides t u) :
    Option.Rel (SameRead asides) (Identifier.scanPlain? t) (Identifier.scanPlain? u) := by
  cases h with
  | nil => exact .none
  | aside hgh ht hu _ =>
    obtain ⟨hg, hh⟩ := stops_aside hgh ht hu
    rw [Identifier.scanPlain?_of_endsName hg.endsName,
      Identifier.scanPlain?_of_endsName hh.endsName]
    exact .none
  | escape c hrest =>
    rw [Identifier.scanPlain?, Identifier.scanPlain?]
    by_cases hline : c = '\n'
    · rw [if_pos hline, if_pos hline]
      exact .none
    · rw [if_neg hline, if_neg hline]
      exact .some ⟨congrArg ('\\' :: c :: ·) hrest.scanTail.1, hrest.scanTail.2⟩
  | backslash => exact .none
  | @plain c t u hc hrest =>
    have hcons (r : Text) : Identifier.scanPlain? (c :: r) =
        if Text.isLetter c || c == '_' then
          some (c :: (Identifier.scanTail r).1, (Identifier.scanTail r).2) else Option.none := by
      rw [Identifier.scanPlain?]
      rintro d r' rfl
      exact absurd rfl hc
    rw [hcons, hcons]
    split
    · exact .some ⟨congrArg (c :: ·) hrest.scanTail.1, hrest.scanTail.2⟩
    · exact .none

/-- **Texts in lockstep begin with the same identifier**, or with none. -/
theorem scan? (h : Lockstep asides t u) :
    Option.Rel (SameRead asides) (Identifier.scan? t) (Identifier.scan? u) := by
  have hresult := h.scanPlain?
  cases h with
  | nil => exact .none
  | aside hgh ht hu _ =>
    obtain ⟨hg, hh⟩ := stops_aside hgh ht hu
    rw [Identifier.scan?_of_endsName hg.endsName, Identifier.scan?_of_endsName hh.endsName]
    exact .none
  | escape c _ => rwa [Identifier.scan?_of_head? (by simp), Identifier.scan?_of_head? (by simp)]
  | backslash => exact .none
  | @plain c t u hc hrest =>
    by_cases hhyphen : c = '-'
    · subst hhyphen
      rw [Identifier.scan?, Identifier.scan?]
      exact optionRel_map hrest.scanPlain? fun _ _ hread ↦
        ⟨congrArg ('-' :: ·) hread.1, hread.2⟩
    · rwa [Identifier.scan?_of_head? (by simpa using hhyphen),
        Identifier.scan?_of_head? (by simpa using hhyphen)]

/-! ### Scope keywords -/

/-- A word stands in front of both texts, or of neither. -/
theorem after? {word : Text} (hword : ∀ c ∈ word, Text.isWord c = true) (h : Lockstep asides t u) :
    Option.Rel (Lockstep asides) (Text.after? word t) (Text.after? word u) := by
  induction word generalizing t u with
  | nil => exact .some h
  | cons c word ih =>
    obtain ⟨hc, htail⟩ := List.forall_mem_cons.1 hword
    have hnone {t : Text} (ht : c ∉ t.head?) : Text.after? (c :: word) t = none :=
      Text.after?_eq_none_of_head? (c := c) rfl ht
    have hstops {t : Text} (ht : Stops t) : c ∉ t.head? := fun hmem ↦ by
      rw [ht.isWord_head c hmem] at hc
      cases hc
    have hslash : c ≠ '\\' := Text.ne_of_pos_of_neg hc (by decide)
    cases h with
    | nil => exact .none
    | aside hgh ht hu _ =>
      obtain ⟨hg, hh⟩ := stops_aside hgh ht hu
      rw [hnone (hstops hg), hnone (hstops hh)]
      exact .none
    | escape d _ =>
      rw [hnone (by simpa using hslash.symm), hnone (by simpa using hslash.symm)]
      exact .none
    | backslash =>
      rw [hnone (by simpa using hslash.symm)]
      exact .none
    | @plain d t u hd hrest =>
      by_cases hcd : d = c
      · subst hcd
        rw [Text.after?_cons_cons, Text.after?_cons_cons]
        exact ih htail hrest
      · rw [hnone (by simpa using hcd), hnone (by simpa using hcd)]
        exact .none

theorem isWord_head?_eq (h : Lockstep asides t u) :
    t.head?.any Text.isWord = u.head?.any Text.isWord := by
  have hstops {t : Text} (ht : Stops t) : t.head?.any Text.isWord = false := by
    cases t with
    | nil => rfl
    | cons c t => exact ht.isWord_head c rfl
  cases h with
  | aside hgh ht hu _ =>
    obtain ⟨hg, hh⟩ := stops_aside hgh ht hu
    rw [hstops hg, hstops hh]
  | _ => simp

/-- **Texts in lockstep begin with the same scope keyword**, or with none, where they begin with the
same character. -/
theorem scope_scan? {c : Char} (h : Lockstep asides t u) :
    Option.Rel (SameRead asides) (Scope.scan? (c :: t)) (Scope.scan? (c :: u)) := by
  have hafter (scope : Scope) :
      Option.Rel (Lockstep asides) (scope.after? (c :: t)) (scope.after? (c :: u)) := by
    obtain ⟨word, hkeyword, hword⟩ := scope.exists_keyword_eq
    rw [Scope.after?_eq_filter, Scope.after?_eq_filter, hkeyword]
    by_cases hc : c = ':'
    · subst hc
      rw [Text.after?_cons_cons, Text.after?_cons_cons]
      rcases optionRel_iff.1 (h.after? hword) with ⟨ht, hu⟩ | ⟨r, s, ht, hu, hrest⟩
      · rw [ht, hu]
        exact .none
      · rw [ht, hu, Option.filter, Option.filter, hrest.isWord_head?_eq]
        split
        · exact .some hrest
        · exact .none
    · have hnone (r : Text) : Text.after? (':' :: word) (c :: r) = none :=
        Text.after?_eq_none_of_head? (c := ':') rfl (by simpa using hc)
      rw [hnone, hnone]
      exact .none
  exact optionRel_or (optionRel_map (hafter .global) fun _ _ hrest ↦ ⟨rfl, hrest⟩)
    (optionRel_map (hafter .sheet) fun _ _ hrest ↦ ⟨rfl, hrest⟩)

/-! ### Brackets -/

/-- What is inside a bracket is in lockstep, and so is what follows it. -/
def SameSplit (asides : Asides) (x y : Text × Text) : Prop :=
  Lockstep asides x.1 y.1 ∧ Lockstep asides x.2 y.2

/-- The scanner for a bracket's end takes a character. The texts it collects may have any common
text `s` in front, such as a backslash that was taken before. -/
theorem splitAtClose_cons {o c x : Char} {s : Text} (hoc : o ≠ c)
    (hextend : ∀ i j, Lockstep asides i j → Lockstep asides (s ++ x :: i) (s ++ x :: j))
    (hrest : Lockstep asides t u)
    (h : ∀ d, Option.Rel (SameSplit asides) (splitAtClose o c d t) (splitAtClose o c d u))
    (d : Nat) :
    Option.Rel (SameSplit asides)
      ((splitAtClose o c d (x :: t)).map fun (i, rest) ↦ (s ++ i, rest))
      ((splitAtClose o c d (x :: u)).map fun (i, rest) ↦ (s ++ i, rest)) := by
  have hstep (d : Nat) : Option.Rel (SameSplit asides)
      (((splitAtClose o c d t).map fun (i, rest) ↦ (x :: i, rest)).map
        fun (i, rest) ↦ (s ++ i, rest))
      (((splitAtClose o c d u).map fun (i, rest) ↦ (x :: i, rest)).map
        fun (i, rest) ↦ (s ++ i, rest)) := by
    rw [Option.map_map, Option.map_map]
    exact optionRel_map (h d) fun _ _ hsplit ↦ ⟨hextend _ _ hsplit.1, hsplit.2⟩
  by_cases ho : x = o
  · subst ho
    rw [splitAtClose_cons_opening, splitAtClose_cons_opening]
    exact hstep (d + 1)
  · by_cases hc : x = c
    · subst hc
      cases d with
      | zero =>
        have hclose (r : Text) : splitAtClose o x 0 (x :: r) = some ([], r) := by
          simp [Stylesheet.splitAtClose, ho]
        rw [hclose, hclose]
        exact .some ⟨refl _, hrest⟩
      | succ d =>
        rw [splitAtClose_cons_closing hoc, splitAtClose_cons_closing hoc]
        exact hstep d
    · rw [splitAtClose_cons_other ho hc, splitAtClose_cons_other ho hc]
      exact hstep d

/-- **Texts in lockstep have their brackets at the same places.** -/
theorem splitAtClose {o c : Char} (hoc : o ≠ c) (ho : Selector.isBracket o = true)
    (hc : Selector.isBracket c = true) (h : Lockstep asides t u) (d : Nat) :
    Option.Rel (SameSplit asides) (splitAtClose o c d t) (splitAtClose o c d u) := by
  have hslash : '\\' ≠ o ∧ '\\' ≠ c :=
    ⟨(Text.ne_of_pos_of_neg ho (by decide)).symm, (Text.ne_of_pos_of_neg hc (by decide)).symm⟩
  induction h generalizing d with
  | nil => cases d <;> exact .none
  | @aside g h t u hgh ht hu hrest ih =>
    obtain ⟨f, hg, hh⟩ := asides.isAside hgh
    have hskip {f : Scope → Scope} {g : Text} (hg : IsAside asides.Follows f g) (t : Text) :
        Stylesheet.splitAtClose o c d (g ++ t) =
          (Stylesheet.splitAtClose o c d t).map fun (i, rest) ↦ (g ++ i, rest) := by
      refine splitAtClose_append_of_not_mem hoc (fun hmem ↦ ?_) fun hmem ↦ ?_
      · exact Text.ne_of_pos_of_neg ho (hg.isBracket_of_mem _ hmem) rfl
      · exact Text.ne_of_pos_of_neg hc (hg.isBracket_of_mem _ hmem) rfl
    rw [hskip hg, hskip hh]
    rcases optionRel_iff.1 (ih d) with ⟨ht', hu'⟩ | ⟨x, y, ht', hu', hinside, hbehind⟩
    · rw [ht', hu']
      exact .none
    · -- what follows an aside inside the bracket begins as what follows it in the text
      have hfollows {t : Text} {x : Text × Text} (ht : asides.Follows t)
          (hx : Stylesheet.splitAtClose o c d t = some x) : asides.Follows x.1 :=
        asides.follows_of_prefix ⟨_, append_of_splitAtClose hx⟩ ht
      rw [ht', hu']
      exact .some ⟨aside hgh (hfollows ht ht') (hfollows hu hu') hinside, hbehind⟩
  | @escape x t u hrest ih =>
    rw [splitAtClose_cons_other hslash.1 hslash.2, splitAtClose_cons_other hslash.1 hslash.2]
    exact splitAtClose_cons (s := ['\\']) hoc (fun _ _ ↦ escape x) hrest ih d
  | backslash =>
    rw [splitAtClose_cons_other hslash.1 hslash.2]
    cases d <;> exact .none
  | @plain x t u hx hrest ih =>
    have hid (y : Option (Text × Text)) : y.map (fun (i, rest) ↦ ([] ++ i, rest)) = y :=
      congrFun Option.map_id y
    rw [← hid (Stylesheet.splitAtClose o c d (x :: t)),
      ← hid (Stylesheet.splitAtClose o c d (x :: u))]
    exact splitAtClose_cons (s := []) hoc (fun _ _ ↦ plain hx) hrest ih d

/-! ### Pieces -/

/-- The same piece; the text inside a group is in lockstep. -/
inductive SamePiece (asides : Asides) : Piece → Piece → Prop
  | group (scope : Scope) {i j : Text} : Lockstep asides i j →
      SamePiece asides (.group scope i) (.group scope j)
  | refl (piece : Piece) : SamePiece asides piece piece

/-- The same piece comes next, and the rests are in lockstep. -/
def SameNext (asides : Asides) (x y : Piece × Text) : Prop :=
  SamePiece asides x.1 y.1 ∧ Lockstep asides x.2 y.2

variable {selector selector' : Text}

theorem bracket_agree {o c : Char} (hoc : o ≠ c) (ho : Selector.isBracket o = true)
    (hc : Selector.isBracket c = true) (h : Lockstep asides t u) :
    Agree (SameSplit asides) (Piece.bracket selector o c t) (Piece.bracket selector' o c u) := by
  rw [Piece.bracket, Piece.bracket]
  rcases optionRel_iff.1 (h.splitAtClose hoc ho hc 0) with ⟨ht, hu⟩ | ⟨x, y, ht, hu, hparts⟩
  · rw [ht, hu]
    exact .error _ _
  · rw [ht, hu]
    exact .ok hparts

/-- **The same piece comes next** behind the same character, unless that is a backslash. -/
theorem next_agree {c : Char} (hc : c ≠ '\\') (h : Lockstep asides t u) :
    Agree (SameNext asides) (Piece.next selector c t) (Piece.next selector' c u) := by
  rcases optionRel_iff.1 (h.scope_scan? (c := c)) with
    ⟨ht, hu⟩ | ⟨⟨scope, rest⟩, ⟨scope', rest'⟩, ht, hu, hscope, hrest⟩
  · by_cases hopen : c = '['
    · subst hopen
      rw [Piece.next_attribute, Piece.next_attribute]
      exact (bracket_agree (by decide) (by decide) (by decide) h).map fun _ _ hsplit ↦
        ⟨.refl .other, hsplit.2⟩
    · by_cases hmark : c = '.' ∨ c = '#'
      · rw [Piece.next_mark hmark, Piece.next_mark hmark]
        rcases optionRel_iff.1 h.scan? with
          ⟨ht, hu⟩ | ⟨⟨raw, rest⟩, ⟨raw', rest'⟩, ht, hu, hraw, hrest⟩
        · rw [ht, hu]
          exact .ok ⟨.refl .other, h⟩
        · obtain rfl : raw = raw' := hraw
          rw [ht, hu]
          exact .ok ⟨.refl (.name raw), hrest⟩
      · rw [Piece.next_of_scan?_eq_none ht, Piece.next_of_scan?_eq_none hu]
        simp only [if_neg hopen, if_neg hc, if_neg hmark]
        exact .ok ⟨.refl .other, h⟩
  · obtain rfl : scope = scope' := hscope
    have hswitch (h₁ : '(' ∉ rest.head?) (h₂ : '(' ∉ rest'.head?) :
        Agree (SameNext asides) (Piece.next selector c t) (Piece.next selector' c u) := by
      rw [Piece.next_switch ht h₁, Piece.next_switch hu h₂]
      exact .ok ⟨.refl (.switch scope), hrest⟩
    cases hrest with
    | nil => exact hswitch (by simp) (by simp)
    | aside hgh hfollows hfollows' _ =>
      obtain ⟨hg, hh⟩ := stops_aside hgh hfollows hfollows'
      exact hswitch (fun hmem ↦ (hg _ hmem).2.2 rfl) fun hmem ↦ (hh _ hmem).2.2 rfl
    | escape d _ => exact hswitch (by simp) (by simp)
    | backslash => exact hswitch (by simp) (by simp)
    | @plain d _ _ _ hinside =>
      by_cases hd : d = '('
      · subst hd
        rw [Piece.next_group ht, Piece.next_group hu]
        exact (bracket_agree (by decide) (by decide) (by decide) hinside).map
          fun _ _ hsplit ↦ ⟨.group scope hsplit.1, hsplit.2⟩
      · exact hswitch (by simpa using hd) (by simpa using hd)

/-! ### Names -/

/-- **Texts in lockstep list the same names**, or both have a fault. The induction is on the length
of both texts together: what is inside a group is scanned as well, and one of two asides may be
empty. -/
theorem namesFrom_agree {scope : Scope} (h : Lockstep asides t u) :
    Agree (· = ·) (Selector.namesFrom selector scope t) (Selector.namesFrom selector' scope u) := by
  obtain ⟨n, hn⟩ : ∃ n, t.length + u.length = n := ⟨_, rfl⟩
  induction n using Nat.strong_induction_on generalizing t u selector selector' scope with
  | _ n ih =>
    subst hn
    cases h with
    | nil =>
      rw [Selector.namesFrom_nil, Selector.namesFrom_nil]
      exact .ok rfl
    | @aside g h t u hgh ht hu hrest =>
      obtain ⟨f, hg, hh⟩ := asides.isAside hgh
      have hlength := List.length_pos_iff.2 (asides.ne_nil hgh)
      rw [List.length_append] at hlength
      rw [hg.reads ht, hh.reads hu]
      exact ih (t.length + u.length) (by simp only [List.length_append]; omega) hrest rfl
    | @escape c t u hrest =>
      have hskip {selector : Text} (r : Text) : Selector.namesFrom selector scope ('\\' :: c :: r) =
          Selector.namesFrom selector scope r :=
        Selector.namesFrom_of_other Piece.next_backslash
      rw [hskip, hskip]
      exact ih (t.length + u.length) (by simp only [List.length_cons]; omega) hrest rfl
    | backslash =>
      have hend {selector : Text} : Selector.namesFrom selector scope ['\\'] = .ok [] :=
        (Selector.namesFrom_of_other Piece.next_backslash).trans Selector.namesFrom_nil
      rw [hend, hend]
      exact .ok rfl
    | @plain c t u hc hrest =>
      have hnext : Agree (SameNext asides) (Piece.next selector c t) (Piece.next selector' c u) :=
        next_agree hc hrest
      rw [Selector.namesFrom_cons, Selector.namesFrom_cons]
      refine hnext.bind_of_both fun ⟨piece, rest⟩ ⟨piece', rest'⟩ ht hu ⟨hpiece, hrest⟩ ↦ ?_
      have hlength := Piece.length_le_of_next ht
      have hlength' := Piece.length_le_of_next hu
      have hothers (scope : Scope) : Agree (· = ·) (Selector.namesFrom selector scope rest)
          (Selector.namesFrom selector' scope rest') :=
        ih (rest.length + rest'.length) (by simp only [List.length_cons]; omega) hrest rfl
      cases hpiece with
      | refl =>
        refine Agree.append ?_ (hothers _)
        cases piece.names scope with
        | error fault => exact .error _ _
        | ok names => exact .ok rfl
      | @group scope' i j hinside =>
        refine Agree.append ?_ (hothers scope)
        cases scope' with
        | sheet =>
          simp only [Piece.insideLength] at hlength hlength'
          exact ih (i.length + j.length) (by simp only [List.length_cons]; omega) hinside rfl
        | global => exact .ok rfl

end Lockstep

end CssTypings.Stylesheet

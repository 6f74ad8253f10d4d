import CssTypings.Proofs.Collect
import CssTypings.Proofs.Json.RoundTrip
import CssTypings.Proofs.Text.Ends
import Mathlib.Data.List.TakeDrop

/-!
# Text in front of an object

A line that was cut short and an object behind it on the same line are no value together, whatever
the cut line is: `IsWhole.read_append_ne_ok`.

The object is in one piece and at the end, so an opening brace that is taken before it is one of the
text in front. What the reader takes without such a brace, it takes in front of the object
(`IsWhole.suffix_of_spares`). There are two ways to come to the brace of the object.

* A value starts there. Then the value is the object, nothing is left, and whatever was open in
  front stays open.
* A quoted text is open. It ends at the first quote of the object, and the name behind that quote is
  neither a mark nor a value (`Stuck`).

Which of these can be is said for values, items and members at once (`ReadsPast`), by induction on
the fuel. That an object which was printed ends where its reading ends, whatever fuel is left for
it, is the last part (`isWhole_printMembers`).
-/

namespace CssTypings.Json

variable {object t rest : Text}

/-! ### What is taken without a brace -/

/-- The rest is what is left of the text when something without an opening brace is taken off. -/
def Spares (t rest : Text) : Prop := ∃ taken, taken ++ rest = t ∧ '\x7b' ∉ taken

namespace Spares

theorem refl (t : Text) : Spares t t := ⟨[], rfl, List.not_mem_nil⟩

theorem append {taken : Text} (htaken : '\x7b' ∉ taken) (rest : Text) :
    Spares (taken ++ rest) rest :=
  ⟨taken, rfl, htaken⟩

theorem cons {c : Char} (hc : c ≠ '\x7b') (rest : Text) : Spares (c :: rest) rest :=
  ⟨[c], rfl, by simpa using hc.symm⟩

theorem trans {s : Text} (hs : Spares s t) (ht : Spares t rest) : Spares s rest := by
  obtain ⟨first, rfl, hfirst⟩ := hs
  obtain ⟨second, rfl, hsecond⟩ := ht
  refine ⟨first ++ second, List.append_assoc _ _ _, ?_⟩
  rw [List.mem_append]
  exact not_or.2 ⟨hfirst, hsecond⟩

theorem dropWhile {p : Char → Bool} (hp : p '\x7b' = false) (t : Text) :
    Spares t (t.dropWhile p) := by
  refine ⟨t.takeWhile p, List.takeWhile_append_dropWhile, fun hmem ↦ ?_⟩
  rw [List.mem_takeWhile_imp hmem] at hp
  cases hp

theorem skipBlanks (t : Text) : Spares t (skipBlanks t) := dropWhile (by decide) t

theorem of_span {digits : Text} (h : t.span Text.isDigit = (digits, rest)) : Spares t rest := by
  rw [List.span_eq_takeWhile_dropWhile] at h
  rw [← (Prod.mk.inj h).2]
  exact dropWhile (by decide) t

theorem fractionOf (t : Text) : Spares t (fractionOf t).2 := by
  unfold Json.fractionOf
  split
  · next r =>
    split
    · exact refl _
    · next h => exact (cons (by decide) r).trans (of_span h)
  · exact refl _

theorem exponentOf (t : Text) : Spares t (exponentOf t).2 := by
  unfold Json.exponentOf
  split
  · next c r =>
    split
    · next hmark =>
      have hbehind : Spares (c :: r) r := cons (by rintro rfl; simp at hmark) r
      split
      next sign behind hsign =>
        have hsigned : Spares r behind := by
          split at hsign <;> cases hsign
          · exact cons (by decide) _
          · exact cons (by decide) _
          · exact refl _
        split
        · exact refl _
        · next h => exact hbehind.trans (hsigned.trans (of_span h))
    · exact refl _
  · exact refl _

theorem readNumber {value : Json} (h : readNumber t = .ok (value, rest)) : Spares t rest := by
  unfold Json.readNumber at h
  split at h
  next negative unsigned hsign =>
    have hunsigned : Spares t unsigned := by
      split at hsign <;> cases hsign
      · exact cons (by decide) _
      · exact refl _
    split at h
    next whole behind hwhole =>
      have hbehind : Spares unsigned behind := by
        split at hwhole
        · cases hwhole
          exact cons (by decide) _
        · exact of_span hwhole
      have hfraction := fractionOf behind
      have hexponent := exponentOf (Json.fractionOf behind).2
      have hrest : (Json.exponentOf (Json.fractionOf behind).2).2 = rest := by
        split at h
        · cases h
        dsimp only at h
        split at h
        · split at h <;> cases h
          rfl
        · split at h <;> cases h
          rfl
      rw [← hrest]
      exact hunsigned.trans (hbehind.trans (hfraction.trans hexponent))

theorem readWord? {value : Json} (h : readWord? t = some (value, rest)) : Spares t rest := by
  obtain ⟨⟨word, _⟩, hword, hafter⟩ := List.exists_of_findSome?_eq_some h
  obtain ⟨_, hrest, hpair⟩ := Option.map_eq_some_iff.1 hafter
  obtain ⟨-, rfl⟩ := Prod.mk.inj hpair
  have hbrace : ∀ entry ∈ words, '\x7b' ∉ entry.1 := by decide
  rw [Text.eq_append_of_after? hrest]
  exact append (hbrace _ hword) _

end Spares

/-! ### An object behind other text -/

/-- The text goes on with a letter, which neither ends a value nor stands between values. -/
def Stuck (t : Text) : Prop := ∃ c ∈ t.head?, Text.isLetter c = true

theorem skipBlanks_cons {c : Char} (hc : Text.isBlank c = false) (t : Text) :
    skipBlanks (c :: t) = c :: t := by
  have hne {d : Char} (hd : Text.isBlank d = true) : c ≠ d := (Text.ne_of_pos_of_neg hd hc).symm
  refine List.dropWhile_cons_of_neg ?_
  simp [hne (d := ' ') (by decide), hne (d := '\t') (by decide), hne (d := '\n') (by decide),
    hne (d := '\r') (by decide)]

theorem Stuck.skipBlanks_eq (h : Stuck t) : skipBlanks t = t := by
  obtain ⟨c, hc, hletter⟩ := h
  obtain ⟨r, rfl⟩ := List.head?_eq_some_iff.1 hc
  exact skipBlanks_cons
    (Text.not_isBlank_of_isWordOrHyphen (Text.isWordOrHyphen_of_isLetter hletter)) r

/-- An object that starts with a quoted name, and is read up to its end or not at all. -/
structure IsWhole (object : Text) : Prop where
  exists_eq : ∃ r, object = '\x7b' :: '"' :: r ∧ Stuck r
  rest_eq_nil : ∀ {fuel room value rest}, readValue fuel room object = .ok (value, rest) → rest = []

/-- Nothing of the object was taken, or only the quote of its first name, so that the text goes on
with a letter of the name. -/
def Pending (object rest : Text) : Prop := object <:+ rest ∨ Stuck rest

theorem hexValue?_eq_none {digits : Text} (hmem : '\x7b' ∈ digits) : hexValue? digits = none := by
  have hfold (digits : Text) (hmem : '\x7b' ∈ digits) (n : Nat) :
      digits.foldlM (fun n c ↦ (Text.hexValue? c).map (n * 16 + ·)) n = none := by
    induction digits generalizing n with
    | nil => cases hmem
    | cons c digits ih =>
      rw [List.foldlM_cons]
      rcases List.mem_cons.1 hmem with rfl | hmem
      · rfl
      · cases Text.hexValue? c with
        | none => rfl
        | some d => exact ih hmem _
  exact hfold digits hmem 0

theorem exists_of_bind_parts? {f : List Part → List Part} {ps : List Part}
    (h : (parts? t >>= fun (parts, rest) ↦ pure (f parts, rest)) = some (ps, rest)) :
    ∃ parts, parts? t = some (parts, rest) := by
  obtain ⟨⟨parts, _⟩, hparts, hpair⟩ := Option.bind_eq_some_iff.1 h
  obtain ⟨-, rfl⟩ := Prod.mk.inj (Option.some.inj hpair)
  exact ⟨parts, hparts⟩

namespace IsWhole

variable (h : IsWhole object)
include h

/-- What was taken without an opening brace was taken in front of the object. -/
theorem suffix_of_spares (ht : object <:+ t) (hrest : Spares t rest) : object <:+ rest := by
  obtain ⟨r, rfl, -⟩ := h.exists_eq
  obtain ⟨taken, rfl, htaken⟩ := hrest
  rcases List.suffix_or_suffix_of_suffix ht (List.suffix_append taken rest) with hrest | hrest
  · exact hrest
  · obtain ⟨front, hfront⟩ := hrest
    cases front with
    | nil =>
      rw [← hfront]
      exact List.suffix_rfl
    | cons c front =>
      obtain ⟨rfl, -⟩ := List.cons.inj hfront
      rw [← hfront] at ht
      obtain ⟨before, hbefore⟩ := ht
      rw [← List.append_assoc] at hbefore
      refine absurd ?_ htaken
      rw [← List.append_cancel_right hbefore]
      simp

/-- What the reader takes as a mark between values stands in front of the object. -/
theorem suffix_of_mark (hpending : Pending object rest) {c : Char} {r : Text}
    (hskip : skipBlanks rest = c :: r) (hletter : Text.isLetter c = false) (hc : c ≠ '\x7b') :
    object <:+ r := by
  rcases hpending with hrest | hstuck
  · have hbehind := h.suffix_of_spares hrest (Spares.skipBlanks rest)
    rw [hskip] at hbehind
    exact h.suffix_of_spares hbehind (Spares.cons hc r)
  · rw [hstuck.skipBlanks_eq] at hskip
    obtain ⟨d, hd, hd'⟩ := hstuck
    obtain rfl : c = d := by simpa [hskip] using hd
    rw [hletter] at hd'
    cases hd'

theorem skipBlanks_ne_nil (hpending : Pending object rest) : skipBlanks rest ≠ [] := by
  rcases hpending with hrest | hstuck
  · obtain ⟨r, rfl, -⟩ := h.exists_eq
    have hbehind := h.suffix_of_spares hrest (Spares.skipBlanks rest)
    intro hnil
    rw [hnil] at hbehind
    exact absurd (List.suffix_nil.1 hbehind) (by simp)
  · rw [hstuck.skipBlanks_eq]
    rintro rfl
    obtain ⟨c, hc, -⟩ := hstuck
    cases hc

theorem pending_of_parts? {ps : List Part} (ht : object <:+ t) (hparts : parts? t = some (ps, rest)) :
    Pending object rest := by
  fun_induction parts? t generalizing ps rest with
  | case1 => cases hparts
  | case2 r =>
    cases hparts
    exact Or.inl (h.suffix_of_spares ht (Spares.cons (by decide) _))
  | case3 a b c d r ih =>
    obtain ⟨n, hn, hparts⟩ := Option.bind_eq_some_iff.1 hparts
    obtain ⟨ps', hr⟩ := exists_of_bind_parts? hparts
    have hbrace : '\x7b' ∉ ['\\', 'u', a, b, c, d] := fun hmem ↦ by
      have hdigits : '\x7b' ∈ [a, b, c, d] := by simpa using hmem
      rw [hexValue?_eq_none hdigits] at hn
      cases hn
    exact ih (h.suffix_of_spares ht (Spares.append hbrace r)) hr
  | case4 c r _ ih =>
    obtain ⟨d, hd, hparts⟩ := Option.bind_eq_some_iff.1 hparts
    obtain ⟨ps', hr⟩ := exists_of_bind_parts? hparts
    have hbrace : '\x7b' ∉ ['\\', c] := fun hmem ↦ by
      obtain rfl : '\x7b' = c := by simpa using hmem
      cases hd
    exact ih (h.suffix_of_spares ht (Spares.append hbrace r)) hr
  | case5 => cases hparts
  | case6 c r _ _ _ _ ih =>
    obtain ⟨ps', hr⟩ := exists_of_bind_parts? hparts
    rcases List.suffix_cons_iff.1 ht with hobject | ht
    · -- the quoted text ends with the quote of the object's first name
      obtain ⟨behind, rfl, hstuck⟩ := h.exists_eq
      obtain ⟨rfl, rfl⟩ := List.cons.inj hobject
      rw [parts?] at hr
      cases hr
      exact Or.inr hstuck
    · exact ih ht hr

theorem pending_of_readText {content : Codes} (ht : object <:+ t)
    (htext : readText t = .ok (content, rest)) : Pending object rest := by
  unfold readText at htext
  split at htext
  · next hparts =>
    cases htext
    exact h.pending_of_parts? ht hparts
  · cases htext

end IsWhole

/-! ### Values in front of an object -/

/-- What the reader leaves of a text that ends with the object: a value that does not start where
the object does leaves the object, or a part of it that nothing can be read from, and so items and
members leave the object. -/
structure ReadsPast (object : Text) (fuel : Nat) : Prop where
  value : ∀ {room t value rest}, object <:+ t → readValue fuel room t = .ok (value, rest) →
    Pending object rest ∨ t = object ∧ rest = []
  items : ∀ {room t items rest}, object <:+ t → readItems fuel room t = .ok (items, rest) →
    object <:+ rest
  members : ∀ {room former t members rest}, object <:+ t →
    readMembers fuel room former t = .ok (members, rest) → object <:+ rest

namespace IsWhole

variable (h : IsWhole object) {fuel room : Nat} (ih : ReadsPast object fuel)
include h ih

theorem pending_of_readValue {value : Json} (ht : object <:+ t)
    (hread : readValue (fuel + 1) room t = .ok (value, rest)) :
    Pending object rest ∨ t = object ∧ rest = [] := by
  by_cases hself : t = object
  · rw [hself] at hread
    exact Or.inr ⟨hself, h.rest_eq_nil hread⟩
  refine Or.inl ?_
  unfold readValue at hread
  split at hread
  · next r =>
    have hr := h.suffix_of_spares ht (Spares.cons (by decide) r)
    obtain ⟨⟨content, behind⟩, htext, hread⟩ := exists_of_bind_eq_ok hread
    cases hread
    exact h.pending_of_readText hr htext
  · next r =>
    have hr := h.suffix_of_spares ht (Spares.cons (by decide) r)
    split at hread
    · cases hread
    · next hskip =>
      cases hread
      exact Or.inl (h.suffix_of_mark (Or.inl hr) hskip (by decide) (by decide))
    · obtain ⟨⟨items, behind⟩, hitems, hread⟩ := exists_of_bind_eq_ok hread
      cases hread
      exact Or.inl (ih.items (h.suffix_of_spares hr (Spares.skipBlanks r)) hitems)
  · next r =>
    have hr := (List.suffix_cons_iff.1 ht).resolve_left (Ne.symm hself)
    split at hread
    · cases hread
    · next hskip =>
      cases hread
      exact Or.inl (h.suffix_of_mark (Or.inl hr) hskip (by decide) (by decide))
    · obtain ⟨⟨members, behind⟩, hmembers, hread⟩ := exists_of_bind_eq_ok hread
      cases hread
      exact Or.inl (ih.members (h.suffix_of_spares hr (Spares.skipBlanks r)) hmembers)
  · split at hread
    · next hword =>
      cases hread
      exact Or.inl (h.suffix_of_spares ht (Spares.readWord? hword))
    · exact Or.inl (h.suffix_of_spares ht (Spares.readNumber hread))

/-- A value that is followed by a mark was read in front of the object. -/
theorem suffix_behind_value {value : Json} {c : Char} {r : Text} (ht : object <:+ t)
    (hread : readValue fuel room t = .ok (value, rest)) (hskip : skipBlanks rest = c :: r)
    (hletter : Text.isLetter c = false) (hc : c ≠ '\x7b') : object <:+ r := by
  rcases ih.value ht hread with hpending | ⟨-, rfl⟩
  · exact h.suffix_of_mark hpending hskip hletter hc
  · cases hskip

theorem suffix_of_readItems {items : List Json} (ht : object <:+ t)
    (hread : readItems (fuel + 1) room t = .ok (items, rest)) : object <:+ rest := by
  unfold readItems at hread
  obtain ⟨⟨item, behind⟩, hitem, hread⟩ := exists_of_bind_eq_ok hread
  dsimp only at hread
  split at hread
  · next hskip =>
    cases hread
    exact h.suffix_behind_value ih ht hitem hskip (by decide) (by decide)
  · next r hskip =>
    have hr := h.suffix_behind_value ih ht hitem hskip (by decide) (by decide)
    obtain ⟨⟨others, behind⟩, hothers, hread⟩ := exists_of_bind_eq_ok hread
    cases hread
    exact ih.items (h.suffix_of_spares hr (Spares.skipBlanks r)) hothers
  · cases hread

theorem suffix_of_readMembers {former members : List (Codes × Json)} (ht : object <:+ t)
    (hread : readMembers (fuel + 1) room former t = .ok (members, rest)) : object <:+ rest := by
  unfold readMembers at hread
  split at hread
  · next r =>
    have hr := h.suffix_of_spares ht (Spares.cons (by decide) r)
    obtain ⟨⟨name, behindName⟩, hname, hread⟩ := exists_of_bind_eq_ok hread
    dsimp only at hread
    split at hread
    · next r hcolon =>
      have hr := h.suffix_of_mark (h.pending_of_readText hr hname) hcolon (by decide) (by decide)
      have hvalueStart := h.suffix_of_spares hr (Spares.skipBlanks r)
      obtain ⟨⟨value, behindValue⟩, hvalue, hread⟩ := exists_of_bind_eq_ok hread
      dsimp only at hread
      split at hread
      · next hskip =>
        cases hread
        exact h.suffix_behind_value ih hvalueStart hvalue hskip (by decide) (by decide)
      · next r hskip =>
        have hr := h.suffix_behind_value ih hvalueStart hvalue hskip (by decide) (by decide)
        exact ih.members (h.suffix_of_spares hr (Spares.skipBlanks r)) hread
      · cases hread
    · cases hread
  · cases hread

omit ih

/-- **Reading goes past an object only as a whole.** -/
theorem readsPast (fuel : Nat) : ReadsPast object fuel := by
  induction fuel with
  | zero => constructor <;> (intros; contradiction)
  | succ fuel ih =>
    exact ⟨h.pending_of_readValue ih, h.suffix_of_readItems ih, h.suffix_of_readMembers ih⟩

/-- **Text in front of an object spoils it**: both together are no value. -/
theorem read_append_ne_ok {c : Char} (hc : Text.isBlank c = false) (front : Text) (value : Json) :
    Json.read (c :: front ++ object) ≠ .ok value := by
  intro hread
  unfold Json.read at hread
  rw [List.cons_append, skipBlanks_cons hc, ← List.cons_append] at hread
  obtain ⟨⟨first, rest⟩, hfirst, hread⟩ := exists_of_bind_eq_ok hread
  dsimp only at hread
  split at hread
  · next hrest =>
    rcases (h.readsPast _).value (List.suffix_append _ object) hfirst with hpending | ⟨hself, -⟩
    · exact h.skipBlanks_ne_nil hpending hrest
    · exact absurd (List.append_left_eq_self.1 hself) (List.cons_ne_nil _ _)
  · cases hread

end IsWhole

/-! ### Printed objects -/

/-- Each member takes a step of the reader, and its value one more. -/
theorem readMembers_of_le {members : List (Text × Text)} {fields : List (Codes × Json)}
    (h : List.Forall₂ WritesMember members fields) {fuel : Nat} (hfuel : fuel ≤ members.length)
    (hne : members ≠ []) (room : Nat) (former : List (Codes × Json)) (rest : Text) :
    readMembers fuel room former (printMembers members ++ '\x7d' :: rest) = .error .syntaxError := by
  induction h generalizing fuel former with
  | nil => exact absurd rfl hne
  | @cons first field members fields hfirst hothers ih =>
    match fuel with
    | 0 => rfl
    | 1 =>
      obtain ⟨behind, hbehind⟩ : ∃ behind, printMembers (first :: members) ++ '\x7d' :: rest =
          printMember first ++ behind := by
        cases members with
        | nil => exact ⟨'\x7d' :: rest, by rw [printMembers_singleton]⟩
        | cons second members =>
          rw [printMembers_cons_cons, List.append_assoc, List.append_assoc]
          exact ⟨_, rfl⟩
      have hcolon : skipBlanks (": ".toList ++ (first.2 ++ behind)) =
          ':' :: ' ' :: (first.2 ++ behind) := rfl
      rw [hbehind, printMember, List.append_assoc, List.append_assoc, printText_append, readMembers,
        readText_printed]
      simp only [bind, Except.bind, hcolon]
      rfl
    | fuel + 2 =>
      cases hothers with
      | nil => exact absurd hfuel (by simp)
      | @cons second field' members fields hsecond hothers =>
        rw [readMembers_printMembers_cons_cons hfirst]
        exact ih (by simp at hfuel ⊢; omega) (by simp) _

/-- **A printed object is whole** if its first name starts with a letter. -/
theorem isWhole_printMembers {members : List (Text × Text)} {fields : List (Codes × Json)}
    (h : List.Forall₂ WritesMember members fields)
    (hletter : ∃ r, printMembers members ++ ['\x7d'] = '"' :: r ∧ Stuck r) :
    IsWhole ('\x7b' :: printMembers members ++ ['\x7d']) where
  exists_eq := by
    obtain ⟨r, hr, hstuck⟩ := hletter
    exact ⟨r, by rw [List.cons_append, hr], hstuck⟩
  rest_eq_nil {fuel room value rest} hread := by
    obtain ⟨r, hr, -⟩ := hletter
    have hne : members ≠ [] := by
      rintro rfl
      cases hr
    match fuel, room with
    | 0, _ => cases hread
    | fuel + 1, 0 =>
      rw [List.cons_append, hr, readValue] at hread
      cases hread
    | fuel + 1, room + 1 =>
      rw [List.cons_append, hr, readValue_object, ← hr] at hread
      obtain ⟨⟨former, behind⟩, hmembers, hpair⟩ := exists_of_map_eq_ok hread
      obtain ⟨-, rfl⟩ := Prod.mk.inj hpair
      by_cases hfuel : fuel ≤ members.length
      · rw [readMembers_of_le h hfuel hne] at hmembers
        cases hmembers
      · rw [readMembers_printMembers h hne (by omega)] at hmembers
        cases hmembers
        rfl

end CssTypings.Json

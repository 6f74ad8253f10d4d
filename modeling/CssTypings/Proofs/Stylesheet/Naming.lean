import CssTypings.Proofs.Text.Ends
import CssTypings.Stylesheet.Identifier

/-!
# Spelling a name and reading it back

A name is spelled character by character: word characters and hyphens as they are, everything else
behind a backslash. `scan?_spell_append` reads a spelled name back whole, over any rest that does
not go on with it, and `unescape_spell` gives the name itself.

What can be spelled is decided by the first character that is not a leading hyphen: it must not be a
word character other than a letter of ASCII or an underscore, since those are neither allowed to
begin an identifier nor escaped. The identifiers without escapes (`Ident`) are the names that are
their own spelling.
-/

namespace CssTypings.Stylesheet.Identifier

open Text

/-! ### Spelling -/

/-- One character of a name as it is written in a selector. -/
def spellChar (c : Char) : Text := if isWordOrHyphen c then [c] else ['\\', c]

/-- A name as it is written in a selector. -/
def spell (name : Text) : Text := name.flatMap spellChar

theorem spell_cons_of_word {c : Char} (hc : isWordOrHyphen c = true) (name : Text) :
    spell (c :: name) = c :: spell name := by
  simp [spell, spellChar, hc]

theorem spell_cons_of_not_word {c : Char} (hc : isWordOrHyphen c = false) (name : Text) :
    spell (c :: name) = '\\' :: c :: spell name := by
  simp [spell, spellChar, hc]

theorem spell_eq_self {name : Text} (h : ∀ c ∈ name, isWordOrHyphen c = true) :
    spell name = name := by
  induction name with
  | nil => rfl
  | cons c name ih =>
    rw [spell_cons_of_word (h c List.mem_cons_self), ih fun d hd ↦ h d (List.mem_cons_of_mem _ hd)]

/-- A spelled name has the characters of the name, and backslashes. -/
theorem eq_or_mem_of_mem_spell {c : Char} {name : Text} (hc : c ∈ spell name) :
    c = '\\' ∨ c ∈ name := by
  obtain ⟨d, hd, hc⟩ := List.mem_flatMap.1 hc
  unfold spellChar at hc
  split at hc
  · rw [List.mem_singleton.1 hc]
    exact Or.inr hd
  · rcases List.mem_cons.1 hc with rfl | hc
    · exact Or.inl rfl
    · rw [List.mem_singleton.1 hc]
      exact Or.inr hd

theorem count_comma_spell (name : Text) : (spell name).count ',' = name.count ',' := by
  induction name with
  | nil => rfl
  | cons c name ih =>
    cases hc : isWordOrHyphen c with
    | true => rw [spell_cons_of_word hc, List.count_cons, List.count_cons, ih]
    | false =>
      rw [spell_cons_of_not_word hc, List.count_cons_of_ne (by decide), List.count_cons,
        List.count_cons, ih]

/-- **Unescaping undoes spelling.** -/
theorem unescape_spell (name : Text) : unescape (spell name) = name := by
  induction name with
  | nil => rfl
  | cons c name ih =>
    cases hc : isWordOrHyphen c with
    | true =>
      rw [spell_cons_of_word hc, unescape, ih]
      rintro d r rfl
      exact absurd rfl (ne_of_pos_of_neg hc (by decide))
    | false => rw [spell_cons_of_not_word hc, unescape, ih]

/-! ### Reading back -/

/-- The text does not go on with a name that stands in front of it. -/
def EndsName (rest : Text) : Prop := ∀ c ∈ rest.head?, isWordOrHyphen c = false ∧ c ≠ '\\'

theorem endsName_nil : EndsName [] := by simp [EndsName]

theorem endsName_cons {c : Char} {r : Text} :
    EndsName (c :: r) ↔ isWordOrHyphen c = false ∧ c ≠ '\\' := by
  simp [EndsName]

theorem scanTail_of_endsName {rest : Text} (h : EndsName rest) : scanTail rest = ([], rest) := by
  cases rest with
  | nil => rfl
  | cons c r =>
    obtain ⟨hword, hslash⟩ := endsName_cons.1 h
    rw [scanTail, hword]
    · rfl
    · rintro d r' rfl
      exact absurd rfl hslash

theorem scanPlain?_of_endsName {rest : Text} (h : EndsName rest) : scanPlain? rest = none := by
  cases rest with
  | nil => rfl
  | cons c r =>
    obtain ⟨hword, hslash⟩ := endsName_cons.1 h
    have hletter : ¬ isLetter c = true := fun hletter ↦ by
      rw [isWordOrHyphen_of_isLetter hletter] at hword
      cases hword
    have hunderscore : c ≠ '_' := (ne_of_pos_of_neg (by decide) hword).symm
    rw [scanPlain?, if_neg (by simp [hletter, hunderscore])]
    rintro d r' rfl
    exact absurd rfl hslash

theorem scan?_of_head? {t : Text} (ht : '-' ∉ t.head?) : scan? t = scanPlain? t := by
  rw [scan?]
  rintro r rfl
  exact ht rfl

theorem scan?_of_endsName {rest : Text} (h : EndsName rest) : scan? rest = none := by
  rw [scan?_of_head? fun hc ↦ absurd (h _ hc).1 (by decide), scanPlain?_of_endsName h]

/-- A backslash and a newline are no escape. -/
def NoNewline (name : Text) : Prop := ∀ c ∈ name, c ≠ '\n'

theorem scanTail_spell_append {name rest : Text} (h : NoNewline name) (hrest : EndsName rest) :
    scanTail (spell name ++ rest) = (spell name, rest) := by
  induction name with
  | nil => exact scanTail_of_endsName hrest
  | cons c name ih =>
    have ih := ih fun d hd ↦ h d (List.mem_cons_of_mem _ hd)
    cases hc : isWordOrHyphen c with
    | true =>
      rw [spell_cons_of_word hc, List.cons_append, scanTail, if_pos hc, ih]
      rintro d r rfl
      exact absurd rfl (ne_of_pos_of_neg hc (by decide))
    | false =>
      rw [spell_cons_of_not_word hc, List.cons_append, List.cons_append, scanTail,
        if_neg (h c List.mem_cons_self), ih]

/-- What may begin a name, after a hyphen: a letter of ASCII, an underscore, or an escape. -/
def BeginsName (c : Char) : Prop := isLetter c = true ∨ c = '_' ∨ isWordOrHyphen c = false

theorem scanPlain?_spell_append {first : Char} {name rest : Text} (hfirst : BeginsName first)
    (h : NoNewline (first :: name)) (hrest : EndsName rest) :
    scanPlain? (spell (first :: name) ++ rest) = some (spell (first :: name), rest) := by
  have htail := scanTail_spell_append (fun d hd ↦ h d (List.mem_cons_of_mem _ hd)) hrest
  cases hc : isWordOrHyphen first with
  | true =>
    have hbegin : (isLetter first || first == '_') = true := by
      rcases hfirst with hl | rfl | hw
      · simp [hl]
      · rfl
      · rw [hc] at hw; exact absurd hw (by decide)
    rw [spell_cons_of_word hc, List.cons_append, scanPlain?, if_pos hbegin, htail]
    rintro d r rfl
    exact absurd rfl (ne_of_pos_of_neg hc (by decide))
  | false =>
    rw [spell_cons_of_not_word hc, List.cons_append, List.cons_append, scanPlain?,
      if_neg (h first List.mem_cons_self), htail]

/-- A name that has a spelling: an optional hyphen, then a character that may begin a name, then
anything but newlines. -/
def IsName (name : Text) : Prop :=
  NoNewline name ∧ ∃ first tail, BeginsName first ∧
    (name = first :: tail ∧ first ≠ '-' ∨ name = '-' :: first :: tail)

/-- **A spelled name is read whole**, and what follows it is left. -/
theorem scan?_spell_append {name rest : Text} (h : IsName name) (hrest : EndsName rest) :
    scan? (spell name ++ rest) = some (spell name, rest) := by
  obtain ⟨hline, first, tail, hfirst, ⟨rfl, hhyphen⟩ | rfl⟩ := h
  · have hplain := scanPlain?_spell_append hfirst hline hrest
    rw [scan?, hplain]
    intro r hr
    cases hc : isWordOrHyphen first with
    | true =>
      rw [spell_cons_of_word hc, List.cons_append] at hr
      exact hhyphen (List.cons.inj hr).1
    | false =>
      rw [spell_cons_of_not_word hc, List.cons_append] at hr
      exact absurd (List.cons.inj hr).1 (by decide)
  · rw [spell_cons_of_word (by decide), List.cons_append, scan?,
      scanPlain?_spell_append hfirst (fun d hd ↦ hline d (List.mem_cons_of_mem _ hd)) hrest]
    rfl

end CssTypings.Stylesheet.Identifier

namespace CssTypings.Stylesheet

open Identifier

/-! ### Identifiers without escapes -/

/-- An identifier without escapes: an optional hyphen, a letter of ASCII or an underscore, and any
number of word characters and hyphens. -/
structure Ident where
  /-- The characters of the identifier. -/
  text : Text
  /-- They have the shape of an identifier. -/
  shape : ∃ first tail, (Text.isLetter first = true ∨ first = '_') ∧
    (∀ c ∈ tail, Text.isWordOrHyphen c = true) ∧
      (text = first :: tail ∨ text = '-' :: first :: tail)

namespace Ident

variable (ident : Ident)

theorem isWordOrHyphen_of_mem {c : Char} (hc : c ∈ ident.text) :
    Text.isWordOrHyphen c = true := by
  obtain ⟨first, tail, hfirst, htail, htext⟩ := ident.shape
  have hfirst : Text.isWordOrHyphen first = true := by
    rcases hfirst with h | rfl
    · exact Text.isWordOrHyphen_of_isLetter h
    · decide
  have htail : ∀ d ∈ first :: tail, Text.isWordOrHyphen d = true :=
    List.forall_mem_cons.2 ⟨hfirst, htail⟩
  rcases htext with h | h
  · exact htail c (h ▸ hc)
  · rcases List.mem_cons.1 (h ▸ hc) with rfl | hc
    · decide
    · exact htail c hc

theorem spell_text : spell ident.text = ident.text :=
  spell_eq_self fun _ ↦ ident.isWordOrHyphen_of_mem

theorem unescape_text : unescape ident.text = ident.text := by
  conv_lhs => rw [← ident.spell_text]
  exact unescape_spell _

theorem isName_text : IsName ident.text := by
  refine ⟨fun c hc ↦ ?_, ?_⟩
  · exact Text.ne_of_pos_of_neg (ident.isWordOrHyphen_of_mem hc) (by decide)
  · obtain ⟨first, tail, hfirst, -, htext⟩ := ident.shape
    refine ⟨first, tail, hfirst.imp_right Or.inl, htext.imp_left fun h ↦ ⟨h, ?_⟩⟩
    rintro rfl
    exact absurd hfirst (by decide)

theorem text_ne_nil : ident.text ≠ [] := by
  obtain ⟨first, tail, -, -, h | h⟩ := ident.shape <;> simp [h]

/-- An identifier does not begin with a colon. -/
theorem not_mem_head?_append (t : Text) : ':' ∉ (ident.text ++ t).head? := by
  cases htext : ident.text with
  | nil => exact absurd htext ident.text_ne_nil
  | cons c s =>
    have hc : c ∈ ident.text := by rw [htext]; exact List.mem_cons_self
    have hne := Text.ne_of_pos_of_neg (ident.isWordOrHyphen_of_mem hc) (d := ':') (by decide)
    simpa using hne

/-- An identifier is read whole, and what follows it is left. -/
theorem scan?_text_append {rest : Text} (hrest : EndsName rest) :
    scan? (ident.text ++ rest) = some (ident.text, rest) := by
  have h := scan?_spell_append ident.isName_text hrest
  rwa [ident.spell_text] at h

end Ident

end CssTypings.Stylesheet

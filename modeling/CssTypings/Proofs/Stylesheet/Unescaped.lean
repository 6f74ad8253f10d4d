import CssTypings.Proofs.Stylesheet.Pieces
import CssTypings.Proofs.Stylesheet.Sheet

/-!
# Which identifiers without escapes are exported whole

In the language of stylesheets every character beyond ASCII may stand in an identifier, also as the
first one, and two hyphens may begin it (`UnescapedIdent`). The scanner of selectors is narrower at
both places: it begins an identifier with a letter of ASCII or an underscore only, behind one hyphen
at most, and it goes on with word characters and hyphens only.

So an identifier that begins otherwise is not found at all, and one that begins as the scanner wants
it is cut at the first character that is no word character: `exported_unescaped`. It is exported
whole exactly if neither happens.
-/

namespace CssTypings.Stylesheet

open Text (isLetter isDigit isWordOrHyphen isBlank)

/-! ### Scanning without backslashes -/

namespace Identifier

variable {c : Char} {t : Text}

/-- A character that begins an identifier on its own. -/
def isFirst (c : Char) : Bool := isLetter c || c == '_'

/-- The text begins as the scanner of identifiers wants it: with a letter of ASCII or an underscore,
which may have a hyphen in front. -/
def beginsInAscii : Text → Bool
  | '-' :: r => r.head?.any isFirst
  | t => t.head?.any isFirst

theorem beginsInAscii_of_head? (h : '-' ∉ t.head?) : beginsInAscii t = t.head?.any isFirst := by
  rw [beginsInAscii]
  rintro r rfl
  exact h rfl

theorem isWordOrHyphen_of_isFirst (h : isFirst c = true) : isWordOrHyphen c = true := by
  rcases Bool.or_eq_true_iff.1 h with h | h
  · exact Text.isWordOrHyphen_of_isLetter h
  · rw [beq_iff_eq.1 h]
    decide

theorem not_isFirst_of_isBlank (h : isBlank c = true) : isFirst c = false := by
  by_contra hfirst
  have hword := isWordOrHyphen_of_isFirst (by simpa using hfirst)
  rw [Text.not_isWordOrHyphen_of_isBlank h] at hword
  cases hword

theorem beginsInAscii_trimRight (t : Text) : beginsInAscii (Text.trimRight t) = beginsInAscii t := by
  by_cases h : '-' ∈ t.head?
  · obtain ⟨r, rfl⟩ := List.head?_eq_some_iff.1 h
    have htrim : Text.trimRight ('-' :: r) = '-' :: Text.trimRight r :=
      Text.trimRight_append_of_not_isBlank (s := ['-']) (by simp; decide) r
    rw [htrim, beginsInAscii, beginsInAscii,
      Text.head?_any_trimRight fun _ ↦ not_isFirst_of_isBlank]
  · rw [beginsInAscii_of_head? h,
      beginsInAscii_of_head? fun hc ↦ h (Text.mem_head?_mono (Text.trimRight_prefix_self t) hc),
      Text.head?_any_trimRight fun _ ↦ not_isFirst_of_isBlank]

theorem scanTail_of_not_mem (h : '\\' ∉ t) :
    scanTail t = (t.takeWhile isWordOrHyphen, t.dropWhile isWordOrHyphen) := by
  induction t with
  | nil => rfl
  | cons c t ih =>
    obtain ⟨hc, ht⟩ := not_or.1 (mt List.mem_cons.2 h)
    rw [scanTail, ih ht]
    · cases hword : isWordOrHyphen c <;> simp [hword]
    · exact fun _ _ heq _ ↦ hc heq.symm

theorem scanPlain?_of_not_mem (h : '\\' ∉ t) :
    scanPlain? t =
      if t.head?.any isFirst then some (t.takeWhile isWordOrHyphen, t.dropWhile isWordOrHyphen)
      else none := by
  cases t with
  | nil => rfl
  | cons c t =>
    obtain ⟨hc, ht⟩ := not_or.1 (mt List.mem_cons.2 h)
    rw [scanPlain?, scanTail_of_not_mem ht]
    · cases hfirst : isFirst c with
      | true =>
        have hword := isWordOrHyphen_of_isFirst hfirst
        rw [isFirst] at hfirst
        simp [isFirst, hfirst, hword]
      | false =>
        rw [isFirst] at hfirst
        simp [isFirst, hfirst]
    · exact fun _ _ heq _ ↦ hc heq.symm

/-- **What the scanner finds in a text without backslashes**: the longest run of word characters and
hyphens, if the text begins in the right way. -/
theorem scan?_of_not_mem (h : '\\' ∉ t) :
    scan? t =
      if beginsInAscii t then some (t.takeWhile isWordOrHyphen, t.dropWhile isWordOrHyphen)
      else none := by
  by_cases hhyphen : '-' ∈ t.head?
  · obtain ⟨r, rfl⟩ := List.head?_eq_some_iff.1 hhyphen
    have hword : isWordOrHyphen '-' = true := by decide
    rw [scan?, scanPlain?_of_not_mem fun hr ↦ h (List.mem_cons_of_mem _ hr), beginsInAscii]
    split <;> simp [hword]
  · rw [beginsInAscii_of_head? hhyphen, ← scanPlain?_of_not_mem h, scan?]
    rintro r rfl
    exact hhyphen rfl

end Identifier

/-! ### Identifiers of the language -/

/-- A character that may begin an identifier of the language. -/
def isIdentStart (c : Char) : Bool := isLetter c || c == '_' || decide (0x80 ≤ c.toNat)

/-- A character of an identifier of the language. -/
def isIdentChar (c : Char) : Bool := isIdentStart c || isDigit c || c == '-'

/-- An identifier of the language that is written without escapes: an optional hyphen and a
character that may begin it, or two hyphens, and any number of its characters. -/
structure UnescapedIdent where
  /-- The characters of the identifier. -/
  text : Text
  /-- They have the shape of an identifier. -/
  shape : (∃ first tail, isIdentStart first = true ∧ (∀ c ∈ tail, isIdentChar c = true) ∧
      (text = first :: tail ∨ text = '-' :: first :: tail)) ∨
    ∃ tail, (∀ c ∈ tail, isIdentChar c = true) ∧ text = '-' :: '-' :: tail

namespace UnescapedIdent

variable (ident : UnescapedIdent) {mark : Char}

theorem isIdentChar_of_mem : ∀ c ∈ ident.text, isIdentChar c = true := by
  have hhyphen : isIdentChar '-' = true := by decide
  rcases ident.shape with ⟨first, tail, hfirst, htail, h | h⟩ | ⟨tail, htail, h⟩ <;> rw [h]
  · exact List.forall_mem_cons.2 ⟨by simp [isIdentChar, hfirst], htail⟩
  · exact List.forall_mem_cons.2 ⟨hhyphen,
      List.forall_mem_cons.2 ⟨by simp [isIdentChar, hfirst], htail⟩⟩
  · exact List.forall_mem_cons.2 ⟨hhyphen, List.forall_mem_cons.2 ⟨hhyphen, htail⟩⟩

/-- A rule for the identifier as a class or an id, with an empty body. -/
def rule (mark : Char) : Text := mark :: ident.text ++ " {}".toList

/-- What stands in front of the block. -/
def head (hmark : mark = '.' ∨ mark = '#') : Prelude where
  text := mark :: ident.text ++ [' ']
  isCode := by
    have htext : IsCode ident.text :=
      isCode_of_class (by decide) (by decide) ident.isIdentChar_of_mem
    have hselector : IsCode (mark :: ident.text) := by
      refine isCode_cons.2 ⟨?_, fun h ↦ ?_, htext⟩ <;> rcases hmark with rfl | rfl
      · decide
      · decide
      · exact absurd h.1 (by decide)
      · exact absurd h.1 (by decide)
    exact hselector.append_cons isCode_nil (by decide) (by decide) (by decide)
  unbroken := by
    intro c hc
    simp only [List.cons_append, List.mem_cons, List.mem_append, List.not_mem_nil, or_false] at hc
    rcases hc with rfl | hc | rfl
    · rcases hmark with rfl | rfl <;> decide
    · exact Block.isBreak_of_class (by decide) (ident.isIdentChar_of_mem c hc)
    · decide

theorem trim_head_text (hmark : mark = '.' ∨ mark = '#') :
    Text.trim (ident.head hmark).text = mark :: Text.trimRight ident.text := by
  have hblank : isBlank mark = false := by rcases hmark with rfl | rfl <;> decide
  show Text.trim (mark :: (ident.text ++ [' '])) = _
  rw [Text.trim_cons_of_not_isBlank hblank, Text.trimRight_append_of_isBlank (by simp; decide)]

theorem splitFrom_selector (hmark : mark = '.' ∨ mark = '#') {t : Text}
    (ht : ∀ c ∈ t, isIdentChar c = true) : Selector.splitFrom 0 (mark :: t) = [mark :: t] := by
  have hpasses : Selector.Passes 0 ([mark] ++ t) := by
    refine (Selector.passes_singleton ?_ ?_).append (Selector.passes_of_class (by decide) ht) <;>
      rcases hmark with rfl | rfl <;> decide
  have h := hpasses []
  rw [List.append_nil] at h
  exact h.trans (by simp [Selector.splitFrom])

/-- **The names in the selector**: the run that the scanner takes, if it begins one. Nothing behind
it begins another. -/
theorem namesFrom_selector (hmark : mark = '.' ∨ mark = '#') {selector t : Text}
    (ht : ∀ c ∈ t, isIdentChar c = true) :
    Selector.namesFrom selector .sheet (mark :: t) =
      .ok (if Identifier.beginsInAscii t then [t.takeWhile isWordOrHyphen] else []) := by
  have hinert {r : Text} (hr : r <:+ t) : Selector.namesFrom selector .sheet r = .ok [] := by
    have h : Selector.namesFrom selector .sheet (r ++ []) = Selector.namesFrom selector .sheet [] :=
      Selector.namesFrom_append_of_isInert fun _ hc ↦
        Piece.isInert_of_class (by decide) (ht _ (hr.subset hc))
    rwa [List.append_nil, Selector.namesFrom_nil] at h
  have hscan := Identifier.scan?_of_not_mem (t := t) fun hc ↦ absurd (ht _ hc) (by decide)
  rw [Selector.namesFrom_cons, Piece.next_mark hmark, hscan]
  by_cases hbegin : Identifier.beginsInAscii t = true
  · have hname : Identifier.unescape (t.takeWhile isWordOrHyphen) = t.takeWhile isWordOrHyphen := by
      have hspell : Identifier.spell (t.takeWhile isWordOrHyphen) = t.takeWhile isWordOrHyphen :=
        Identifier.spell_eq_self fun _ ↦ List.mem_takeWhile_imp
      conv_lhs => rw [← hspell]
      exact Identifier.unescape_spell _
    rw [if_pos hbegin, if_pos hbegin]
    show (do
      let others ← Selector.namesFrom selector .sheet (t.dropWhile isWordOrHyphen)
      return [Identifier.unescape (t.takeWhile isWordOrHyphen)] ++ others) = _
    rw [hinert (List.dropWhile_suffix _), hname]
    rfl
  · rw [if_neg hbegin, if_neg hbegin]
    show (do let others ← Selector.namesFrom selector .sheet t; return [] ++ others) = _
    rw [hinert List.suffix_rfl]
    rfl

theorem exported_rule_eq (hmark : mark = '.' ∨ mark = '#') :
    exported (ident.rule mark) =
      .ok (if Identifier.beginsInAscii ident.text then [ident.text.takeWhile isWordOrHyphen]
        else []) := by
  have hrule : ident.rule mark = (ident.head hmark).text ++ ['{', '}'] := by simp [rule, head]
  have hnotAt : (Text.trim (ident.head hmark).text).head? ≠ some '@' := by
    rw [trim_head_text]
    rcases hmark with rfl | rfl <;> simp
  have hblank : isBlank mark = false := by rcases hmark with rfl | rfl <;> decide
  have htrim : Text.trim (mark :: Text.trimRight ident.text) = mark :: Text.trimRight ident.text := by
    rw [Text.trim_cons_of_not_isBlank hblank]
    exact congrArg (mark :: ·) (List.rdropWhile_idempotent _ _)
  have htext : ∀ c ∈ Text.trimRight ident.text, isIdentChar c = true := fun c hc ↦
    ident.isIdentChar_of_mem c ((Text.trimRight_prefix_self _).subset hc)
  rw [hrule, exported_style _ hnotAt, trim_head_text, Selector.listNames_eq,
    splitFrom_selector hmark htext, collect_singleton, htrim, Selector.names,
    namesFrom_selector hmark htext, Identifier.beginsInAscii_trimRight,
    Text.takeWhile_trimRight fun _ ↦ Text.not_isWordOrHyphen_of_isBlank]
  split <;> rfl

/-- **What is exported of an identifier without escapes.** If it begins with a letter of ASCII or an
underscore, behind one hyphen at most, its longest initial part of word characters and hyphens is,
and else nothing is. So it is exported whole exactly if it begins so and all its characters are word
characters and hyphens. -/
theorem exported_unescaped (hmark : mark = '.' ∨ mark = '#') :
    (Identifier.beginsInAscii ident.text = true →
      exported (ident.rule mark) = .ok [ident.text.takeWhile isWordOrHyphen]) ∧
    (Identifier.beginsInAscii ident.text = false → exported (ident.rule mark) = .ok []) ∧
    (exported (ident.rule mark) = .ok [ident.text] ↔
      Identifier.beginsInAscii ident.text = true ∧
        ∀ c ∈ ident.text, isWordOrHyphen c = true) := by
  rw [ident.exported_rule_eq hmark]
  cases hbegin : Identifier.beginsInAscii ident.text with
  | false => simp
  | true =>
    have hwhole : ident.text.takeWhile isWordOrHyphen = ident.text ↔
        ∀ c ∈ ident.text, isWordOrHyphen c = true := List.takeWhile_eq_self_iff
    simp [hwhole]

/-- An identifier that begins beyond ASCII. -/
def summer : UnescapedIdent where
  text := "été".toList
  shape := Or.inl ⟨'é', "té".toList, by decide, List.all_eq_true.1 (by decide), Or.inl rfl⟩

/-- An identifier with a character beyond ASCII that is no word character. -/
def smile : UnescapedIdent where
  text := "-a😀b".toList
  shape := Or.inl ⟨'a', "😀b".toList, by decide, List.all_eq_true.1 (by decide), Or.inr rfl⟩

theorem exported_unescaped_sample :
    exported ".été {}".toList = .ok [] ∧ exported "#-a😀b {}".toList = .ok ["-a".toList] ∧
      exported (smile.rule '#') ≠ .ok [smile.text] := by
  have htaken : smile.text.takeWhile isWordOrHyphen = "-a".toList := by decide +kernel
  have hmark : '#' = '.' ∨ '#' = '#' := Or.inr rfl
  obtain ⟨hcut, -, hwhole⟩ := smile.exported_unescaped hmark
  refine ⟨(summer.exported_unescaped (Or.inl rfl)).2.1 (by decide), ?_, fun h ↦ ?_⟩
  · rw [← htaken]
    exact hcut (by decide)
  · exact absurd ((hwhole.1 h).2 '😀' (by decide)) (by decide +kernel)

end UnescapedIdent

end CssTypings.Stylesheet

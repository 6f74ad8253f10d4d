import CssTypings.Proofs.Stylesheet.Provenance
import CssTypings.Proofs.Stylesheet.Sheet

/-!
# Which escaped class names survive extraction

A class name may have any characters in it, if those that are no word characters are written behind
a backslash. The scanner of selectors reads such a name back, but the stages in front of it do not
know escapes: the masker takes an escaped quote for the start of a literal, the splitter at braces
takes an escaped brace or semicolon for the end of the selector, and the splitter at commas takes an
escaped comma for a separator, unless a bracket stands open in front of it, escaped or not.

`exported_rule_iff` is the exact condition under which a name survives: no quotes, no braces, no
semicolons, and commas inside brackets only. That it suffices is read off stage by stage. That it is
necessary comes from where names are taken from: no exported name has a quote, brace or semicolon in
it (`forall_mem_of_mem_exported`), and a name that is cut at a comma has fewer commas than were
written (`Selector.count_lt_of_mem_splitFrom`).
-/

namespace CssTypings.Stylesheet

open Identifier (spell)

/-! ### Commas inside brackets -/

namespace Selector

/-- With `depth` brackets open in front, every comma of the text stands inside a bracket. As in the
splitter, round and square brackets count alike, and closing ones count only if one is open. -/
def CommasInside : (depth : Nat) → Text → Prop
  | _, [] => True
  | depth, c :: r => (c = ',' → 0 < depth) ∧ CommasInside (depthAfter depth c) r

instance decidableCommasInside : ∀ (depth : Nat) (t : Text), Decidable (CommasInside depth t)
  | _, [] => inferInstanceAs (Decidable True)
  | depth, c :: r =>
    have := decidableCommasInside (depthAfter depth c) r
    inferInstanceAs (Decidable ((c = ',' → 0 < depth) ∧ CommasInside (depthAfter depth c) r))

variable {depth : Nat} {t : Text}

theorem splitFrom_of_commasInside (h : CommasInside depth t) : splitFrom depth t = [t] := by
  induction t generalizing depth with
  | nil => cases depth <;> rfl
  | cons c r ih =>
    obtain ⟨hc, hr⟩ := h
    rw [splitFrom_cons, if_neg, ih hr]
    · rfl
    · rintro ⟨rfl, hcomma⟩
      exact absurd (hc hcomma) (by decide)

/-- **A text that is split at a comma has more commas than its parts.** -/
theorem count_lt_of_mem_splitFrom (h : ¬ CommasInside depth t) {part : Text}
    (hpart : part ∈ splitFrom depth t) : part.count ',' < t.count ',' := by
  induction t generalizing depth part with
  | nil => exact absurd trivial h
  | cons c r ih =>
    rw [splitFrom_cons] at hpart
    split at hpart
    · next hsplit =>
      obtain ⟨-, rfl⟩ := hsplit
      rw [List.count_cons_self]
      rcases List.mem_cons.1 hpart with rfl | hpart
      · simp
      · exact Nat.lt_succ_of_le ((sublist_of_mem_splitFrom hpart).count_le ',')
    · next hsplit =>
      have hr : ¬ CommasInside (depthAfter depth c) r := by
        refine fun hr ↦ h ⟨fun hc ↦ ?_, hr⟩
        exact Nat.pos_of_ne_zero fun hdepth ↦ hsplit ⟨hdepth, hc⟩
      rcases eq_or_mem_of_mem_modifyHead hpart with ⟨head, hhead, rfl⟩ | hpart
      · have hlt := ih hr hhead
        rw [List.count_cons, List.count_cons]
        omega
      · have hlt := ih hr hpart
        rw [List.count_cons]
        omega

/-- A backslash is neither a comma nor a bracket, so spelling changes nothing. -/
theorem commasInside_spell : CommasInside depth (spell t) ↔ CommasInside depth t := by
  induction t generalizing depth with
  | nil => rfl
  | cons c t ih =>
    have hslash : depthAfter depth '\\' = depth := rfl
    cases hc : Text.isWordOrHyphen c with
    | true => rw [Identifier.spell_cons_of_word hc, CommasInside, CommasInside, ih]
    | false =>
      rw [Identifier.spell_cons_of_not_word hc, CommasInside, CommasInside, CommasInside, hslash,
        ih]
      simp

end Selector

/-! ### Class names -/

/-- A class name: any characters but blanks, where the first is a letter of ASCII, an underscore, or
one that has to be escaped. -/
structure ClassName where
  /-- The characters of the name. -/
  text : Text
  notBlank : ∀ c ∈ text, Text.isBlank c = false
  begins : ∃ first tail, Identifier.BeginsName first ∧ text = first :: tail

namespace ClassName

variable (name : ClassName)

/-- The name as a selector. -/
def selector : Text := '.' :: spell name.text

/-- A rule for the name, with an empty body. -/
def rule : Text := name.selector ++ " {}".toList

theorem isName_text : Identifier.IsName name.text := by
  obtain ⟨first, tail, hfirst, htext⟩ := name.begins
  refine ⟨fun c hc ↦ (Text.ne_of_pos_of_neg (by decide) (name.notBlank c hc)).symm,
    first, tail, hfirst, Or.inl ⟨htext, ?_⟩⟩
  rintro rfl
  exact absurd hfirst (by simp [Identifier.BeginsName]; decide)

/-- A slash and a star are both escaped, so a spelled name opens no comment. -/
theorem isCode_spell {text : Text} (h : ∀ c ∈ text, isQuote c = false) : IsCode (spell text) := by
  have hhead (text : Text) : (spell text).head? ≠ some '*' := by
    cases text with
    | nil => simp [spell]
    | cons c text =>
      cases hc : Text.isWordOrHyphen c with
      | true =>
        rw [Identifier.spell_cons_of_word hc]
        simpa using Text.ne_of_pos_of_neg hc (by decide)
      | false => rw [Identifier.spell_cons_of_not_word hc]; simp
  induction text with
  | nil => exact isCode_nil
  | cons c text ih =>
    obtain ⟨hquote, htext⟩ := List.forall_mem_cons.1 h
    have hcons : IsCode (c :: spell text) :=
      isCode_cons.2 ⟨hquote, fun hopen ↦ hhead text hopen.2, ih htext⟩
    cases hc : Text.isWordOrHyphen c with
    | true => rwa [Identifier.spell_cons_of_word hc]
    | false =>
      rw [Identifier.spell_cons_of_not_word hc]
      exact isCode_cons.2 ⟨by decide, by simp, hcons⟩

theorem trim_selector_append {b : Text} (hb : ∀ c ∈ b, Text.isBlank c = true) :
    Text.trim (name.selector ++ b) = name.selector := by
  have hspell : ∀ c ∈ spell name.text, Text.isBlank c = false := by
    intro c hc
    rcases Identifier.eq_or_mem_of_mem_spell hc with rfl | hc
    · decide
    · exact name.notBlank c hc
  rw [selector, List.cons_append, Text.trim_cons_of_not_isBlank (by decide),
    Text.trimRight_append_of_not_isBlank hspell, Text.trimRight_eq_nil_iff.2 hb, List.append_nil]

theorem count_comma_selector : name.selector.count ',' = name.text.count ',' := by
  rw [selector, List.count_cons_of_ne (by decide), Identifier.count_comma_spell]

theorem commasInside_selector :
    Selector.CommasInside 0 name.selector ↔ Selector.CommasInside 0 name.text := by
  have hdot : Selector.depthAfter 0 '.' = 0 := rfl
  rw [selector, Selector.CommasInside, hdot, Selector.commasInside_spell]
  simp

/-! ### The stages of extraction -/

/-- What stands in front of the block, for a name without quotes, braces and semicolons. -/
def head (h : ∀ c ∈ name.text, isQuote c = false ∧ Block.isBreak c = false) : Prelude where
  text := name.selector ++ [' ']
  isCode := by
    have hselector : IsCode name.selector :=
      isCode_cons.2 ⟨by decide, by simp, isCode_spell fun c hc ↦ (h c hc).1⟩
    exact hselector.append_cons isCode_nil (by decide) (by decide) (by decide)
  unbroken := by
    intro c hc
    simp only [selector, List.cons_append, List.mem_cons, List.mem_append, List.not_mem_nil,
      or_false] at hc
    rcases hc with rfl | hc | rfl
    · decide
    · rcases Identifier.eq_or_mem_of_mem_spell hc with rfl | hc
      · decide
      · exact (h c hc).2
    · decide

theorem trim_head_text (h : ∀ c ∈ name.text, isQuote c = false ∧ Block.isBreak c = false) :
    Text.trim (name.head h).text = name.selector :=
  name.trim_selector_append (by simp; decide)

/-- **Without quotes, braces and semicolons** the rule is a style rule, and its names are those of
the selector. -/
theorem exported_rule (h : ∀ c ∈ name.text, isQuote c = false ∧ Block.isBreak c = false) :
    exported name.rule = (Selector.listNames name.selector).map List.eraseDups := by
  have hnotAt : (Text.trim (name.head h).text).head? ≠ some '@' := by
    rw [trim_head_text, selector]
    simp
  have hrule : name.rule = (name.head h).text ++ ['{', '}'] := by
    simp [rule, head]
  rw [hrule, exported_style _ hnotAt, trim_head_text]

/-- **With commas inside brackets only** the selector is not split, and its name is read back. -/
theorem listNames_selector (h : Selector.CommasInside 0 name.text) :
    Selector.listNames name.selector = .ok [name.text] := by
  have htrim := name.trim_selector_append (b := []) (by simp)
  have hscan := Identifier.scan?_spell_append name.isName_text Identifier.endsName_nil
  have hnext : Piece.next name.selector '.' (spell name.text) =
      .ok (.name (spell name.text), []) := by
    rw [List.append_nil] at hscan
    rw [Piece.next_mark (Or.inl rfl), hscan]
  rw [List.append_nil] at htrim
  rw [Selector.listNames_eq, Selector.splitFrom_of_commasInside (name.commasInside_selector.2 h),
    collect_singleton, htrim]
  show Selector.namesFrom name.selector .sheet ('.' :: spell name.text) = _
  rw [Selector.namesFrom_cons, hnext]
  show (do
    let others ← Selector.namesFrom name.selector .sheet []
    return [Identifier.unescape (spell name.text)] ++ others) = _
  rw [Selector.namesFrom_nil, Identifier.unescape_spell]
  rfl

/-- **Which escaped class names survive extraction.** A rule for a name exports that name alone
exactly if the name has no quotes, braces and semicolons, and every comma in it stands inside a
bracket. -/
theorem exported_rule_iff :
    exported name.rule = .ok [name.text] ↔
      (∀ c ∈ name.text, isQuote c = false ∧ Block.isBreak c = false) ∧
        Selector.CommasInside 0 name.text := by
  constructor
  · intro h
    have hplain := forall_mem_of_mem_exported h name.text List.mem_cons_self
    refine ⟨hplain, ?_⟩
    by_contra hcommas
    rw [name.exported_rule hplain] at h
    obtain ⟨names, hnames, hdups⟩ := exists_of_map_eq_ok h
    have hmem : name.text ∈ names := List.mem_eraseDups.1 (by rw [hdups]; exact List.mem_cons_self)
    obtain ⟨part, hpart, hsub⟩ := Selector.exists_part_of_mem_listNames hnames hmem
    -- the name has all commas of the selector, and the part it is taken from has fewer
    have hle := hsub.count_le ','
    have hlt := Selector.count_lt_of_mem_splitFrom
      (fun hinside ↦ hcommas (name.commasInside_selector.1 hinside)) hpart
    rw [count_comma_selector] at hlt
    omega
  · rintro ⟨hplain, hcommas⟩
    rw [name.exported_rule hplain, name.listNames_selector hcommas]
    rfl

example : Selector.CommasInside 0 "w-[a,b]".toList ∧ ¬ Selector.CommasInside 0 "w-a,b".toList := by
  decide

end ClassName

end CssTypings.Stylesheet

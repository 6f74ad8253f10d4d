import CssTypings.Json.Printer
import CssTypings.Json.Reader
import Mathlib.Tactic.Ring

/-!
# Printed texts are read back

A character is printed in one of four ways (`printChar_cases`): by a letter behind a backslash, as
it is, by its code, or by the codes of two surrogates. Each way is read back as the character,
whatever follows (`exists_parts_printChar`), so a printed text is read back and what follows it is
left (`readText_printed`).

A text is a writing of a value if it is read as the value in front of whatever follows (`Writes`).
Printed texts and the words are writings, and members with writings of their values make up a
writing of an object: `read_object`. All of them are in graphic characters of ASCII, so none has a
line end.
-/

namespace CssTypings

/-- A character of ASCII other than the control characters. -/
def IsGraphic (c : Char) : Prop := 0x20 ≤ c.toNat ∧ c.toNat < 0x7F

instance : DecidablePred IsGraphic := fun c ↦
  inferInstanceAs (Decidable (0x20 ≤ c.toNat ∧ c.toNat < 0x7F))

/-- A closed text is looked through character by character. -/
theorem isGraphic_of_all {t : Text} (h : t.all (fun c ↦ decide (IsGraphic c)) = true) :
    ∀ c ∈ t, IsGraphic c :=
  fun c hc ↦ of_decide_eq_true (List.all_eq_true.1 h c hc)

theorem CodePoint.eq_of_ofChar_eq (c d : Char) (h : ofChar c = ofChar d) : c = d := by
  have hcode : c.toNat = d.toNat := Fin.mk.inj h
  rw [← Char.ofNat_toNat c, ← Char.ofNat_toNat d, hcode]

namespace Text

@[simp]
theorem codes_inj {s t : Text} : s.codes = t.codes ↔ s = t :=
  List.map_inj_right CodePoint.eq_of_ofChar_eq

theorem hexValue?_hexDigit {d : Nat} (h : d < 16) : hexValue? (hexDigit d) = some d := by
  revert d
  decide

theorem isGraphic_of_mem_hex {width n : Nat} {c : Char} (h : c ∈ hex width n) : IsGraphic c := by
  induction width generalizing n with
  | zero => exact absurd h List.not_mem_nil
  | succ width ih =>
    rcases List.mem_append.1 h with h | h
    · exact ih h
    · have hdigit : ∀ d < 16, IsGraphic (hexDigit d) := by decide
      rw [List.mem_singleton.1 h]
      exact hdigit _ (Nat.mod_lt n (by decide))

end Text

namespace Json

variable {c : Char} {n : Nat}

/-! ### Codes -/

/-- Digits are read as the number that they write. -/
theorem hexValue?_hex (width n : Nat) : hexValue? (Text.hex width n) = some (n % 16 ^ width) := by
  induction width generalizing n with
  | zero => simp [hexValue?, Text.hex, Nat.mod_one]
  | succ width ih =>
    simp only [hexValue?] at ih ⊢
    rw [Text.hex, List.foldlM_append, ih]
    have hlast := Text.hexValue?_hexDigit (Nat.mod_lt n (by decide : 0 < 16))
    have hvalue : n / 16 % 16 ^ width * 16 + n % 16 = n % 16 ^ (width + 1) := by
      rw [Nat.pow_succ', Nat.mod_mul]
      ring
    simp [hlast, hvalue]

/-- A code unit is read as its number. -/
theorem parts?_escapeUnit (unit : Fin 0x10000) (t : Text) :
    parts? (escapeUnit unit ++ t) = (parts? t).map fun (ps, rest) ↦ (.unit unit :: ps, rest) := by
  have hvalue := hexValue?_hex 4 unit
  have hunit : Fin.ofNat 0x10000 unit = unit := Fin.ext (Nat.mod_eq_of_lt unit.isLt)
  rw [Nat.mod_eq_of_lt (by simp)] at hvalue
  simp only [Text.hex, List.nil_append, List.cons_append] at hvalue
  simp only [escapeUnit, Text.hex, List.nil_append, List.cons_append]
  rw [parts?, hvalue]
  simp only [Option.bind_eq_bind, Option.bind_some, hunit]
  cases parts? t <;> rfl

/-- A code unit that is no surrogate is a code point. -/
theorem assemble_unit {unit : Fin 0x10000} (h : ¬ (0xD800 ≤ unit.val ∧ unit.val < 0xE000))
    (ps : List Part) : assemble (.unit unit :: ps) = assemble.alone unit :: assemble ps := by
  cases ps with
  | nil => simp only [assemble]
  | cons p ps =>
    cases p with
    | char c => simp only [assemble]
    | unit b =>
      have hpair : ¬ ((0xD800 ≤ unit.val ∧ unit.val < 0xDC00) ∧ 0xDC00 ≤ b.val ∧ b.val < 0xE000) :=
        fun hpair ↦ h ⟨hpair.1.1, Nat.lt_trans hpair.1.2 (by decide)⟩
      rw [assemble, dif_neg hpair]

/-- Two surrogates make the code point that they were made from. -/
theorem assemble_surrogates {p : CodePoint} {n : Nat} (h : n < 0x100000) (hp : p.val = 0x10000 + n)
    (ps : List Part) :
    assemble (.unit ⟨0xD800 + n / 0x400, by omega⟩ :: .unit ⟨0xDC00 + n % 0x400, by omega⟩ :: ps) =
      p :: assemble ps := by
  rw [assemble, dif_pos (by dsimp only; omega)]
  refine congrArg (· :: assemble ps) (Fin.ext ?_)
  rw [hp]
  dsimp only
  omega

/-! ### Characters -/

/-- **How a character is printed.** -/
theorem printChar_cases (c : Char) :
    (∃ e, printChar c = ['\\', e] ∧ e ≠ 'u' ∧ IsGraphic e ∧ escaped? e = some c) ∨
    (printChar c = [c] ∧ c ≠ '"' ∧ c ≠ '\\' ∧ IsGraphic c) ∨
    (printChar c = escapeUnit c.toNat ∧ c.toNat < 0x10000) ∨
    (printChar c = escapeUnit (0xD800 + (c.toNat - 0x10000) / 0x400) ++
      escapeUnit (0xDC00 + (c.toNat - 0x10000) % 0x400) ∧ 0x10000 ≤ c.toNat) := by
  have hletter {n : Nat} {e : Char} (hprint : printChar (Char.ofNat n) = ['\\', e])
      (he : e ≠ 'u' ∧ IsGraphic e ∧ escaped? e = some (Char.ofNat n)) (hc : c.toNat = n) :
      ∃ e, printChar c = ['\\', e] ∧ e ≠ 'u' ∧ IsGraphic e ∧ escaped? e = some c := by
    obtain rfl : Char.ofNat n = c := hc ▸ Char.ofNat_toNat c
    exact ⟨e, hprint, he⟩
  by_cases hsimple : c.toNat ∈ [0x22, 0x5C, 0x0A, 0x0D, 0x09, 0x08, 0x0C]
  · refine Or.inl ?_
    simp only [List.mem_cons, List.not_mem_nil, or_false] at hsimple
    rcases hsimple with h | h | h | h | h | h | h
    · exact hletter (e := '"') (by decide) (by decide) h
    · exact hletter (e := '\\') (by decide) (by decide) h
    · exact hletter (e := 'n') (by decide) (by decide) h
    · exact hletter (e := 'r') (by decide) (by decide) h
    · exact hletter (e := 't') (by decide) (by decide) h
    · exact hletter (e := 'b') (by decide) (by decide) h
    · exact hletter (e := 'f') (by decide) (by decide) h
  · refine Or.inr ?_
    simp only [List.mem_cons, List.not_mem_nil, or_false, not_or] at hsimple
    obtain ⟨hquote, hbackslash, hnewline, hreturn, htab, hbell, hfeed⟩ := hsimple
    have hne (d : Char) (hd : c.toNat ≠ d.toNat) : c ≠ d := fun h ↦ hd (congrArg Char.toNat h)
    have hquote' : c ≠ '"' := hne _ hquote
    have hbackslash' : c ≠ '\\' := hne _ hbackslash
    rw [printChar, if_neg hquote', if_neg hbackslash', if_neg (hne '\n' hnewline),
      if_neg (hne '\r' hreturn), if_neg (hne '\t' htab), if_neg hbell, if_neg hfeed]
    by_cases hplain : 0x20 ≤ c.toNat ∧ c.toNat < 0x7F
    · exact Or.inl ⟨if_pos hplain, hquote', hbackslash', hplain⟩
    · rw [if_neg hplain]
      by_cases hshort : c.toNat < 0x10000
      · exact Or.inr (Or.inl ⟨if_pos hshort, hshort⟩)
      · exact Or.inr (Or.inr ⟨if_neg hshort, Nat.le_of_not_lt hshort⟩)

theorem parts?_letter {e : Char} (he : e ≠ 'u') (hread : escaped? e = some c) (t : Text) :
    parts? ('\\' :: e :: t) = (parts? t).map fun (ps, rest) ↦ (.char c :: ps, rest) := by
  rw [parts?, hread]
  · cases parts? t <;> rfl
  · exact fun _ _ _ _ _ h ↦ absurd h he

theorem parts?_plain (hquote : c ≠ '"') (hbackslash : c ≠ '\\') (hplain : 0x20 ≤ c.toNat)
    (t : Text) : parts? (c :: t) = (parts? t).map fun (ps, rest) ↦ (.char c :: ps, rest) := by
  have hgood : ¬ (c.toNat < 0x20 ∨ c = '\\') := by simp [hbackslash]; omega
  rw [parts?, if_neg hgood]
  · cases parts? t <;> rfl
  all_goals simp_all

/-- **A printed character is read back**, whatever follows it. -/
theorem exists_parts_printChar (c : Char) :
    ∃ ps : List Part,
      (∀ t, parts? (printChar c ++ t) = (parts? t).map fun (qs, rest) ↦ (ps ++ qs, rest)) ∧
      ∀ qs, assemble (ps ++ qs) = .ofChar c :: assemble qs := by
  have hvalid : c.toNat < 0xD800 ∨ 0xDFFF < c.toNat ∧ c.toNat < 0x110000 := c.valid
  rcases printChar_cases c with ⟨e, hprint, he, -, hread⟩ | ⟨hprint, hquote, hbackslash, hplain⟩ |
    ⟨hprint, hshort⟩ | ⟨hprint, hlong⟩
  · refine ⟨[.char c], fun t ↦ ?_, fun _ ↦ by simp [assemble]⟩
    rw [hprint]
    exact parts?_letter he hread t
  · refine ⟨[.char c], fun t ↦ ?_, fun _ ↦ by simp [assemble]⟩
    rw [hprint]
    exact parts?_plain hquote hbackslash hplain.1 t
  · let unit : Fin 0x10000 := ⟨c.toNat, hshort⟩
    refine ⟨[.unit unit], fun t ↦ ?_, fun qs ↦ ?_⟩
    · rw [hprint]
      exact parts?_escapeUnit unit t
    · exact assemble_unit (fun h : 0xD800 ≤ c.toNat ∧ c.toNat < 0xE000 ↦ by omega) qs
  · let high : Fin 0x10000 := ⟨0xD800 + (c.toNat - 0x10000) / 0x400, by omega⟩
    let low : Fin 0x10000 := ⟨0xDC00 + (c.toNat - 0x10000) % 0x400, by omega⟩
    refine ⟨[.unit high, .unit low], fun t ↦ ?_, fun qs ↦ ?_⟩
    · have hboth := (parts?_escapeUnit high (escapeUnit low ++ t)).trans
        (congrArg _ (parts?_escapeUnit low t))
      rw [hprint, List.append_assoc]
      refine hboth.trans ?_
      cases parts? t <;> rfl
    · refine assemble_surrogates (by omega) ?_ qs
      show c.toNat = 0x10000 + (c.toNat - 0x10000)
      omega

/-! ### Texts -/

theorem exists_parts_printed (t rest : Text) :
    ∃ ps, parts? (t.flatMap printChar ++ '"' :: rest) = some (ps, rest) ∧
      assemble ps = t.codes := by
  induction t with
  | nil => exact ⟨[], rfl, rfl⟩
  | cons c t ih =>
    obtain ⟨ps, hparts, hassemble⟩ := ih
    obtain ⟨qs, hchar, hfront⟩ := exists_parts_printChar c
    refine ⟨qs ++ ps, ?_, ?_⟩
    · rw [List.flatMap_cons, List.append_assoc, hchar, hparts]
      rfl
    · rw [hfront, hassemble]
      rfl

/-- **A printed text is read back**, and what follows it is left. -/
theorem readText_printed (t rest : Text) :
    readText (t.flatMap printChar ++ '"' :: rest) = .ok (t.codes, rest) := by
  obtain ⟨ps, hparts, hassemble⟩ := exists_parts_printed t rest
  rw [readText, hparts]
  exact congrArg (fun codes ↦ Except.ok (codes, rest)) hassemble

theorem printText_append (t rest : Text) :
    printText t ++ rest = '"' :: (t.flatMap printChar ++ '"' :: rest) := by
  simp [printText]

theorem isGraphic_of_mem_printChar {d : Char} (h : d ∈ printChar c) : IsGraphic d := by
  have hunit {n : Nat} (h : d ∈ escapeUnit n) : IsGraphic d := by
    rcases List.mem_cons.1 h with rfl | h
    · decide
    · rcases List.mem_cons.1 h with rfl | h
      · decide
      · exact Text.isGraphic_of_mem_hex h
  rcases printChar_cases c with ⟨e, hprint, -, he, -⟩ | ⟨hprint, -, -, hc⟩ | ⟨hprint, -⟩ |
    ⟨hprint, -⟩ <;> rw [hprint] at h
  · rcases List.mem_cons.1 h with rfl | h
    · decide
    · rwa [List.mem_singleton.1 h]
  · rwa [List.mem_singleton.1 h]
  · exact hunit h
  · exact (List.mem_append.1 h).elim hunit hunit

/-- **A printed text is graphic**, whatever characters the text has. -/
theorem isGraphic_of_mem_printText {t : Text} {d : Char} (h : d ∈ printText t) : IsGraphic d := by
  have hquote : IsGraphic '"' := by decide
  rw [printText, List.cons_append, List.mem_cons, List.mem_append, List.mem_singleton] at h
  rcases h with rfl | h | rfl
  · exact hquote
  · obtain ⟨c, -, hc⟩ := List.mem_flatMap.1 h
    exact isGraphic_of_mem_printChar hc
  · exact hquote

/-! ### Values -/

/-- The text is read as the value, whatever follows it. -/
structure Writes (t : Text) (value : Json) : Prop where
  read : ∀ fuel room rest, readValue (fuel + 1) room (t ++ rest) = .ok (value, rest)
  skip : ∀ rest, skipBlanks (t ++ rest) = t ++ rest
  graphic : ∀ c ∈ t, IsGraphic c

theorem writes_text (t : Text) : Writes (printText t) (.text t.codes) where
  read fuel room rest := by
    rw [printText_append, readValue, readText_printed]
    rfl
  skip rest := by
    rw [printText_append]
    rfl
  graphic _ := isGraphic_of_mem_printText

/-- A word is a writing of its value. -/
theorem writes_word {word : Text} {value : Json}
    (h : (word, value) ∈ [("null".toList, Json.null), ("true".toList, .bool true),
      ("false".toList, .bool false)]) : Writes word value := by
  simp only [List.mem_cons, Prod.mk.injEq, List.not_mem_nil, or_false] at h
  rcases h with ⟨rfl, rfl⟩ | ⟨rfl, rfl⟩ | ⟨rfl, rfl⟩ <;>
    exact ⟨fun _ _ _ ↦ rfl, fun _ ↦ rfl, isGraphic_of_all (by decide)⟩

/-! ### Objects -/

/-- A member with the text of its value. -/
def printMember (member : Text × Text) : Text := printText member.1 ++ ": ".toList ++ member.2

/-- The member has the name of the field and writes its value. -/
def WritesMember (member : Text × Text) (field : Codes × Json) : Prop :=
  member.1.codes = field.1 ∧ Writes member.2 field.2

/-- What is read of a member up to the blanks behind its value. -/
theorem readMembers_printMember {member : Text × Text} {field : Codes × Json}
    (h : WritesMember member field) (fuel room : Nat) (former : List (Codes × Json)) (rest : Text) :
    readMembers (fuel + 2) room former (printMember member ++ rest) =
      match skipBlanks rest with
      | '\x7d' :: r => .ok (setMember former field.1 field.2, r)
      | ',' :: r => readMembers (fuel + 1) room (setMember former field.1 field.2) (skipBlanks r)
      | _ => .error .syntaxError := by
  obtain ⟨hname, hvalue⟩ := h
  have hcolon : skipBlanks (": ".toList ++ (member.2 ++ rest)) = ':' :: ' ' :: (member.2 ++ rest) := rfl
  have hspace : skipBlanks (' ' :: (member.2 ++ rest)) = member.2 ++ rest := hvalue.skip rest
  rw [printMember, List.append_assoc, List.append_assoc, printText_append, readMembers,
    readText_printed]
  simp only [bind, Except.bind, hcolon, hspace, hvalue.read, hname]
  rfl

/-- The members of an object with commas between them. -/
def printMembers (members : List (Text × Text)) : Text :=
  Text.join ", ".toList (members.map printMember)

theorem printMembers_singleton (member : Text × Text) : printMembers [member] = printMember member := by
  rw [printMembers, List.map_singleton, Text.join, List.intercalate_singleton]

theorem printMembers_cons_cons (first second : Text × Text) (members : List (Text × Text)) :
    printMembers (first :: second :: members) =
      printMember first ++ ", ".toList ++ printMembers (second :: members) :=
  List.intercalate_cons_cons

/-- Members start with the quote of the first name. -/
theorem exists_printMembers_append (first : Text × Text) (members : List (Text × Text))
    (rest : Text) : ∃ t, printMembers (first :: members) ++ rest = '"' :: t := by
  cases members with
  | nil =>
    rw [printMembers_singleton, printMember, List.append_assoc, List.append_assoc, printText_append]
    exact ⟨_, rfl⟩
  | cons second members =>
    rw [printMembers_cons_cons, printMember]
    simp only [List.append_assoc]
    rw [printText_append]
    exact ⟨_, rfl⟩

theorem length_le_printMembers (members : List (Text × Text)) :
    members.length ≤ (printMembers members).length := by
  have hmember (member : Text × Text) : 0 < (printMember member).length := by
    simp [printMember, printText]
  induction members with
  | nil => exact Nat.zero_le _
  | cons first members ih =>
    cases members with
    | nil =>
      rw [printMembers_singleton]
      exact hmember first
    | cons second members =>
      have := hmember first
      rw [printMembers_cons_cons, List.length_append, List.length_append]
      simp only [List.length_cons] at ih ⊢
      omega

theorem isGraphic_of_mem_printMembers {members : List (Text × Text)} {fields : List (Codes × Json)}
    (h : List.Forall₂ WritesMember members fields) {d : Char} (hd : d ∈ printMembers members) :
    IsGraphic d := by
  have hmember {member : Text × Text} {field : Codes × Json} (h : WritesMember member field)
      (hd : d ∈ printMember member) : IsGraphic d := by
    have hcolon : ∀ d ∈ ": ".toList, IsGraphic d := isGraphic_of_all (by decide)
    rcases List.mem_append.1 hd with hd | hd
    · exact (List.mem_append.1 hd).elim isGraphic_of_mem_printText (hcolon d)
    · exact h.2.graphic d hd
  have hcomma : ∀ d ∈ ", ".toList, IsGraphic d := isGraphic_of_all (by decide)
  induction h with
  | nil => exact absurd hd List.not_mem_nil
  | cons hfirst hothers ih =>
    cases hothers with
    | nil =>
      rw [printMembers_singleton] at hd
      exact hmember hfirst hd
    | cons hsecond hothers =>
      rw [printMembers_cons_cons] at hd
      rcases List.mem_append.1 hd with hd | hd
      · exact (List.mem_append.1 hd).elim (hmember hfirst) (hcomma d)
      · exact ih hd

/-- The first member is read, and the comma behind it. -/
theorem readMembers_printMembers_cons_cons {first : Text × Text} {field : Codes × Json}
    (h : WritesMember first field) (second : Text × Text) (members : List (Text × Text))
    (fuel room : Nat) (former : List (Codes × Json)) (rest : Text) :
    readMembers (fuel + 2) room former (printMembers (first :: second :: members) ++ rest) =
      readMembers (fuel + 1) room (setMember former field.1 field.2)
        (printMembers (second :: members) ++ rest) := by
  have hcomma : ∀ t, skipBlanks (", ".toList ++ t) = ',' :: ' ' :: t := fun _ ↦ rfl
  have hspace : skipBlanks (' ' :: (printMembers (second :: members) ++ rest)) =
      printMembers (second :: members) ++ rest := by
    obtain ⟨t, ht⟩ := exists_printMembers_append second members rest
    rw [ht]
    rfl
  rw [printMembers_cons_cons, List.append_assoc, List.append_assoc, readMembers_printMember h,
    hcomma]
  simp only [hspace]

/-- **Members are read back** in order, and then the object ends. -/
theorem readMembers_printMembers {members : List (Text × Text)} {fields : List (Codes × Json)}
    (h : List.Forall₂ WritesMember members fields) (hne : members ≠ []) {fuel : Nat}
    (hfuel : members.length < fuel) (room : Nat) (former : List (Codes × Json)) (rest : Text) :
    readMembers fuel room former (printMembers members ++ '\x7d' :: rest) =
      .ok (fields.foldl (fun former field ↦ setMember former field.1 field.2) former, rest) := by
  induction h generalizing fuel former with
  | nil => exact absurd rfl hne
  | @cons first field members fields hfirst hothers ih =>
    obtain ⟨fuel, rfl⟩ : ∃ k, fuel = k + 2 := ⟨fuel - 2, by simp at hfuel; omega⟩
    cases hothers with
    | nil =>
      rw [printMembers_singleton, readMembers_printMember hfirst]
      rfl
    | @cons second field' members fields hsecond hothers =>
      rw [readMembers_printMembers_cons_cons hfirst]
      exact ih (by simp) (by simp at hfuel ⊢; omega) _

/-- An object with a member is read as its members. -/
theorem readValue_object (fuel room : Nat) (t : Text) :
    readValue (fuel + 1) (room + 1) ('\x7b' :: '"' :: t) =
      (readMembers fuel room [] ('"' :: t)).map fun (members, rest) ↦ (.object members, rest) := by
  cases h : readMembers fuel room [] ('"' :: t) <;> simp [readValue, skipBlanks, h, Except.map]

/-- **An object is read back** from the writings of its members. -/
theorem read_object {members : List (Text × Text)} {fields : List (Codes × Json)}
    (h : List.Forall₂ WritesMember members fields) (hne : members ≠ []) :
    Json.read ('\x7b' :: printMembers members ++ ['\x7d']) =
      .ok (.object (fields.foldl (fun former field ↦ setMember former field.1 field.2) [])) := by
  obtain ⟨first, others, rfl⟩ := List.exists_cons_of_ne_nil hne
  have hlength := length_le_printMembers (first :: others)
  have hfuel : (first :: others).length <
      2 * ('\x7b' :: printMembers (first :: others) ++ ['\x7d']).length + 1 := by
    simp at hlength ⊢
    omega
  have hmembers := readMembers_printMembers h hne hfuel 979 [] []
  obtain ⟨t, ht⟩ := exists_printMembers_append first others ['\x7d']
  rw [List.cons_append, ht] at hmembers ⊢
  have hstart : skipBlanks ('\x7b' :: '"' :: t) = '\x7b' :: '"' :: t := rfl
  rw [Json.read, hstart, depthLimit, readValue_object, hmembers]
  rfl

end Json

end CssTypings

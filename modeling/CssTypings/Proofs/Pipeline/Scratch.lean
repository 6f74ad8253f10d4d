import CssTypings.Proofs.Pipeline.Containment

/-!
# Scratch numbers do not matter

The name of a scratch file holds a number, and an error text may show that name. Two texts are the
same up to the number if they differ in nothing else (`SameUpToNumber`).

All scratch paths of a store are alike: they are in one directory, and their texts have the digits
at one place (`exists_text_scratchPath`). So as long as nothing is there, either all of them can be
written to or none, and then for the same trouble (`exists_target_scratchPath`). What is told of a
source is therefore the same for all of them, up to the number: `told_alike`.
-/

namespace CssTypings

/-! ### Digits -/

namespace Text

/-- The hexadecimal digits of scratch names. -/
def hexDigits : Text := "0123456789abcdef".toList

theorem hexDigit_mem {n : Nat} (h : n < 16) : hexDigit n ∈ hexDigits := by
  revert n
  decide

theorem mem_hexDigits {width n : Nat} {c : Char} (h : c ∈ hex width n) : c ∈ hexDigits := by
  induction width generalizing n with
  | zero => exact absurd h List.not_mem_nil
  | succ width ih =>
    rcases List.mem_append.1 h with h | h
    · exact ih h
    · rw [List.mem_singleton.1 h]
      exact hexDigit_mem (Nat.mod_lt n (by decide))

theorem not_mem_hex {c : Char} (h : c ∉ hexDigits) (width n : Nat) : c ∉ hex width n :=
  fun hc ↦ h (mem_hexDigits hc)

/-- Digits are quoted as they are. -/
theorem flatMap_quoteChar_hex {quote : Char} (h : quote ∉ hexDigits) (width n : Nat) :
    (hex width n).flatMap (quoteChar quote) = hex width n := by
  have hplain : hexDigits.all (fun c ↦ decide (c ≠ '\\' ∧ c ≠ '\n' ∧ c ≠ '\r' ∧ c ≠ '\t' ∧
      isPrintable c = true)) = true := by decide
  have hchar : ∀ c ∈ hex width n, quoteChar quote c = [c] := by
    intro c hc
    have hmem := mem_hexDigits hc
    obtain ⟨hbackslash, hnewline, hreturn, htab, hprintable⟩ :=
      of_decide_eq_true (List.all_eq_true.1 hplain c hmem)
    have hquote : c ≠ quote := fun heq ↦ h (heq ▸ hmem)
    simp [quoteChar, hquote, hbackslash, hnewline, hreturn, htab, hprintable]
  rw [List.flatMap_congr hchar]
  exact List.flatMap_singleton' _

/-- Quoting leaves digits where they are. -/
theorem exists_quoted_hex (front back : Text) (width : Nat) :
    ∃ front' back' : Text, ∀ n,
      quoted (front ++ hex width n ++ back) = front' ++ hex width n ++ back' := by
  have hsingle : ('\'' : Char) ∉ hexDigits := by decide
  have hdouble : ('"' : Char) ∉ hexDigits := by decide
  have hquote : ∀ n, quoteFor (front ++ hex width n ++ back) = quoteFor (front ++ back) := by
    intro n
    simp [quoteFor, not_mem_hex hsingle, not_mem_hex hdouble]
  have hmem : quoteFor (front ++ back) ∉ hexDigits := by
    rw [quoteFor]
    split
    · exact hdouble
    · exact hsingle
  refine ⟨quoteFor (front ++ back) :: front.flatMap (quoteChar (quoteFor (front ++ back))),
    back.flatMap (quoteChar (quoteFor (front ++ back))) ++ [quoteFor (front ++ back)], ?_⟩
  intro n
  rw [quoted, hquote, List.flatMap_append, List.flatMap_append, flatMap_quoteChar_hex hmem]
  simp

end Text

theorem Utf8.size_append (s t : Text) : size (s ++ t) = size s + size t := by
  rw [size, encode, List.flatMap_append, List.length_append]
  rfl

theorem Utf8.size_hex (width n : Nat) : size (Text.hex width n) = width := by
  have hone : Text.hexDigits.all (fun c ↦ size [c] == 1) = true := by decide
  induction width generalizing n with
  | zero => rfl
  | succ width ih =>
    have hdigit := Text.hexDigit_mem (Nat.mod_lt n (by decide : 0 < 16))
    rw [Text.hex, size_append, ih, eq_of_beq (List.all_eq_true.1 hone _ hdigit)]

/-! ### Texts with a number -/

/-- The texts are the same but for the digits of a scratch name in them. -/
def SameUpToNumber (s t : String) : Prop :=
  s = t ∨ ∃ (front back : Text) (m n : Nat),
    s = String.ofList (front ++ Text.hex 32 m ++ back) ∧
      t = String.ofList (front ++ Text.hex 32 n ++ back)

namespace SameUpToNumber

variable {s t : String}

theorem refl (s : String) : SameUpToNumber s s := Or.inl rfl

theorem append_left (h : SameUpToNumber s t) (head : String) :
    SameUpToNumber (head ++ s) (head ++ t) := by
  rcases h with rfl | ⟨front, back, m, n, rfl, rfl⟩
  · exact refl _
  · exact Or.inr ⟨head.toList ++ front, back, m, n, by simp, by simp⟩

theorem append_right (h : SameUpToNumber s t) (tail : String) :
    SameUpToNumber (s ++ tail) (t ++ tail) := by
  rcases h with rfl | ⟨front, back, m, n, rfl, rfl⟩
  · exact refl _
  · exact Or.inr ⟨front, back ++ tail.toList, m, n, by simp [String.append_assoc],
      by simp [String.append_assoc]⟩

end SameUpToNumber

/-- The outcomes are the same but for a scratch number in the reason. -/
structure Outcome.Alike (a b : Outcome) : Prop where
  source : a.source = b.source
  artifact : a.artifact = b.artifact
  error : Option.Rel SameUpToNumber a.error b.error

/-! ### Scratch paths -/

theorem Path.anchor_ofText_append_of_not_mem (s : Text) {t : Text} (hne : t ≠ [])
    (ht : '/' ∉ t) : Anchor.ofText (s ++ t) = Anchor.ofText (s ++ ['.']) := by
  obtain ⟨c, t, rfl⟩ := List.exists_cons_of_ne_nil hne
  have hc : c ≠ '/' := fun hc ↦ ht (hc ▸ List.mem_cons_self)
  match s with
  | [] => simp [Anchor.ofText, hc]
  | [a] => by_cases ha : a = '/' <;> simp [Anchor.ofText, hc, ha]
  | [a, b] => by_cases ha : a = '/' <;> by_cases hb : b = '/' <;> simp [Anchor.ofText, hc, ha, hb]
  | a :: b :: e :: rest =>
    by_cases ha : a = '/' <;> by_cases hb : b = '/' <;> by_cases he : e = '/' <;>
      simp [Anchor.ofText, ha, hb, he]

/-- A text without slashes lengthens the last component of a path. -/
theorem Path.exists_ofText_append (s : Text) :
    ∃ (anchor : Anchor) (directory : List Text) (stem : Text), ∀ t : Text, 1 < t.length →
      '/' ∉ t → ofText (s ++ t) = ⟨anchor, directory ++ [stem ++ t]⟩ := by
  refine ⟨Anchor.ofText (s ++ ['.']),
    (Text.splitOn '/' s).dropLast.filter fun part ↦ part ≠ [] ∧ part ≠ dot,
    (Text.splitOn '/' s).getLastD [], ?_⟩
  intro t hlong ht
  have hne : t ≠ [] := List.ne_nil_of_length_pos (by omega)
  have hkeep : (Text.splitOn '/' s).getLastD [] ++ t ≠ [] ∧
      (Text.splitOn '/' s).getLastD [] ++ t ≠ dot := by
    constructor <;> intro heq <;> have hlength := congrArg List.length heq <;>
      simp only [List.length_append, List.length_nil, dot, List.length_singleton] at hlength <;>
      omega
  rw [ofText, anchor_ofText_append_of_not_mem s hne ht, Text.splitOn_append_of_not_mem ht,
    List.filter_append, List.filter_singleton, decide_eq_true hkeep]
  rfl

theorem Path.ofText_of_not_mem {t : Text} (hlong : 1 < t.length) (ht : '/' ∉ t) :
    ofText t = ⟨.relative, [t]⟩ := by
  have hne : t ≠ [] := List.ne_nil_of_length_pos (by omega)
  have hdot : t ≠ dot := by
    rintro rfl
    exact absurd hlong (by decide)
  have hanchor := anchor_ofText_append_of_not_mem [] hne ht
  rw [List.nil_append] at hanchor
  rw [ofText, hanchor, Text.splitOn_of_not_mem ht, List.filter_singleton,
    decide_eq_true (And.intro hne hdot)]
  rfl

namespace Store

/-- The part of a scratch name that tells one scratch file from another. -/
def numbered (number : Nat) : Text := Text.hex 32 number ++ ".css".toList

theorem not_mem_numbered {c : Char} (h : c ∉ Text.hexDigits ++ ".css".toList) (n : Nat) :
    c ∉ numbered n := by
  rw [numbered, List.mem_append]
  exact fun hc ↦ h (List.mem_append.2 (hc.imp_left Text.mem_hexDigits))

theorem size_numbered (n : Nat) : Utf8.size (numbered n) = 36 := by
  rw [numbered, Utf8.size_append, Utf8.size_hex]
  rfl

theorem length_numbered (n : Nat) : (numbered n).length = 36 := by
  rw [numbered, List.length_append, Text.length_hex]
  rfl

/-- **Scratch files are next to each other** and have names of one form. -/
theorem exists_scratchPath (store : Store) :
    ∃ (anchor : Anchor) (directory : List Text) (stem : Text), ∀ n,
      store.scratchPath n = ⟨anchor, directory ++ [stem ++ numbered n]⟩ := by
  obtain ⟨anchor, directory, stem, hfile⟩ := Path.exists_ofText_append store.label
  have hscratch : ∀ n, store.scratchPath n =
      store.directory.join ⟨anchor, directory ++ [stem ++ numbered n]⟩ := by
    intro n
    have hlong : 1 < (numbered n).length := by
      rw [length_numbered]
      decide
    rw [scratchPath, List.append_assoc, ← numbered, hfile _ hlong (not_mem_numbered (by decide) n)]
  by_cases habsolute : anchor = .relative
  · refine ⟨store.directory.anchor, store.directory.parts ++ directory, stem, fun n ↦ ?_⟩
    rw [hscratch, Path.join, if_neg (by simp [Path.isAbsolute, habsolute]), List.append_assoc]
  · refine ⟨anchor, directory, stem, fun n ↦ ?_⟩
    rw [hscratch, Path.join, if_pos (by simp [Path.isAbsolute, habsolute])]

/-- Scratch files whose label has no slash are in the directory of the store. -/
theorem parts_scratchPath {store : Store} (hlabel : '/' ∉ store.label) (n : Nat) :
    (store.scratchPath n).parts = store.directory.parts ++ [store.label ++ numbered n] := by
  have hslash : '/' ∉ store.label ++ numbered n := by
    rw [List.mem_append]
    exact not_or.2 ⟨hlabel, not_mem_numbered (by decide) n⟩
  have hlong : 1 < (store.label ++ numbered n).length := by
    rw [List.length_append, length_numbered]
    omega
  rw [scratchPath, List.append_assoc, ← numbered, Path.ofText_of_not_mem hlong hslash, Path.join,
    if_neg (by simp [Path.isAbsolute])]

/-- Scratch paths differ in one place of their texts. -/
theorem exists_text_scratchPath (store : Store) :
    ∃ front : Text, ∀ n, (store.scratchPath n).text = front ++ numbered n := by
  obtain ⟨anchor, directory, stem, hpath⟩ := store.exists_scratchPath
  by_cases hdirectory : directory = []
  · refine ⟨anchor.text ++ stem, fun n ↦ ?_⟩
    rw [hpath, Path.text_eq (by simp), hdirectory]
    simp [Text.join]
  · refine ⟨anchor.text ++ Text.join ['/'] directory ++ ['/'] ++ stem, fun n ↦ ?_⟩
    rw [hpath, Path.text_eq (by simp), Text.join_append_singleton _ hdirectory]
    simp

/-- A scratch name is longer than the components that name nothing. -/
theorem ne_append_numbered {t : Text} (h : t.length < 36) (stem : Text) (n : Nat) :
    stem ++ numbered n ≠ t := by
  rintro rfl
  rw [List.length_append, length_numbered] at h
  exact absurd h (Nat.not_lt.2 (Nat.le_add_left _ _))

theorem isName_append_numbered {stem : Text} (h : '/' ∉ stem) (n : Nat) :
    Path.IsName (stem ++ numbered n) := by
  refine ⟨⟨ne_append_numbered (by decide) stem n, ne_append_numbered (by decide) stem n, ?_⟩,
    ne_append_numbered (by decide) stem n⟩
  rw [List.mem_append]
  exact not_or.2 ⟨h, not_mem_numbered (by decide) n⟩

theorem isPlain_scratchPath {store : Store} (hdirectory : store.directory.IsPlain)
    (hlabel : '/' ∉ store.label) (n : Nat) : (store.scratchPath n).IsPlain := by
  intro part hpart
  rw [parts_scratchPath hlabel] at hpart
  rcases List.mem_append.1 hpart with hpart | hpart
  · exact hdirectory part hpart
  · rw [List.mem_singleton.1 hpart]
    exact isName_append_numbered hlabel n

/-- The fault at a path: what is wrong there, or that nothing can be asked about it. -/
def faultAt (what : Option Tree.Trouble) (p : Path) : Tree.Fault :=
  match what with
  | none => .nullCharacter
  | some what => .trouble what p

/-- What is wrong with a new name of a size, where the walk to its directory is given. -/
def newNameIn (found : Except Tree.Trouble (Location × Option Entry)) (size : Nat) :
    Except (Option Tree.Trouble) Unit :=
  match found with
  | .ok (_, some .directory) =>
    if Tree.nameLimit < size then .error (some .nameTooLong) else .ok ()
  | .ok (_, some (.file ..)) => .error (some .notDirectory)
  | .ok (_, none) => .error (some .missing)
  | .error trouble => .error (some trouble)

/-- **Free scratch paths are alike.** All of them can be written to, or none of them and for the
same reason. -/
theorem exists_target_scratchPath (store : Store) (tree : Tree) :
    ∃ result : Except (Option Tree.Trouble) Unit, ∀ n, tree.IsFree (store.scratchPath n) →
      (tree.target (store.scratchPath n)).map (fun _ ↦ ()) =
        result.mapError (faultAt · (store.scratchPath n)) := by
  obtain ⟨anchor, directory, stem, hpath⟩ := store.exists_scratchPath
  obtain ⟨front, htext⟩ := store.exists_text_scratchPath
  have hnull : ∀ n, (store.scratchPath n).hasNull =
      (directory.any (·.contains (Char.ofNat 0)) || stem.contains (Char.ofNat 0)) := by
    intro n
    have hnumber : Char.ofNat 0 ∉ numbered n := not_mem_numbered (by decide) n
    simp [hpath, Path.hasNull, hnumber]
  have hsize : ∀ n, Utf8.size (stem ++ numbered n) = Utf8.size stem + 36 := by
    intro n
    rw [Utf8.size_append, size_numbered]
  have hfront : ∀ n, Utf8.size (store.scratchPath n).text = Utf8.size front + 36 := by
    intro n
    rw [htext, Utf8.size_append, size_numbered]
  refine ⟨if directory.any (·.contains (Char.ofNat 0)) || stem.contains (Char.ofNat 0) then
      .error none
    else if Tree.pathLimit < Utf8.size front + 36 then .error (some .nameTooLong)
    else newNameIn (tree.follow [] directory) (Utf8.size stem + 36), ?_⟩
  intro n hfree
  have hparts : (store.scratchPath n).parts = directory ++ [stem ++ numbered n] := by rw [hpath]
  rw [hfree.target_map, Tree.walk, hnull, hfront, hparts,
    Tree.follow_concat (ne_append_numbered (by decide) stem n), hsize]
  split
  · rfl
  · split
    · rfl
    · cases tree.follow [] directory with
      | error trouble => rfl
      | ok found =>
        obtain ⟨l, entry⟩ := found
        cases entry with
        | none => rfl
        | some entry =>
          cases entry with
          | file bytes modified => rfl
          | directory =>
            simp only [newNameIn]
            split <;> rfl

end Store

/-! ### Reasons -/

section Reasons

variable (store : Store)

theorem sameUpToNumber_text (m n : Nat) :
    SameUpToNumber (store.scratchPath m).toString (store.scratchPath n).toString := by
  obtain ⟨front, htext⟩ := store.exists_text_scratchPath
  refine Or.inr ⟨front, ".css".toList, m, n, ?_, ?_⟩
  all_goals rw [Path.toString, htext, Store.numbered, List.append_assoc]

/-- A fault at a scratch path is told alike for all of them. -/
theorem sameUpToNumber_fault (what : Option Tree.Trouble) (m n : Nat) :
    SameUpToNumber (Failure.access (Store.faultAt what (store.scratchPath m))).reason
      (Failure.access (Store.faultAt what (store.scratchPath n))).reason := by
  cases what with
  | none =>
    have hreason : ∀ p, (Failure.access (Store.faultAt none p)).reason =
        Failure.reason (.access .nullCharacter) := fun _ ↦ rfl
    rw [hreason, hreason]
    exact SameUpToNumber.refl _
  | some what =>
    have hreason : ∀ p, (Failure.access (Store.faultAt (some what) p)).reason =
        "[Errno " ++ String.ofList (Text.decimal what.code) ++ "] " ++ what.wording ++ ": " ++
          String.ofList p.text.quoted := fun _ ↦ rfl
    obtain ⟨front, htext⟩ := store.exists_text_scratchPath
    obtain ⟨front', back', hquoted⟩ := Text.exists_quoted_hex front ".css".toList 32
    have hpath : ∀ k, String.ofList (store.scratchPath k).text.quoted =
        String.ofList (front' ++ Text.hex 32 k ++ back') := by
      intro k
      rw [htext, Store.numbered, ← List.append_assoc, hquoted]
    rw [hreason, hreason]
    exact SameUpToNumber.append_left (Or.inr ⟨front', back', m, n, hpath m, hpath n⟩) _

theorem sameUpToNumber_unbalancedIn (fault : Stylesheet.Fault) (m n : Nat) :
    SameUpToNumber (unbalancedIn (store.scratchPath m) fault).reason
      (unbalancedIn (store.scratchPath n) fault).reason := by
  have hpath := (sameUpToNumber_text store m n).append_left "Unbalanced braces in "
  have hreason : ∀ p, (unbalancedIn p fault).reason =
      "Unbalanced braces in " ++ p.toString ++ ": " ++ fault.message := fun _ ↦ rfl
  rw [hreason, hreason]
  exact (hpath.append_right ": ").append_right fault.message

end Reasons

namespace Pipeline

variable {pipeline : Pipeline} {tree : Tree} {source : Path} {css : Text} {m n : Nat}

/-- What is told of a source. -/
def told (pipeline : Pipeline) (tree : Tree) (scratch source : Path) : Outcome :=
  ⟨source, ((pipeline.verdict tree scratch source).map fun _ ↦ pipeline.artifactOf source).mapError
    Failure.reason⟩

/-- An artifact is told exactly if the verdict is in favour of the source. -/
theorem told_artifact_eq_some {scratch artifact : Path} :
    (pipeline.told tree scratch source).artifact = some artifact ↔
      artifact = pipeline.artifactOf source ∧
        ∃ location declaration, pipeline.verdict tree scratch source = .ok (location, declaration) := by
  rw [told, Outcome.artifact]
  cases hverdict : pipeline.verdict tree scratch source with
  | error failure => simp [Except.map, Except.mapError, Except.toOption]
  | ok found =>
    obtain ⟨location, declaration⟩ := found
    simp [Except.map, Except.mapError, Except.toOption, eq_comm]

/-- Two failures that are told alike. -/
theorem alike_of_reason {failure failure' : Failure}
    (h : SameUpToNumber failure.reason failure'.reason) :
    (Outcome.mk source (.error failure.reason)).Alike ⟨source, .error failure'.reason⟩ :=
  ⟨rfl, rfl, Option.Rel.some h⟩

theorem drafted_alike (hm : tree.IsFree (pipeline.store.scratchPath m))
    (hn : tree.IsFree (pipeline.store.scratchPath n)) (css : Text) :
    (∃ declaration, drafted tree (pipeline.store.scratchPath m) css = .ok declaration ∧
      drafted tree (pipeline.store.scratchPath n) css = .ok declaration) ∨
    ∃ failure failure', drafted tree (pipeline.store.scratchPath m) css = .error failure ∧
      drafted tree (pipeline.store.scratchPath n) css = .error failure' ∧
      SameUpToNumber failure.reason failure'.reason := by
  obtain ⟨result, htarget⟩ := pipeline.store.exists_target_scratchPath tree
  have hdrafted : ∀ k, tree.IsFree (pipeline.store.scratchPath k) →
      drafted tree (pipeline.store.scratchPath k) css =
        match result with
        | .ok _ => Declaration.ofCss (pipeline.store.scratchPath k) css
        | .error what => .error (.access (Store.faultAt what (pipeline.store.scratchPath k))) := by
    intro k hfree
    have heq := htarget k hfree
    rw [drafted]
    cases hk : tree.target (pipeline.store.scratchPath k) with
    | ok l =>
      rw [hk] at heq
      cases result with
      | ok _ => rfl
      | error what => cases heq
    | error fault =>
      rw [hk] at heq
      cases result with
      | ok _ => cases heq
      | error what =>
        cases heq
        rfl
  rw [hdrafted m hm, hdrafted n hn]
  cases result with
  | error what =>
    exact Or.inr ⟨_, _, rfl, rfl, sameUpToNumber_fault pipeline.store what m n⟩
  | ok _ =>
    simp only [Declaration.ofCss]
    cases Stylesheet.exported (Text.unifyNewlines css) with
    | ok names => exact Or.inl ⟨_, rfl, rfl⟩
    | error fault =>
      exact Or.inr ⟨_, _, rfl, rfl, sameUpToNumber_unbalancedIn pipeline.store fault m n⟩

/-- **Scratch numbers do not matter** to what is told of a source, except for the number itself. -/
theorem told_alike (hm : tree.IsFree (pipeline.store.scratchPath m))
    (hn : tree.IsFree (pipeline.store.scratchPath n)) (source : Path) :
    (pipeline.told tree (pipeline.store.scratchPath m) source).Alike
      (pipeline.told tree (pipeline.store.scratchPath n) source) := by
  have hsame : ∀ failure : Failure,
      (Outcome.mk source (.error failure.reason)).Alike ⟨source, .error failure.reason⟩ :=
    fun failure ↦ alike_of_reason (SameUpToNumber.refl _)
  rw [told, told, verdict_eq, verdict_eq]
  cases pipeline.compiler.render tree source with
  | error failure => exact hsame failure
  | ok css =>
    rcases drafted_alike hm hn css with ⟨declaration, hdm, hdn⟩ | ⟨failure, failure', hdm, hdn, halike⟩
    · simp only [hdm, hdn]
      cases tree.target (source.artifact pipeline.suffix) with
      | error fault => exact hsame (.access fault)
      | ok l => exact ⟨rfl, rfl, Option.Rel.none⟩
    · simp only [hdm, hdn]
      exact alike_of_reason halike

theorem verdict_congr (hm : tree.IsFree (pipeline.store.scratchPath m))
    (hn : tree.IsFree (pipeline.store.scratchPath n)) {location : Location} {declaration : Text}
    (h : pipeline.verdict tree (pipeline.store.scratchPath m) source = .ok (location, declaration)) :
    pipeline.verdict tree (pipeline.store.scratchPath n) source = .ok (location, declaration) := by
  obtain ⟨css, hrender, hdrafted, htarget⟩ := verdict_eq_ok.1 h
  refine verdict_eq_ok.2 ⟨css, hrender, ?_, htarget⟩
  rcases drafted_alike hm hn css with ⟨declaration', hdm, hdn⟩ | ⟨failure, failure', hdm, -⟩
  · rw [hdn, ← hdm, hdrafted]
  · rw [hdm] at hdrafted
    cases hdrafted

end Pipeline

end CssTypings

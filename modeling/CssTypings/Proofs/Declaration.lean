import CssTypings.Declaration
import CssTypings.Proofs.Text.Ends
import CssTypings.Proofs.Text.Parts
import CssTypings.Text.Search

/-!
# Declarations determine their names

A declaration can be read back. Behind the fixed heading, one property after the other is read
(`property?`), until the end of the object: the key of a property goes up to the first quote that
has no backslash of its own in front, and the backslashes in it are undone (`unquote?`).

A name is written so that it is read as a whole, whatever characters it has and whatever follows it
(`unquote?_escape`). So no name ends its key early, and a declaration has the properties of its
names and no others: `names?_document`. As long as no name has the end of a line in it, each one has
a line of its own (`splitOn_document`).
-/

namespace CssTypings.Text

/-- A single character is replaced wherever it stands. -/
theorem replace_singleton (a : Char) (substitute t : Text) :
    replace [a] substitute t = t.flatMap fun c ↦ if c = a then substitute else [c] := by
  rw [replace]
  induction t with
  | nil => rfl
  | cons c t ih =>
    rw [replaceFrom, List.flatMap_cons]
    by_cases h : c = a
    · have hfront : [a].isPrefixOf (c :: t) = true := by simp [h]
      rw [if_pos hfront, if_pos h]
      exact congrArg (substitute ++ ·) ih
    · have hfront : ¬ [a].isPrefixOf (c :: t) = true := by simp [Ne.symm h]
      rw [if_neg hfront, if_neg h, ih, List.singleton_append]

end CssTypings.Text

namespace CssTypings.Declaration

open CssTypings.Text (after?)

/-! ### Reading declarations -/

/-- The characters up to the first quote that no backslash escapes, with escapes undone, and what
follows the quote. -/
def unquote? : Text → Option (Text × Text)
  | [] => none
  | '\'' :: r => some ([], r)
  | '\\' :: '\\' :: r => (unquote? r).map fun (t, rest) ↦ ('\\' :: t, rest)
  | '\\' :: '\'' :: r => (unquote? r).map fun (t, rest) ↦ ('\'' :: t, rest)
  | c :: r => (unquote? r).map fun (t, rest) ↦ (c :: t, rest)

/-- The name of the property at the start of a text, and the lines behind it. -/
def property? (t : Text) : Option (Text × Text) := do
  let r ← after? "  +'".toList t
  let (name, r) ← unquote? r
  let r ← after? ": string;\n".toList r
  return (name, r)

/-- The line that ends the object. -/
def ending : Text := "|\x7d;\n".toList

/-- What stands in front of the properties. -/
def heading : Text := (header ++ ["declare module.exports: \x7b|".toList]).flatMap (· ++ ['\n'])

theorem length_lt_of_unquote? {t name rest : Text} (h : unquote? t = some (name, rest)) :
    rest.length < t.length := by
  fun_induction unquote? t generalizing name with
  | case1 => cases h
  | case2 r =>
    cases h
    exact Nat.lt_succ_self _
  | case3 r ih | case4 r ih | case5 c r _ _ _ ih =>
    obtain ⟨⟨name', rest'⟩, hr, heq⟩ := Option.map_eq_some_iff.1 h
    cases heq
    have hlt := ih hr
    simp only [List.length_cons]
    omega

theorem length_lt_of_property? {t name rest : Text} (h : property? t = some (name, rest)) :
    rest.length < t.length := by
  simp only [property?, Option.bind_eq_bind, Option.bind_eq_some_iff, Option.pure_def,
    Option.some.injEq, Prod.exists, Prod.mk.injEq] at h
  obtain ⟨r, hr, name', r', hr', r'', hr'', rfl, rfl⟩ := h
  have hlt := length_lt_of_unquote? hr'
  rw [Text.eq_append_of_after? hr'', List.length_append] at hlt
  rw [Text.eq_append_of_after? hr, List.length_append]
  omega

/-- The names of the properties up to the end of the object, and what follows it. -/
def properties? (t : Text) : Option (List Text × Text) :=
  match after? ending t with
  | some rest => some ([], rest)
  | none =>
    match _h : property? t with
    | none => none
    | some (name, rest) => (properties? rest).map fun (names, rest) ↦ (name :: names, rest)
termination_by t.length
decreasing_by exact length_lt_of_property? _h

theorem properties?_of_property? {t name rest : Text} (hnot : after? ending t = none)
    (h : property? t = some (name, rest)) :
    properties? t = (properties? rest).map fun (names, rest) ↦ (name :: names, rest) := by
  rw [properties?]
  simp only [hnot]
  split
  · next hnone => cases h.symm.trans hnone
  · next name' rest' hsome =>
    cases h.symm.trans hsome
    rfl

/-- The names of a declaration at the start of a text, and what follows it. -/
def names? (t : Text) : Option (List Text × Text) := (after? heading t).bind properties?

/-! ### Names are read as a whole -/

/-- A name is written with its backslashes doubled first and its quotes escaped then. -/
theorem flatMap_escape (name : Text) :
    name.flatMap escape =
      Text.replace ['\''] ['\\', '\''] (Text.replace ['\\'] ['\\', '\\'] name) := by
  rw [Text.replace_singleton, Text.replace_singleton, List.flatMap_assoc]
  refine List.flatMap_congr fun c _ ↦ ?_
  by_cases hbackslash : c = '\\'
  · subst hbackslash
    rfl
  · by_cases hquote : c = '\'' <;> simp [escape, hbackslash, hquote]

theorem unquote?_cons {c : Char} (hquote : c ≠ '\'') (hbackslash : c ≠ '\\') (t : Text) :
    unquote? (c :: t) = (unquote? t).map fun (s, rest) ↦ (c :: s, rest) := by
  rw [unquote?] <;> simp_all

/-- **A name is read as a whole**, whatever follows it. -/
theorem unquote?_escape (name rest : Text) :
    unquote? (name.flatMap escape ++ '\'' :: rest) = some (name, rest) := by
  induction name with
  | nil => rfl
  | cons c name ih =>
    rw [List.flatMap_cons, List.append_assoc]
    by_cases hbackslash : c = '\\'
    · subst hbackslash
      exact congrArg (Option.map _) ih
    · by_cases hquote : c = '\''
      · subst hquote
        exact congrArg (Option.map _) ih
      · have hescape : escape c = [c] := by simp [escape, hbackslash, hquote]
        rw [hescape, List.singleton_append, unquote?_cons hquote hbackslash, ih]
        rfl

/-- Different names are written with different keys. -/
theorem flatMap_escape_injective : Function.Injective fun name : Text ↦ name.flatMap escape := by
  intro name name' h
  have hread := unquote?_escape name []
  rw [show name.flatMap escape = name'.flatMap escape from h, unquote?_escape] at hread
  exact (congrArg Prod.fst (Option.some.inj hread)).symm

/-- A property is its indentation, its key and the quote that ends the key, and its type. -/
theorem property_eq (name : Text) :
    property name = "  +'".toList ++ (name.flatMap escape ++ '\'' :: ": string;".toList) := by
  rw [property, List.append_assoc]
  rfl

theorem property?_append (name rest : Text) :
    property? (property name ++ '\n' :: rest) = some (name, rest) := by
  have hproperty : property name ++ '\n' :: rest =
      "  +'".toList ++ (name.flatMap escape ++ '\'' :: (": string;\n".toList ++ rest)) := by
    simp [property_eq]
  rw [hproperty, property?, Text.after?_append]
  simp only [Option.bind_eq_bind, Option.bind_some, unquote?_escape, Text.after?_append]
  rfl

theorem properties?_append (names : List Text) (rest : Text) :
    properties? ((names.map property).flatMap (· ++ ['\n']) ++ (ending ++ rest)) =
      some (names, rest) := by
  induction names with
  | nil =>
    rw [List.map_nil, List.flatMap_nil, List.nil_append, properties?, Text.after?_append]
  | cons name names ih =>
    have hlines : ((name :: names).map property).flatMap (· ++ ['\n']) ++ (ending ++ rest) =
        property name ++
          '\n' :: ((names.map property).flatMap (· ++ ['\n']) ++ (ending ++ rest)) := by
      simp
    -- a property starts with a space, the end of the object does not
    have hnot : after? ending (property name ++
        '\n' :: ((names.map property).flatMap (· ++ ['\n']) ++ (ending ++ rest))) = none :=
      Text.after?_eq_none_of_head? (c := '|') rfl (by simp [property_eq])
    rw [hlines, properties?_of_property? hnot (property?_append name _), ih]
    rfl

theorem document_eq (names : List Text) :
    document names = heading ++ ((names.map property).flatMap (· ++ ['\n']) ++ ending) := by
  simp [document, lines, heading, ending, List.flatMap_append, List.flatMap_cons]

theorem names?_append (names : List Text) (rest : Text) :
    names? (document names ++ rest) = some (names, rest) := by
  rw [document_eq, List.append_assoc, List.append_assoc, names?, Text.after?_append, Option.bind_some,
    properties?_append]

/-- **Declarations determine their names.** Every list of names is read back from its declaration,
with nothing left, so different lists have different declarations. A name is written with two
replacements one after the other, and its key is read as the whole name, whatever follows it. -/
theorem names?_document :
    (∀ names : List Text, names? (document names) = some (names, [])) ∧
    Function.Injective document ∧
    ∀ name : Text,
      property name = "  +'".toList ++
        Text.replace ['\''] ['\\', '\''] (Text.replace ['\\'] ['\\', '\\'] name) ++
          "': string;".toList ∧
      ∀ rest : Text, property? (property name ++ '\n' :: rest) = some (name, rest) := by
  have hread (names : List Text) : names? (document names) = some (names, []) := by
    have happend := names?_append names []
    rwa [List.append_nil] at happend
  refine ⟨hread, fun names names' h ↦ ?_, fun name ↦ ⟨?_, property?_append name⟩⟩
  · have hsame := congrArg names? h
    rw [hread, hread] at hsame
    exact (Prod.mk.inj (Option.some.inj hsame)).1
  · rw [property, flatMap_escape]

/-! ### One line for each name -/

theorem newline_not_mem_property {name : Text} (h : '\n' ∉ name) : '\n' ∉ property name := by
  have hkey : '\n' ∉ name.flatMap escape := by
    intro hmem
    obtain ⟨c, hc, hmem⟩ := List.mem_flatMap.1 hmem
    unfold escape at hmem
    split at hmem
    · next hquoted => rcases hquoted with rfl | rfl <;> exact absurd hmem (by decide)
    · rw [List.mem_singleton.1 hmem] at h
      exact h hc
  simp [property_eq, hkey]

/-- **Every name without an end of a line has a line of its own.** -/
theorem splitOn_document {names : List Text} (h : ∀ name ∈ names, '\n' ∉ name) :
    Text.splitOn '\n' (document names) = lines names ++ [[]] := by
  refine Text.splitOn_flatMap_concat fun line hline ↦ ?_
  simp only [lines, List.mem_append, List.mem_cons, List.mem_map, List.not_mem_nil, or_false] at hline
  rcases hline with (hheader | rfl | ⟨name, hname, rfl⟩) | rfl
  · revert line
    decide
  · decide
  · exact newline_not_mem_property (h name hname)
  · decide

/-- Three lines are in front of those of the names and one is behind them, whatever the names
are. -/
theorem exists_lines_eq : ∃ front back : List Text, front.length = 3 ∧ back.length = 1 ∧
    ∀ names, lines names = front ++ names.map property ++ back := by
  refine ⟨header ++ ["declare module.exports: \x7b|".toList], ["|\x7d;".toList], rfl, rfl,
    fun names ↦ ?_⟩
  rw [List.append_assoc _ [_], List.singleton_append]
  rfl

theorem length_lines (names : List Text) : (lines names).length = names.length + 4 := by
  obtain ⟨front, back, hfront, hback, hlines⟩ := exists_lines_eq
  rw [hlines, List.length_append, List.length_append, List.length_map, hfront, hback]
  omega

end CssTypings.Declaration

import CssTypings.Text.Word

/-!
# Identifiers in selectors

The raw form of an identifier is an optional hyphen, then a letter of ASCII, an underscore or an
escape, then any number of word characters, hyphens and escapes. An escape is a backslash and any
character but a newline; the name that an identifier stands for has the backslashes removed.
-/

namespace CssTypings.Stylesheet.Identifier

/-- The longest run of word characters, hyphens and escapes, and the rest of the text. -/
def scanTail : Text → Text × Text
  | [] => ([], [])
  | '\\' :: c :: r =>
    if c = '\n' then ([], '\\' :: c :: r)
    else let (run, rest) := scanTail r; ('\\' :: c :: run, rest)
  | c :: r =>
    if Text.isWordOrHyphen c then let (run, rest) := scanTail r; (c :: run, rest) else ([], c :: r)

/-- Scans an identifier that has no hyphen in front. -/
def scanPlain? : Text → Option (Text × Text)
  | [] => none
  | '\\' :: c :: r =>
    if c = '\n' then none
    else let (run, rest) := scanTail r; some ('\\' :: c :: run, rest)
  | c :: r =>
    if Text.isLetter c || c == '_' then let (run, rest) := scanTail r; some (c :: run, rest)
    else none

/-- The longest identifier, in its raw form, at the start of the text, and the rest. -/
def scan? : Text → Option (Text × Text)
  | '-' :: r => (scanPlain? r).map fun (raw, rest) ↦ ('-' :: raw, rest)
  | t => scanPlain? t

/-- The name that a raw form stands for: an escaped character is the character itself. -/
def unescape : Text → Text
  | [] => []
  | '\\' :: c :: r => c :: unescape r
  | c :: r => c :: unescape r

/-! ### Nothing is lost in scanning -/

theorem append_of_scanTail {t run rest : Text} (h : scanTail t = (run, rest)) :
    run ++ rest = t := by
  fun_induction scanTail t generalizing run rest <;> simp_all
  all_goals
    obtain ⟨rfl, rfl⟩ := h
    simpa

theorem append_of_scanPlain? {t raw rest : Text} (h : scanPlain? t = some (raw, rest)) :
    raw ++ rest = t := by
  fun_cases scanPlain? t <;> simp_all [scanPlain?]
  all_goals
    obtain ⟨rfl, rfl⟩ := h
    simpa using append_of_scanTail ‹scanTail _ = _›

theorem append_of_scan? {t raw rest : Text} (h : scan? t = some (raw, rest)) : raw ++ rest = t := by
  fun_cases scan? t with
  | case1 r =>
    simp only [scan?, Option.map_eq_some_iff, Prod.mk.injEq, Prod.exists] at h
    obtain ⟨raw', rest', h, rfl, rfl⟩ := h
    simpa using append_of_scanPlain? h
  | case2 t ht =>
    have hs : scan? t = scanPlain? t := by rw [scan?]; exact ht
    exact append_of_scanPlain? (hs ▸ h)

theorem length_rest_le_of_scan? {t raw rest : Text} (h : scan? t = some (raw, rest)) :
    rest.length ≤ t.length := by
  rw [← append_of_scan? h]; simp

end CssTypings.Stylesheet.Identifier

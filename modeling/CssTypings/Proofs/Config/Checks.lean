import CssTypings.Config.Merge
import CssTypings.Proofs.Collect
import CssTypings.Proofs.Path.Reading

/-!
# What the checks let through

For each check of a setting, the values that pass it and what they are turned into. A value that
does not pass is refused, so these equivalences say all about the checks but the wording of a
refusal.
-/

namespace CssTypings.Config

variable {α : Type} {anchor : Path} {name : String} {v : Value}

/-- An extension without blanks around it and dots in front. -/
def plainExtension (t : Text) : Text := t.trim.dropWhile (· = '.')

theorem head?_plainExtension_ne (t : Text) : (plainExtension t).head? ≠ some '.' := by
  intro hhead
  have hdot := List.head?_dropWhile_not (· = '.') t.trim
  rw [plainExtension] at hhead
  rw [hhead] at hdot
  exact absurd hdot (by decide)

theorem checkExtension_eq_ok_iff {t extension : Text} :
    checkExtension name t = .ok extension ↔
      plainExtension t = extension ∧ extension ≠ [] ∧ ∀ c ∈ extension, c ∉ reserved := by
  have hrefused : (plainExtension t = [] ∨ (plainExtension t).any reserved.contains) ↔
      ¬(plainExtension t ≠ [] ∧ ∀ c ∈ plainExtension t, c ∉ reserved) := by
    simp only [List.any_eq_true, List.contains_iff_mem]
    grind
  show (if plainExtension t = [] ∨ (plainExtension t).any reserved.contains then
    Except.error (Fault.field name "be a plain file extension") else .ok (plainExtension t)) = _ ↔ _
  split
  · next h =>
    constructor
    · rintro ⟨⟩
    · rintro ⟨rfl, hplain⟩
      exact absurd hplain (hrefused.1 h)
  · next h =>
    have hplain := not_not.1 (mt hrefused.2 h)
    constructor
    · rintro ⟨⟩
      exact ⟨rfl, hplain⟩
    · rintro ⟨rfl, -⟩
      rfl

theorem checkSuffix_eq_ok_iff {suffix : Text} :
    checkSuffix v = .ok suffix ↔ v = .text suffix ∧ suffix.head? = some '.' ∧ 2 ≤ suffix.length := by
  unfold checkSuffix
  split
  · next c r =>
    constructor
    · rintro ⟨⟩
      exact ⟨rfl, rfl, by simp⟩
    · rintro ⟨⟨⟩, -⟩
      rfl
  · next hother =>
    constructor
    · rintro ⟨⟩
    · rintro ⟨rfl, hhead, hlength⟩
      match suffix with
      | [] => cases hhead
      | [_] => simp at hlength
      | c' :: c :: r =>
        obtain rfl := Option.some.inj hhead
        exact absurd rfl (hother c r)

/-- The texts of a list that holds nothing else. -/
def texts? (items : List Value) : Option (List Text) :=
  items.mapM fun
    | .text t => some t
    | _ => none

theorem checkTexts_eq_ok_iff {texts : List Text} :
    checkTexts name v = .ok texts ↔ ∃ items, v = .list items ∧ texts? items = some texts := by
  cases v with
  | list items =>
    have htexts : (checkTexts name (.list items)).toOption = texts? items := by
      rw [checkTexts, toOption_mapM, texts?]
      refine congrArg (items.mapM ·) (funext fun item ↦ ?_)
      cases item <;> rfl
    rw [← toOption_eq_some, htexts]
    simp
  | _ => simp [checkTexts]

theorem checkConcurrency_eq_ok_iff {former limit : Option Nat} :
    checkConcurrency former v = .ok limit ↔
      v = .null ∧ former = limit ∨
        ∃ n, v = .integer n ∧ some n.toNat = limit ∧ 1 ≤ n ∧ n ≤ concurrencyCap := by
  cases v with
  | null => simp [checkConcurrency]
  | integer n =>
    simp only [checkConcurrency, Value.integer.injEq, exists_eq_left', reduceCtorEq, false_and,
      false_or]
    split
    · simp only [reduceCtorEq, false_iff]
      omega
    · split
      · simp only [reduceCtorEq, false_iff]
        omega
      · simp only [Except.ok.injEq, iff_self_and]
        omega
  | _ => simp [checkConcurrency]

theorem checkChoice_eq_ok_iff {choices : List String} {ofName? : Text → Option α} {a : α} :
    checkChoice name choices ofName? v = .ok a ↔ ∃ t, v = .text t ∧ ofName? t = some a := by
  cases v with
  | text t => cases hname : ofName? t <;> simp [checkChoice, checkChoice.refuse, hname]
  | _ => simp [checkChoice, checkChoice.refuse]

theorem checkInterval_eq_ok_iff {d : Double} :
    checkInterval v = .ok d ↔
      (∃ n, v = .integer n ∧ 0 < n ∧ Double.ofInt? n = some d) ∨
        v = .float d ∧ d.isAtMostZero = false := by
  cases v with
  | integer n =>
    by_cases hn : 0 < n
    · cases hdouble : Double.ofInt? n <;> simp [checkInterval, hn, Int.not_le.2 hn, hdouble]
    · simp [checkInterval, checkInterval.refuse, hn, Int.not_lt.1 hn]
  | float d' =>
    by_cases hzero : d'.isAtMostZero = true
    · simp only [checkInterval, checkInterval.refuse, hzero, if_true, reduceCtorEq, false_iff]
      rintro (⟨n, ⟨⟩, -⟩ | ⟨⟨⟩, hd⟩)
      exact absurd (hd.symm.trans hzero) (by decide)
    · simp only [checkInterval, hzero]
      constructor
      · rintro ⟨⟩
        exact Or.inr ⟨rfl, Bool.eq_false_iff.2 hzero⟩
      · rintro (⟨n, ⟨⟩, -⟩ | ⟨⟨⟩, -⟩)
        rfl
  | _ => simp [checkInterval, checkInterval.refuse]

theorem checkBool_eq_ok_iff {b : Bool} : checkBool name v = .ok b ↔ v = .bool b := by
  cases v <;> simp [checkBool]

theorem toOption_resolvePath (p : Path) : (resolvePath anchor p).toOption = anchor.resolve? p := by
  unfold resolvePath
  cases anchor.resolve? p <;> rfl

theorem resolvePath_eq_ok_iff {p path : Path} :
    resolvePath anchor p = .ok path ↔ anchor.resolve? p = some path := by
  rw [← toOption_eq_some, toOption_resolvePath]

/-- The paths that texts write, read from a directory. -/
def paths? (anchor : Path) (texts : List Text) : Option (List Path) :=
  texts.mapM fun t ↦ anchor.resolve? (.ofText t)

/-- Paths that hold null characters are not resolved. -/
theorem hasNull_of_paths? {texts : List Text} {paths : List Path}
    (h : paths? anchor texts = some paths) : ∀ path ∈ paths, path.hasNull = false := by
  induction texts generalizing paths with
  | nil =>
    obtain rfl := Option.some.inj h
    simp
  | cons t texts ih =>
    rw [paths?, List.mapM_cons] at h
    obtain ⟨path, hpath, h⟩ := Option.bind_eq_some_iff.1 h
    obtain ⟨others, hothers, h⟩ := Option.bind_eq_some_iff.1 h
    obtain rfl := Option.some.inj h
    exact List.forall_mem_cons.2 ⟨Path.hasNull_of_resolve? hpath, ih hothers⟩

theorem checkPaths_eq_ok_iff {paths : List Path} :
    checkPaths name anchor v = .ok paths ↔
      ∃ items, v = .list items ∧ (texts? items).bind (paths? anchor) = some paths := by
  have hpaths (texts : List Text) :
      texts.mapM (fun t ↦ resolvePath anchor (.ofText t)) = .ok paths ↔
        paths? anchor texts = some paths := by
    simp only [← toOption_eq_some, toOption_mapM, toOption_resolvePath, paths?]
  constructor
  · intro h
    obtain ⟨texts, htexts, h⟩ := exists_of_bind_eq_ok h
    obtain ⟨items, hv, hitems⟩ := checkTexts_eq_ok_iff.1 htexts
    exact ⟨items, hv, Option.bind_eq_some_iff.2 ⟨texts, hitems, (hpaths texts).1 h⟩⟩
  · rintro ⟨items, rfl, h⟩
    obtain ⟨texts, hitems, h⟩ := Option.bind_eq_some_iff.1 h
    exact bind_eq_of_ok (checkTexts_eq_ok_iff.2 ⟨items, rfl, hitems⟩) ((hpaths texts).2 h)

theorem checkPath_eq_ok_iff {path : Path} :
    checkPath name anchor v = .ok path ↔
      ∃ t, v = .text t ∧ t.trim ≠ [] ∧ anchor.resolve? (.ofText t) = some path := by
  cases v with
  | text t =>
    by_cases hblank : t.trim = [] <;> simp [checkPath, hblank, resolvePath_eq_ok_iff]
  | _ => simp [checkPath]

end CssTypings.Config

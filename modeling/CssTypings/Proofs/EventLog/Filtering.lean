import CssTypings.Proofs.EventLog.Appending

/-!
# Reading a log since a time

A log may hold lines of any kind. Reading it since a time goes past lines that are no JSON and past
objects without a time, but it breaks off at a value that is no object, and where every reading
breaks off. `faultOn?` says so of one line, and the lines without a fault are the readable ones
(`faultOn?_eq_none_iff`).

So there is a result just if reading everything has one that holds objects only, and then it is the
latest of the recent records among them. Otherwise the first line with a fault decides:
`read_since`.
-/

namespace CssTypings

/-- The value is an object. -/
def Json.IsObject (value : Json) : Prop := ∃ members, value = .object members

namespace EventLog

variable {tree : Tree} {path : Path} {t line : Text} {lines : List Text} {since : Codes}
  {limit large : Int} {fault : Fault}

/-! ### Faults of lines -/

/-- The word for the kind of a record that is no object. -/
def kindWord? : Json → Option String
  | .object _ => none
  | .null => some "NoneType"
  | .bool _ => some "bool"
  | .integer _ => some "int"
  | .float _ => some "float"
  | .text _ => some "str"
  | .array _ => some "list"

/-- Why reading since a time breaks off at a line, if it does. -/
def faultOn? (line : Text) : Option Fault :=
  match Json.read line.trim with
  | .ok record => (kindWord? record).map .noObject
  | .error .syntaxError => none
  | .error (.tooManyDigits count) => some (.tooManyDigits count)
  | .error (.tooDeep kind) => some (.tooDeep kind)

theorem kindWord?_eq_none_iff {record : Json} : kindWord? record = none ↔ record.IsObject := by
  cases record <;> simp [kindWord?, Json.IsObject]

theorem faultOn?_eq_none_iff : faultOn? line = none ↔ IsReadable line := by
  rw [faultOn?, IsReadable]
  cases hread : Json.read line.trim with
  | ok record =>
    simp only [Option.map_eq_none_iff, kindWord?_eq_none_iff, Json.IsObject, Except.ok.injEq,
      reduceCtorEq, or_false]
  | error fault => cases fault <;> simp

theorem isSince_of_kindWord? {record : Json} {word : String} (h : kindWord? record = some word)
    (since : Codes) : isSince since record = .error (.noObject word) := by
  cases record with
  | object members => cases h
  | _ => cases h; rfl

/-- What a fault says of a line: it holds a value that is no object, or one that the reader of
values refuses in a way of its own. -/
theorem read_of_faultOn? (h : faultOn? line = some fault) :
    (∃ record word, Json.read line.trim = .ok record ∧ kindWord? record = some word ∧
      fault = .noObject word) ∨
    (∃ count, Json.read line.trim = .error (.tooManyDigits count) ∧ fault = .tooManyDigits count) ∨
    ∃ kind, Json.read line.trim = .error (.tooDeep kind) ∧ fault = .tooDeep kind := by
  rw [faultOn?] at h
  split at h
  · next record hread =>
    obtain ⟨word, hword, rfl⟩ := Option.map_eq_some_iff.1 h
    exact Or.inl ⟨record, word, hread, hword, rfl⟩
  · cases h
  · next count hread => exact Or.inr (Or.inl ⟨count, hread, (Option.some.inj h).symm⟩)
  · next kind hread => exact Or.inr (Or.inr ⟨kind, hread, (Option.some.inj h).symm⟩)

/-- Only a line that holds something has a fault. -/
theorem trim_ne_nil_of_faultOn? (h : faultOn? line = some fault) : line.trim ≠ [] := by
  intro hblank
  have hempty : Json.read [] = .error .syntaxError := rfl
  rw [faultOn?, hblank, hempty] at h
  cases h

/-- **Reading since a time breaks off** at a line with a fault. -/
theorem recordOf_of_faultOn? (h : faultOn? line = some fault) (since : Codes) :
    recordOf (some since) line = .error fault := by
  rw [recordOf, if_neg (trim_ne_nil_of_faultOn? h)]
  rcases read_of_faultOn? h with ⟨record, word, hread, hword, rfl⟩ | ⟨count, hread, rfl⟩ |
    ⟨kind, hread, rfl⟩
  · rw [hread]
    show (isSince since record >>= _) = _
    rw [isSince_of_kindWord? hword]
    rfl
  · rw [hread]
  · rw [hread]

/-- Reading everything takes any value for a record. -/
theorem recordOf_of_read {record : Json} (h : Json.read line.trim = .ok record) :
    recordOf none line = .ok (some record) := by
  have hempty : Json.read [] = .error .syntaxError := rfl
  rw [recordOf]
  split
  · next hblank =>
    rw [hblank, hempty] at h
    cases h
  · rw [h]

theorem recordOf_eq_error_iff :
    recordOf (some since) line = .error fault ↔ faultOn? line = some fault := by
  refine ⟨fun h ↦ ?_, fun h ↦ recordOf_of_faultOn? h since⟩
  cases hfault : faultOn? line with
  | none =>
    rw [recordOf_of_isReadable (faultOn?_eq_none_iff.1 hfault)] at h
    cases h
  | some fault' =>
    rw [recordOf_of_faultOn? hfault] at h
    rw [Except.error.inj h]

theorem exists_recordOf_iff :
    (∃ record, recordOf (some since) line = .ok record) ↔ IsReadable line := by
  rw [← not_iff_not, ← exists_error_iff, ← faultOn?_eq_none_iff, ← ne_eq, Option.ne_none_iff_exists']
  simp only [recordOf_eq_error_iff]

/-- Whether the line adds a record or not makes no difference to that. -/
theorem exists_map_recordOf_iff :
    (∃ records, (recordOf (some since) line).map Option.toList = .ok records) ↔ IsReadable line := by
  rw [← @exists_recordOf_iff line since, ← not_iff_not, ← exists_error_iff, ← exists_error_iff]
  simp only [map_eq_error]

/-- Reading everything breaks off there as well, or has a value that is no object. -/
theorem exists_not_isObject (h : faultOn? line = some fault) {record : Option Json}
    (hrecord : recordOf none line = .ok record) : ∃ value ∈ record, ¬ value.IsObject := by
  rw [recordOf, if_neg (trim_ne_nil_of_faultOn? h)] at hrecord
  rcases read_of_faultOn? h with ⟨value, word, hread, hword, rfl⟩ | ⟨count, hread, rfl⟩ |
    ⟨kind, hread, rfl⟩
  · rw [hread] at hrecord
    cases hrecord
    refine ⟨value, rfl, fun hobject ↦ ?_⟩
    rw [kindWord?_eq_none_iff.2 hobject] at hword
    cases hword
  · rw [hread] at hrecord
    cases hrecord
  · rw [hread] at hrecord
    cases hrecord

/-! ### Records on lines -/

/-- **All lines are readable just if everything can be read** and holds objects only. -/
theorem forall_isReadable_iff :
    (∀ line ∈ lines, IsReadable line) ↔
      ∃ all, recordsOf none lines = .ok all ∧ ∀ record ∈ all, record.IsObject := by
  constructor
  · intro h
    refine ⟨_, recordsOf_of_isReadable h none, fun record hrecord ↦ ?_⟩
    obtain ⟨line, hline, hrecord⟩ := List.mem_filterMap.1 (List.mem_of_mem_filter hrecord)
    have hread := toOption_eq_some.1 hrecord
    rcases h line hline with ⟨members, hobject⟩ | hjunk
    · exact ⟨members, Except.ok.inj (hread.symm.trans hobject)⟩
    · rw [hjunk] at hread
      cases hread
  · rintro ⟨all, hall, hobjects⟩ line hline
    rw [recordsOf_eq_collect] at hall
    obtain ⟨first, hfirst, hsub⟩ := exists_of_collect_eq_ok hall hline
    obtain ⟨record, hrecord, rfl⟩ := exists_of_map_eq_ok hfirst
    rw [← faultOn?_eq_none_iff]
    by_contra hfault
    obtain ⟨fault, hfault⟩ := Option.ne_none_iff_exists'.1 hfault
    obtain ⟨value, hvalue, hno⟩ := exists_not_isObject hfault hrecord
    exact hno (hobjects value (hsub (Option.mem_toList.2 hvalue)))

/-- **The first fault decides** what reading since a time breaks off for. -/
theorem recordsOf_eq_error_iff :
    recordsOf (some since) lines = .error fault ↔ ∃ front line behind,
      lines = front ++ line :: behind ∧ (∀ l ∈ front, IsReadable l) ∧ faultOn? line = some fault := by
  rw [recordsOf_eq_collect, collect_eq_error_iff]
  simp only [exists_map_recordOf_iff, map_eq_error, recordOf_eq_error_iff]

/-- Reading since a time has a result just if all lines are readable. -/
theorem exists_recordsOf_iff :
    (∃ recent, recordsOf (some since) lines = .ok recent) ↔ ∀ line ∈ lines, IsReadable line := by
  refine ⟨?_, fun h ↦ ⟨_, recordsOf_of_isReadable h (some since)⟩⟩
  rintro ⟨recent, hrecent⟩ line hline
  rw [recordsOf_eq_collect] at hrecent
  obtain ⟨first, hfirst, -⟩ := exists_of_collect_eq_ok hrecent hline
  exact exists_map_recordOf_iff.1 ⟨first, hfirst⟩

/-- Objects are left out if they are before the time, and nothing else is. -/
theorem recordsOf_of_isObject {all : List Json} (hall : recordsOf none lines = .ok all)
    (hobjects : ∀ record ∈ all, record.IsObject) (since : Codes) :
    recordsOf (some since) lines = .ok (all.filter (isRecent (some since))) := by
  have hreadable := forall_isReadable_iff.2 ⟨all, hall, hobjects⟩
  have heverything : all = lines.filterMap recordOn? := by
    have hkept : (lines.filterMap recordOn?).filter (isRecent none) = lines.filterMap recordOn? :=
      List.filter_eq_self.2 fun _ _ ↦ rfl
    rw [recordsOf_of_isReadable hreadable, hkept] at hall
    exact (Except.ok.inj hall).symm
  rw [heverything]
  exact recordsOf_of_isReadable hreadable (some since)

/-! ### Reading since a time -/

/-- **Reading since a time**, compared with reading everything.

* If everything can be read and holds objects only, the result is the latest of those that have a
  time which is not before the given one, in order.
* There is no result otherwise.
* What it breaks off for is the fault of the first line that has one. -/
theorem read_since (hholds : Holds tree path t) (since : Codes) (hlimit : 1 ≤ limit)
    (hlarge : (filledLines t).length ≤ large) :
    (∀ all, read tree path none large = .ok all → (∀ record ∈ all, record.IsObject) →
      read tree path (some since) limit =
        .ok ((all.filter (isRecent (some since))).rtake limit.toNat)) ∧
    ((∃ recent, read tree path (some since) limit = .ok recent) ↔
      ∃ all, read tree path none large = .ok all ∧ ∀ record ∈ all, record.IsObject) ∧
    (∀ fault, read tree path (some since) limit = .error fault ↔
      ∃ front line behind, linesOf t = front ++ line :: behind ∧
        (∀ l ∈ front, IsReadable l) ∧ faultOn? line = some fault) := by
  have hagrees : ∀ all, read tree path none large = .ok all → (∀ record ∈ all, record.IsObject) →
      read tree path (some since) limit =
        .ok ((all.filter (isRecent (some since))).rtake limit.toNat) := by
    intro all hall hobjects
    rw [read_of_holds_of_filled_le hholds hlarge] at hall
    rw [read_of_holds hholds hlimit, recordsOf_of_isObject hall hobjects]
    rfl
  refine ⟨hagrees, ⟨?_, ?_⟩, fun fault ↦ ?_⟩
  · rintro ⟨recent, hrecent⟩
    rw [read_of_holds hholds hlimit] at hrecent
    obtain ⟨records, hrecords, -⟩ := exists_of_map_eq_ok hrecent
    rw [read_of_holds_of_filled_le hholds hlarge]
    exact forall_isReadable_iff.1 (exists_recordsOf_iff.1 ⟨records, hrecords⟩)
  · rintro ⟨all, hall, hobjects⟩
    exact ⟨_, hagrees all hall hobjects⟩
  · rw [read_of_holds hholds hlimit, map_eq_error, recordsOf_eq_error_iff]

/-- A log that starts with a number. -/
def numberLog : Text := "5\n\x7b\"timestamp\": \"2024\"\x7d\n".toList

/-- A tree with nothing but that log. -/
def numberTree : Tree := ⟨[(["log".toList], .file (Utf8.encode numberLog) 0)], 1⟩

theorem linesOf_numberLog :
    linesOf numberLog = ["5".toList, "\x7b\"timestamp\": \"2024\"\x7d".toList, []] := by
  decide +kernel

theorem read_five : Json.read (Text.trim "5".toList) = .ok (.integer 5) := by
  have htrim : Text.trim "5".toList = ['5'] := by decide +kernel
  rw [htrim]
  rfl

/-- All records of the log can be read, but not those since a time: a number has none. -/
theorem read_since_number :
    Holds numberTree (.ofText "/log".toList) numberLog ∧
      read numberTree (.ofText "/log".toList) none 2 =
        .ok [.integer 5,
          .object [(Text.codes "timestamp".toList, .text (Text.codes "2024".toList))]] ∧
      read numberTree (.ofText "/log".toList) (some (Text.codes "2024".toList)) 1 =
        .error (.noObject "int") := by
  have hholds : Holds numberTree (.ofText "/log".toList) numberLog :=
    Or.inr ⟨["log".toList], 0, by decide +kernel⟩
  have hfilled : (filledLines numberLog).length = 2 := by decide +kernel
  have hfault : faultOn? "5".toList = some (.noObject "int") := by
    rw [faultOn?, read_five]
    rfl
  have hsince := read_since hholds (Text.codes "2024".toList) (by decide : (1 : Int) ≤ 1)
    (by rw [hfilled]; decide : ((filledLines numberLog).length : Int) ≤ 2)
  refine ⟨hholds, ?_, (hsince.2.2 _).2 ⟨[], _, _, linesOf_numberLog, by simp, hfault⟩⟩
  rw [read_of_holds_of_filled_le hholds (by rw [hfilled]; decide), recordsOf_eq_collect,
    linesOf_numberLog]
  simp only [collect_cons, recordOf_of_read read_five, recordOf_of_read read_old]
  rfl

end EventLog

end CssTypings

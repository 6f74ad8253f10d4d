import CssTypings.EventLog
import CssTypings.Proofs.Collect
import CssTypings.Proofs.Json.RoundTrip
import CssTypings.Proofs.Path.Order
import CssTypings.Proofs.Path.Reading
import CssTypings.Proofs.Text.Ends
import Mathlib.Data.List.Nodup

/-!
# Records on lines

An event is logged on a line of its own. What stands on it is in graphic characters
(`LogEvent.isGraphic_of_mem_written`), so neither the end of a line nor a blank at its ends can come
from a field, and it is read as the record of the event (`LogEvent.read_written`).

So if a log ends with the end of a line, events that are appended to it add one line each
(`linesOf_append_flatMap_line`). What is read of the lines in front does not depend on those that
follow (`recordsOf_append`), and a readable line is either a record or junk
(`recordOf_of_isReadable`).
-/

namespace CssTypings

/-! ### Lines of texts -/

namespace Text

variable {s t : Text}

theorem unifyNewlines_of_not_mem (h : '\r' ∉ t) : unifyNewlines t = t := by
  induction t with
  | nil => rfl
  | cons c t ih =>
    obtain ⟨hc, ht⟩ := not_or.1 (mt List.mem_cons.2 h)
    rw [unifyNewlines, ih ht]
    · exact fun _ heq _ ↦ hc heq.symm
    · exact fun heq ↦ hc heq.symm

/-- Only a carriage return at the end of a text depends on what follows, and only on a newline. -/
theorem unifyNewlines_append (h : s.getLast? = some '\r' → t.head? ≠ some '\n') :
    unifyNewlines (s ++ t) = unifyNewlines s ++ unifyNewlines t := by
  have hreturn {r : Text} (hr : r.head? ≠ some '\n') :
      unifyNewlines ('\r' :: r) = '\n' :: unifyNewlines r := by
    rw [unifyNewlines]
    rintro r' rfl
    exact hr rfl
  have hbehind {c : Char} {s : Text} (h : (c :: s).getLast? = some '\r' → t.head? ≠ some '\n') :
      s.getLast? = some '\r' → t.head? ≠ some '\n' := by
    intro hs
    exact h (by rw [List.getLast?_cons, hs]; rfl)
  fun_induction unifyNewlines s with
  | case1 => rfl
  | case2 s ih =>
    rw [List.cons_append, List.cons_append, unifyNewlines, ih (hbehind (hbehind h)),
      List.cons_append]
  | case3 s hs ih =>
    -- what follows the carriage return is no newline, in the text or behind it
    have hne : (s ++ t).head? ≠ some '\n' := by
      cases s with
      | nil => exact h rfl
      | cons d r =>
        intro hd
        obtain rfl : d = '\n' := by simpa using hd
        exact hs r rfl
    rw [List.cons_append, hreturn hne, ih (hbehind h), List.cons_append]
  | case4 c s h₁ h₂ ih =>
    rw [List.cons_append, unifyNewlines, ih (hbehind h), List.cons_append]
    · exact fun _ heq _ ↦ h₂ heq
    · exact h₂

/-- A text that ends with the end of a line still does. -/
theorem getLast?_unifyNewlines (h : t.getLast? = some '\n') :
    (unifyNewlines t).getLast? = some '\n' := by
  have hbehind {c : Char} {s : Text} (h : (c :: s).getLast? = some '\n') (hs : s ≠ []) :
      s.getLast? = some '\n' := by
    rwa [List.getLast?_cons_of_ne_nil hs] at h
  fun_induction unifyNewlines t with
  | case1 => exact h
  | case2 s ih =>
    by_cases hs : s = []
    · rw [hs]
      rfl
    · rw [List.getLast?_cons, ih (hbehind (hbehind h (List.cons_ne_nil _ _)) hs)]
      rfl
  | case3 s _ ih =>
    have hs : s ≠ [] := by
      rintro rfl
      cases h
    rw [List.getLast?_cons, ih (hbehind h hs)]
    rfl
  | case4 c s _ _ ih =>
    by_cases hs : s = []
    · rw [hs] at h ⊢
      exact h
    · rw [List.getLast?_cons, ih (hbehind h hs)]
      rfl

end Text

namespace Json

/-- Members with names of their own are all kept in order. -/
theorem foldl_setMember {former fields : List (Codes × Json)}
    (h : ((former ++ fields).map Prod.fst).Nodup) :
    fields.foldl (fun former field ↦ setMember former field.1 field.2) former = former ++ fields := by
  induction fields generalizing former with
  | nil => exact (List.append_nil former).symm
  | cons field fields ih =>
    have hnew : ¬ former.any (fun m ↦ decide (m.1 = field.1)) = true := by
      intro hany
      obtain ⟨m, hm, hname⟩ := List.any_eq_true.1 hany
      rw [List.map_append, List.nodup_append] at h
      exact h.2.2 _ (List.mem_map_of_mem hm) _ List.mem_cons_self (by simpa using hname)
    have hset : setMember former field.1 field.2 = former ++ [field] := if_neg hnew
    rw [List.foldl_cons, hset, ih (by simpa using h), List.append_assoc, List.singleton_append]

end Json

/-! ### Events -/

namespace LogEvent

variable (event : LogEvent)

/-- The value of a text that may be missing. -/
def optionValue : Option Text → Json
  | some t => .text t.codes
  | none => .null

/-- The fields of the record, in the order of their names. -/
def fields : List (Codes × Json) :=
  [("artifact", optionValue event.artifact), ("error", optionValue event.error),
    ("mode", .text event.mode.codes), ("ok", .bool event.ok),
    ("source", .text event.source.codes), ("timestamp", .text event.timestamp.codes)].map
      fun (name, value) ↦ (Text.codes name.toList, value)

/-- The record of the event. -/
def record : Json := .object event.fields

/-- The line of the event without its end. -/
def written : Text :=
  '\x7b' :: Json.printMembers (event.members.map fun (name, value) ↦ (name.toList, value)) ++ ['\x7d']

theorem line_eq : event.line = event.written ++ ['\n'] := by
  simp [line, written, Json.printMembers, Json.printMember, Function.comp_def]

theorem writes_printOption (t : Option Text) : Json.Writes (printOption t) (optionValue t) := by
  cases t with
  | none => exact Json.writes_word (List.mem_cons_self)
  | some t => exact Json.writes_text t

theorem writes_bool (b : Bool) : Json.Writes (toString b).toList (.bool b) := by
  cases b
  · exact Json.writes_word (by simp [toString])
  · exact Json.writes_word (by simp [toString])

/-- The members are written as the fields. -/
theorem writes_members :
    List.Forall₂ Json.WritesMember (event.members.map fun (name, value) ↦ (name.toList, value))
      event.fields :=
  .cons ⟨rfl, writes_printOption _⟩ <| .cons ⟨rfl, writes_printOption _⟩ <|
    .cons ⟨rfl, Json.writes_text _⟩ <| .cons ⟨rfl, writes_bool _⟩ <|
    .cons ⟨rfl, Json.writes_text _⟩ <| .cons ⟨rfl, Json.writes_text _⟩ .nil

/-- **What is written is graphic**, whatever characters the fields have. -/
theorem isGraphic_of_mem_written {c : Char} (h : c ∈ event.written) : IsGraphic c := by
  rw [written, List.cons_append, List.mem_cons, List.mem_append, List.mem_singleton] at h
  rcases h with rfl | h | rfl
  · decide
  · exact Json.isGraphic_of_mem_printMembers event.writes_members h
  · decide

/-- **An event is read back** as its record. -/
theorem read_written : Json.read event.written = .ok event.record := by
  rw [written, Json.read_object event.writes_members (by simp [members]), Json.foldl_setMember]
  · rfl
  · simp [fields]

theorem newline_not_mem_written : '\n' ∉ event.written :=
  fun h ↦ absurd (event.isGraphic_of_mem_written h) (by decide)

theorem return_not_mem_written : '\r' ∉ event.written :=
  fun h ↦ absurd (event.isGraphic_of_mem_written h) (by decide)

/-- The line has no blanks at its end, whatever is in front of it. -/
theorem trimRight_append_written (t : Text) :
    Text.trimRight (t ++ event.written) = t ++ event.written := by
  have hend : Text.trimRight ['\x7d'] = ['\x7d'] := by decide
  rw [written, ← List.append_assoc, Text.trimRight_append, hend, if_neg (List.cons_ne_nil _ _)]

/-- The line has no blanks at its ends. -/
theorem trim_written : event.written.trim = event.written := by
  have hstart : Text.isBlank '\x7b' = false := by decide
  have hleft : event.written.trimLeft = event.written := by
    rw [written, List.cons_append, Text.trimLeft_cons_of_not_isBlank hstart]
  rw [Text.trim, hleft]
  exact event.trimRight_append_written []

end LogEvent

namespace EventLog

variable {s t line : Text} {lines : List Text} {events : List LogEvent} {since : Option Codes}

/-! ### Lines of logs -/

/-- The text is empty or ends with the end of a line. -/
def EndsLine (t : Text) : Prop := ∀ c ∈ t.getLast?, c = '\n'

instance : DecidablePred EndsLine := fun t ↦
  decidable_of_iff (t.getLast?.all (· = '\n') = true) (by simp [EndsLine, Option.all_eq_true])

/-- Behind the end of a line a new line starts. -/
theorem linesOf_append (h : EndsLine s) (t : Text) :
    linesOf (s ++ t) = (linesOf s).dropLast ++ linesOf t := by
  by_cases hs : s = []
  · rw [hs]
    rfl
  · obtain ⟨r, c, rfl⟩ := (List.eq_nil_or_concat' s).resolve_left hs
    obtain rfl : c = '\n' := h c (by simp)
    obtain ⟨u, hu⟩ : ∃ u, Text.unifyNewlines (r ++ ['\n']) = u ++ ['\n'] :=
      List.getLast?_eq_some_iff.1 (Text.getLast?_unifyNewlines (by simp))
    rw [linesOf, linesOf, linesOf, Text.unifyNewlines_append (by simp), hu, List.append_assoc,
      List.singleton_append, Text.splitOn_append_cons, Text.splitOn_append_cons]
    simp [Text.splitOn]

/-- Behind the last end nothing is left. -/
theorem linesOf_eq_dropLast_concat (h : EndsLine t) : linesOf t = (linesOf t).dropLast ++ [[]] := by
  have hempty : linesOf [] = [[]] := rfl
  conv_lhs => rw [← List.append_nil t, linesOf_append h, hempty]

/-- An event is a line. -/
theorem linesOf_line_append (event : LogEvent) (t : Text) :
    linesOf (event.line ++ t) = event.written :: linesOf t := by
  have hline : Text.unifyNewlines event.line = event.written ++ ['\n'] := by
    rw [Text.unifyNewlines_of_not_mem, event.line_eq]
    simpa [event.line_eq] using event.return_not_mem_written
  have hsplit : Text.splitOn '\n' event.written = [event.written] :=
    Text.splitOn_of_not_mem event.newline_not_mem_written
  rw [linesOf, Text.unifyNewlines_append (by simp [event.line_eq]), hline, List.append_assoc,
    List.singleton_append, Text.splitOn_append_cons, hsplit]
  rfl

/-- **Each event is one line**, behind the lines that are there. -/
theorem linesOf_append_flatMap_line (h : EndsLine s) (events : List LogEvent) :
    linesOf (s ++ events.flatMap LogEvent.line) =
      (linesOf s).dropLast ++ events.map LogEvent.written ++ [[]] := by
  rw [linesOf_append h, List.append_assoc]
  congr 1
  induction events with
  | nil => rfl
  | cons event events ih =>
    rw [List.flatMap_cons, linesOf_line_append, ih, List.map_cons, List.cons_append]

theorem length_linesOf_append_flatMap_line (h : EndsLine s) (events : List LogEvent) :
    (linesOf (s ++ events.flatMap LogEvent.line)).length = (linesOf s).length + events.length := by
  rw [linesOf_append_flatMap_line h, linesOf_eq_dropLast_concat h, List.dropLast_concat]
  simp only [List.length_append, List.length_map, List.length_singleton]
  omega

/-! ### Records -/

/-- The record on a line, if it is JSON. -/
def recordOn? (line : Text) : Option Json := (Json.read line.trim).toOption

/-- The line is an object or no JSON at all. -/
def IsReadable (line : Text) : Prop :=
  (∃ members, Json.read line.trim = .ok (.object members)) ∨
    Json.read line.trim = .error .syntaxError

/-- The record is not before the time, if one is given. A record without a time is before every
time. -/
def isRecent : Option Codes → Json → Bool
  | none, _ => true
  | some time, .object members =>
    match members.lookup (Text.codes "timestamp".toList) with
    | some (.text t) => decide (¬ t < time)
    | _ => false
  | some _, _ => false

theorem isSince_object (time : Codes) (members : List (Codes × Json)) :
    isSince time (.object members) = .ok (isRecent (some time) (.object members)) := by
  rw [isSince, isRecent]
  generalize members.lookup (Text.codes "timestamp".toList) = found
  cases found with
  | none => rfl
  | some value => cases value <;> rfl

/-- A readable line is a record or junk. -/
theorem recordOf_of_isReadable (h : IsReadable line) (since : Option Codes) :
    recordOf since line = .ok ((recordOn? line).filter (isRecent since)) := by
  have hempty : Json.read [] = .error .syntaxError := rfl
  rw [recordOf, recordOn?]
  by_cases hblank : line.trim = []
  · rw [if_pos hblank, hblank, hempty]
    rfl
  · rw [if_neg hblank]
    rcases h with ⟨members, hread⟩ | hread
    · rw [hread]
      cases since with
      | none => rfl
      | some time =>
        simp only [isSince_object]
        cases h : isRecent (some time) (.object members) <;>
          simp [Except.toOption, Option.filter, h, bind, Except.bind, pure, Except.pure]
    · rw [hread]
      rfl

-- the time of the record is a surrogate without a partner, which is before this character
example : recordOf (some (Text.codes [Char.ofNat 0xE000]))
    "\x7b\"timestamp\": \"\\ud800\"\x7d".toList = .ok none := by
  cbv

/-- The records are collected line by line. -/
theorem recordsOf_eq_collect (since : Option Codes) (lines : List Text) :
    recordsOf since lines =
      collect (fun line ↦ (recordOf since line).map Option.toList) lines := by
  induction lines with
  | nil => rfl
  | cons line lines ih =>
    rw [collect_cons, ← ih, recordsOf, recordsOf, List.mapM_cons]
    cases recordOf since line with
    | error fault => rfl
    | ok record =>
      cases lines.mapM (recordOf since) with
      | error fault => rfl
      | ok records => cases record <;> rfl

/-- **The records on readable lines.** -/
theorem recordsOf_of_isReadable (h : ∀ line ∈ lines, IsReadable line) (since : Option Codes) :
    recordsOf since lines = .ok ((lines.filterMap recordOn?).filter (isRecent since)) := by
  have hline : ∀ line ∈ lines, (recordOf since line).map Option.toList =
      .ok ((recordOn? line).filter (isRecent since)).toList := fun line hline ↦ by
    rw [recordOf_of_isReadable (h line hline)]
    rfl
  rw [recordsOf_eq_collect, collect_of_ok hline, List.filter_filterMap,
    List.filterMap_eq_flatMap_toList]

/-- A line has one record at most. -/
theorem length_le_of_recordsOf {records : List Json} (h : recordsOf since lines = .ok records) :
    records.length ≤ lines.length := by
  rw [recordsOf_eq_collect] at h
  induction lines generalizing records with
  | nil =>
    cases h
    exact Nat.le_refl _
  | cons line lines ih =>
    rw [collect_cons] at h
    obtain ⟨first, hfirst, h⟩ := exists_of_bind_eq_ok h
    obtain ⟨others, hothers, h⟩ := exists_of_bind_eq_ok h
    obtain ⟨record, -, rfl⟩ := exists_of_map_eq_ok hfirst
    have hone : record.toList.length ≤ 1 := by cases record <;> simp
    have hrest := ih hothers
    cases h
    rw [List.length_append, List.length_cons]
    omega

/-- The records on lines do not depend on the lines that follow. -/
theorem recordsOf_append (since : Option Codes) (lines more : List Text) :
    recordsOf since (lines ++ more) = do
      let records ← recordsOf since lines
      let others ← recordsOf since more
      return records ++ others := by
  simp only [recordsOf_eq_collect, collect_append]

theorem recordOn?_written (event : LogEvent) : recordOn? event.written = some event.record := by
  rw [recordOn?, event.trim_written, event.read_written]
  rfl

theorem isReadable_written (event : LogEvent) : IsReadable event.written :=
  Or.inl ⟨event.fields, by rw [event.trim_written, event.read_written, LogEvent.record]⟩

theorem isReadable_nil : IsReadable [] := Or.inr rfl

theorem filterMap_recordOn?_map_written (events : List LogEvent) :
    (events.map LogEvent.written).filterMap recordOn? = events.map LogEvent.record := by
  rw [List.filterMap_map, ← List.filterMap_eq_map]
  exact List.filterMap_congr fun event _ ↦ recordOn?_written event

/-- **Events add their records** behind those that are there. -/
theorem filterMap_recordOn?_append_flatMap_line (h : EndsLine t) (events : List LogEvent) :
    (linesOf (t ++ events.flatMap LogEvent.line)).filterMap recordOn? =
      (linesOf t).filterMap recordOn? ++ events.map LogEvent.record := by
  -- the line behind the last end has no record, neither before nor after
  have hbehind : [[]].filterMap recordOn? = [] := rfl
  rw [linesOf_append_flatMap_line h, linesOf_eq_dropLast_concat h, List.dropLast_concat]
  simp only [List.filterMap_append, hbehind, filterMap_recordOn?_map_written, List.append_nil]

/-- **What follows is read alike.** Whether a log can be read does not depend on the events that are
appended to it, and if it can, their records are read behind the others. -/
theorem recordsOf_append_flatMap_line (h : EndsLine t) (events : List LogEvent)
    (since : Option Codes) :
    recordsOf since (linesOf (t ++ events.flatMap LogEvent.line)) =
      (recordsOf since (linesOf t)).map
        (· ++ (events.map LogEvent.record).filter (isRecent since)) := by
  have hempty : recordsOf since [[]] = .ok [] :=
    recordsOf_of_isReadable (List.forall_mem_singleton.2 isReadable_nil) since
  have hevents : recordsOf since (events.map LogEvent.written) =
      .ok ((events.map LogEvent.record).filter (isRecent since)) := by
    rw [recordsOf_of_isReadable (List.forall_mem_map.2 fun event _ ↦ isReadable_written event),
      filterMap_recordOn?_map_written]
  rw [linesOf_append_flatMap_line h, linesOf_eq_dropLast_concat h, List.dropLast_concat,
    recordsOf_append, recordsOf_append, recordsOf_append, hempty, hevents]
  cases recordsOf since (linesOf t).dropLast with
  | error fault => rfl
  | ok records => simp [bind, Except.bind, pure, Except.pure, Except.map]

/-- Events keep a log readable. -/
theorem isReadable_append_flatMap_line (h : EndsLine t)
    (hreadable : ∀ line ∈ linesOf t, IsReadable line) (events : List LogEvent) :
    ∀ line ∈ linesOf (t ++ events.flatMap LogEvent.line), IsReadable line := by
  simp only [linesOf_append_flatMap_line h, List.mem_append, List.mem_map, List.mem_singleton]
  rintro line ((hline | ⟨event, -, rfl⟩) | rfl)
  · exact hreadable line (List.dropLast_subset _ hline)
  · exact isReadable_written event
  · exact isReadable_nil

end EventLog

end CssTypings

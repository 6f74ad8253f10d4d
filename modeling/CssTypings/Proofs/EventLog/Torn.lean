import CssTypings.Proofs.EventLog.Appending
import CssTypings.Proofs.Json.Joined

/-!
# Appending to a torn log

Whoever writes a log may be stopped in the middle of a line. The next event goes on with that line
(`linesOf_append_line`), and so it depends on the line what becomes of the event.

* If the line is blank, the event is read as if it stood alone (`recordsOf_append_line`).
* If it is not, then neither the event nor what was on the line is read (`recordsOf_of_isTorn`),
  since a text with an event behind it is never a value (`recordOf_append_written_ne`).

Only one event can be lost in this way: the log is not torn behind it (`not_isTorn_append_line`).
-/

namespace CssTypings

theorem LogEvent.isWhole_written (event : LogEvent) : Json.IsWhole event.written :=
  Json.isWhole_printMembers event.writes_members ⟨_, rfl, 'a', rfl, by decide⟩

namespace EventLog

variable {tree : Tree} {path : Path} {t line : Text} {since : Option Codes} {records : List Json}

/-! ### The last line -/

/-- What is behind the end of the last whole line. -/
def lastLine (t : Text) : Text := (linesOf t).getLastD []

/-- The text ends inside of a line that is not blank. -/
def IsTorn (t : Text) : Prop := ∃ c ∈ lastLine t, Text.isBlank c = false

instance : DecidablePred IsTorn := fun t ↦
  inferInstanceAs (Decidable (∃ c ∈ lastLine t, Text.isBlank c = false))

theorem linesOf_eq (t : Text) : linesOf t = (linesOf t).dropLast ++ [lastLine t] := by
  have hne : linesOf t ≠ [] := Text.splitOn_ne_nil _ _
  rw [lastLine, List.getLastD_eq_getLast?, List.getLast?_eq_some_getLast hne, Option.getD_some,
    List.dropLast_concat_getLast]

/-- **An event goes on with the last line**, and ends it. -/
theorem linesOf_append_line (t : Text) (event : LogEvent) :
    linesOf (t ++ event.line) =
      (linesOf t).dropLast ++ [lastLine t ++ event.written, []] := by
  have hline : Text.unifyNewlines event.line = event.line := by
    refine Text.unifyNewlines_of_not_mem ?_
    simpa [event.line_eq] using event.return_not_mem_written
  rw [linesOf, Text.unifyNewlines_append fun _ ↦ by simp [LogEvent.line], hline, event.line_eq,
    ← List.append_assoc, Text.splitOn_append_cons,
    Text.splitOn_append_of_not_mem event.newline_not_mem_written, List.append_assoc]
  rfl

theorem not_isTorn_append_line (t : Text) (event : LogEvent) : ¬ IsTorn (t ++ event.line) := by
  rintro ⟨c, hc, -⟩
  rw [lastLine, linesOf_append_line] at hc
  simp at hc

/-! ### The joined line -/

/-- What is read of a line does not depend on the blanks at its ends. -/
theorem recordOf_congr {line' : Text} (h : line.trim = line'.trim) (since : Option Codes) :
    recordOf since line = recordOf since line' := by
  rw [recordOf, recordOf, h]

theorem exists_trim_append_written (h : ∃ c ∈ line, Text.isBlank c = false) (event : LogEvent) :
    ∃ c front, Text.isBlank c = false ∧
      Text.trim (line ++ event.written) = c :: front ++ event.written := by
  have hleft : line.trimLeft ≠ [] := by
    obtain ⟨c, hc, hblank⟩ := h
    intro hnil
    rw [List.dropWhile_eq_nil_iff.1 hnil c hc] at hblank
    cases hblank
  obtain ⟨c, front, hfront⟩ := List.exists_cons_of_ne_nil hleft
  refine ⟨c, front, ?_, ?_⟩
  · have hhead := List.head?_dropWhile_not Text.isBlank line
    rw [← Text.trimLeft, hfront] at hhead
    simpa using hhead
  · rw [Text.trim, Text.trimLeft, List.dropWhile_append, ← Text.trimLeft, hfront]
    exact event.trimRight_append_written (c :: front)

/-- **Text in front of an event spoils it**, unless it is blank: no record is on the line. -/
theorem recordOf_append_written_ne (h : ∃ c ∈ line, Text.isBlank c = false) (event : LogEvent)
    (since : Option Codes) (record : Json) :
    recordOf since (line ++ event.written) ≠ .ok (some record) := by
  obtain ⟨c, front, hc, htrim⟩ := exists_trim_append_written h event
  intro hrecord
  rw [recordOf, htrim, if_neg (by simp)] at hrecord
  split at hrecord
  · cases hrecord
  · cases hrecord
  · cases hrecord
  · next value hvalue => exact event.isWhole_written.read_append_ne_ok hc front value hvalue

/-! ### Records of a log -/

/-- The last lines of a log after an event: the line of the event, and nothing behind it. -/
theorem recordsOf_pair (since : Option Codes) (line : Text) :
    recordsOf since [line, []] = (recordOf since line).map Option.toList := by
  have hempty : recordOf since [] = .ok none := rfl
  rw [recordsOf_eq_collect, collect_cons, collect_singleton, hempty]
  cases recordOf since line with
  | error fault => rfl
  | ok record => cases record <;> rfl

/-- **If the log is not torn, the event is read** behind the records that were there. -/
theorem recordsOf_append_line (h : ¬ IsTorn t) (event : LogEvent) (since : Option Codes) :
    recordsOf since (linesOf (t ++ event.line)) =
      (recordsOf since (linesOf t)).map (· ++ [event.record].filter (isRecent since)) := by
  have hblank : ∀ c ∈ lastLine t, Text.isBlank c = true := fun c hc ↦ by
    by_contra hc'
    exact h ⟨c, hc, by simpa using hc'⟩
  have hlast : recordsOf since [lastLine t] = recordsOf since [[]] := by
    have htrim : (lastLine t).trim = Text.trim [] := by
      simpa using Text.trim_append_of_isBlank hblank []
    rw [recordsOf_eq_collect, recordsOf_eq_collect, collect_singleton, collect_singleton,
      recordOf_congr htrim]
  have hempty : recordsOf since [[]] = .ok [] :=
    recordsOf_of_isReadable (List.forall_mem_singleton.2 isReadable_nil) since
  have hevent : recordsOf since [lastLine t ++ event.written, []] =
      .ok ([event.record].filter (isRecent since)) := by
    rw [recordsOf_pair, recordOf_congr (Text.trim_append_of_isBlank hblank _),
      recordOf_of_isReadable (isReadable_written event), recordOn?_written]
    cases h : isRecent since event.record <;> simp [Except.map, Option.filter, h]
  rw [linesOf_append_line, recordsOf_append, hevent]
  conv_rhs => rw [linesOf_eq t, recordsOf_append, hlast, hempty]
  cases recordsOf since (linesOf t).dropLast with
  | error fault => rfl
  | ok records => simp [bind, Except.bind, pure, Except.pure, Except.map]

/-- **If the log is torn, the event is lost**, and so is what was on the last line. -/
theorem recordsOf_of_isTorn (h : IsTorn t) {event : LogEvent}
    (hread : recordsOf since (linesOf (t ++ event.line)) = .ok records) :
    recordsOf since (linesOf t).dropLast = .ok records := by
  rw [linesOf_append_line, recordsOf_append, recordsOf_pair] at hread
  obtain ⟨first, hfirst, hread⟩ := exists_of_bind_eq_ok hread
  obtain ⟨others, hothers, hread⟩ := exists_of_bind_eq_ok hread
  obtain ⟨record, hrecord, rfl⟩ := exists_of_map_eq_ok hothers
  cases record with
  | none =>
    cases hread
    rw [hfirst]
    simp
  | some record => exact absurd hrecord (recordOf_append_written_ne h event since record)

/-! ### Appending -/

/-- **When an appended event is read.**

* If the log ends with a whole line, or in the middle of a blank one, the event is the latest
  record, and all that could be read before still can.
* If it ends in the middle of any other line, what is read is on the lines in front: neither the
  event is there nor what was on the last line.
* Either way the next event starts on a line of its own. -/
theorem read_append_torn (hholds : Holds tree path t) (event : LogEvent) :
    ∃ after, append tree path event = .ok after ∧
      Holds after path (t ++ event.line) ∧ ¬ IsTorn (t ++ event.line) ∧
      (¬ IsTorn t →
        read after path none 1 = (read tree path none 1).map (fun _ ↦ [event.record]) ∧
        ∀ limit : Int, (linesOf t).length < limit →
          read after path none limit = (read tree path none limit).map (· ++ [event.record])) ∧
      (IsTorn t → ∀ limit : Int, 1 ≤ limit → ∀ records, read after path none limit = .ok records →
        (recordsOf none (linesOf t).dropLast).map (List.rtake · limit.toNat) = .ok records) := by
  obtain ⟨after, happend, hafter⟩ := exists_append_of_holds hholds event
  have hrecent : [event.record].filter (isRecent none) = [event.record] := rfl
  refine ⟨after, happend, hafter, not_isTorn_append_line t event,
    fun htorn ↦ ⟨?_, fun limit hlimit ↦ ?_⟩, fun htorn limit hlimit records hread ↦ ?_⟩
  · rw [read_of_holds hafter le_rfl, read_of_holds hholds le_rfl, recordsOf_append_line htorn,
      hrecent]
    cases recordsOf none (linesOf t) with
    | error fault => rfl
    | ok records => simp [Except.map, List.rtake]
  · have hlength : (linesOf (t ++ event.line)).length = (linesOf t).length + 1 := by
      rw [linesOf_append_line]
      conv_rhs => rw [linesOf_eq t]
      simp
    rw [read_of_holds_of_le hafter (by omega), read_of_holds_of_le hholds (by omega),
      recordsOf_append_line htorn, hrecent]
  · rw [read_of_holds hafter hlimit] at hread
    obtain ⟨all, hall, rfl⟩ := exists_of_map_eq_ok hread
    rw [recordsOf_of_isTorn htorn hall]
    rfl

/-- A log that ends in the middle of a record. -/
def tornLog : Text := "\x7b\"timestamp\": \"2024\"".toList

/-- A tree with nothing but the torn log. -/
def tornTree : Tree := ⟨[(["log".toList], .file (Utf8.encode tornLog) 0)], 1⟩

/-- The first event behind a torn line is lost. -/
theorem read_append_torn_sample :
    Holds tornTree (.ofText "/log".toList) tornLog ∧
      ∃ after, append tornTree (.ofText "/log".toList) sampleEvent = .ok after ∧
        read after (.ofText "/log".toList) none 1 ≠ .ok [sampleEvent.record] := by
  have hholds : Holds tornTree (.ofText "/log".toList) tornLog :=
    Or.inr ⟨["log".toList], 0, by decide +kernel⟩
  have htorn : IsTorn tornLog := ⟨'2', by decide +kernel⟩
  have hlines : (linesOf tornLog).dropLast = [] := by decide +kernel
  obtain ⟨after, happend, -, -, -, hlost⟩ := read_append_torn hholds sampleEvent
  refine ⟨hholds, after, happend, fun hread ↦ ?_⟩
  have hnone := hlost htorn 1 le_rfl _ hread
  rw [hlines] at hnone
  cases hnone

end EventLog

end CssTypings

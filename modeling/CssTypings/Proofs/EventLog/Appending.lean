import CssTypings.Proofs.EventLog.Records
import CssTypings.Proofs.Text.Encoding
import CssTypings.Proofs.Tree.Walking
import Mathlib.Data.List.DropRight

/-!
# Appending to a log and reading it

A log is a file that holds a text, and one that is not there yet holds the empty text (`Holds`). An
event that is appended is a line more at the end of this text (`exists_append_of_holds`), and what
is read depends on the text alone (`read_of_holds`).

So after any number of events the latest records are read among those that were there and those of
the events, in order: `read_appendAll`.
-/

namespace CssTypings.EventLog

variable {tree : Tree} {path : Path} {t : Text} {since : Option Codes} {limit : Int}

/-- The log at the path holds the text. -/
def Holds (tree : Tree) (path : Path) (t : Text) : Prop :=
  (∃ location, tree.walk path = .ok (location, none) ∧ t = []) ∨
    ∃ location modified, tree.walk path = .ok (location, some (.file (Utf8.encode t) modified))

/-- The tree with events logged one after the other. -/
def appendAll (tree : Tree) (path : Path) (events : List LogEvent) : Except Tree.Fault Tree :=
  events.foldlM (fun tree event ↦ append tree path event) tree

/-! ### The text of a log -/

/-- **An event is added at the end** of the text. -/
theorem exists_append_of_holds (h : Holds tree path t) (event : LogEvent) :
    ∃ after, append tree path event = .ok after ∧ Holds after path (t ++ event.line) := by
  rcases h with ⟨location, hwalk, rfl⟩ | ⟨location, modified, hwalk⟩
  · refine ⟨Tree.changeFile.stamped tree location (Utf8.encode event.line), ?_, ?_⟩
    · rw [append, Tree.append, Tree.changeFile, hwalk]
      rfl
    · exact Or.inr ⟨location, tree.clock, Tree.walk_stamped hwalk (by simp) _⟩
  · have hencode : Utf8.encode t ++ Utf8.encode event.line = Utf8.encode (t ++ event.line) :=
      List.flatMap_append.symm
    refine ⟨Tree.changeFile.stamped tree location (Utf8.encode (t ++ event.line)), ?_, ?_⟩
    · rw [append, Tree.append, Tree.changeFile, hwalk]
      simp only [hencode]
    · exact Or.inr ⟨location, tree.clock, Tree.walk_stamped hwalk (by simp) _⟩

/-- Events are added one behind the other. -/
theorem exists_appendAll_of_holds (h : Holds tree path t) (events : List LogEvent) :
    ∃ after, appendAll tree path events = .ok after ∧
      Holds after path (t ++ events.flatMap LogEvent.line) := by
  induction events generalizing tree t with
  | nil => exact ⟨tree, rfl, by simpa using h⟩
  | cons event events ih =>
    obtain ⟨middle, happend, hmiddle⟩ := exists_append_of_holds h event
    obtain ⟨after, happendAll, hafter⟩ := ih hmiddle
    refine ⟨after, ?_, ?_⟩
    · rw [appendAll, List.foldlM_cons, happend]
      exact happendAll
    · rwa [List.flatMap_cons, ← List.append_assoc]

/-- **What is read depends on the text alone.** -/
theorem read_of_holds (h : Holds tree path t) (hlimit : 1 ≤ limit) (since : Option Codes) :
    read tree path since limit = (recordsOf since (linesOf t)).map (List.rtake · limit.toNat) := by
  rw [read, if_neg (by omega)]
  rcases h with ⟨location, hwalk, rfl⟩ | ⟨location, modified, hwalk⟩
  · have hhas : tree.has path = .ok false := by
      rw [Tree.has, Tree.look_of_walk hwalk]
      rfl
    have hempty : recordsOf since (linesOf []) = .ok [] :=
      recordsOf_of_isReadable (List.forall_mem_singleton.2 isReadable_nil) since
    rw [hhas, hempty, Except.map, List.rtake_nil]
    rfl
  · have hhas : tree.has path = .ok true := by
      rw [Tree.has, Tree.look_of_walk hwalk]
      rfl
    rw [hhas, Tree.read_of_walk hwalk]
    simp only [Except.mapError, bind, Except.bind, if_true, Utf8.decode_encode]
    cases recordsOf since (linesOf t) <;> rfl

/-- The lines that hold something. -/
def filledLines (t : Text) : List Text := (linesOf t).filter fun line ↦ line.trim ≠ []

/-- Blank lines have no records. -/
theorem recordsOf_filledLines (since : Option Codes) (t : Text) :
    recordsOf since (filledLines t) = recordsOf since (linesOf t) := by
  rw [recordsOf_eq_collect, recordsOf_eq_collect, filledLines]
  refine collect_filter fun line _ hblank ↦ ?_
  rw [recordOf, if_pos (by simpa using hblank)]
  rfl

/-- **A limit that is large enough leaves nothing out.** -/
theorem read_of_holds_of_filled_le (h : Holds tree path t)
    (hlimit : (filledLines t).length ≤ limit) (since : Option Codes) :
    read tree path since limit = recordsOf since (linesOf t) := by
  rw [← recordsOf_filledLines]
  by_cases hone : limit < 1
  · have hnone : filledLines t = [] := List.length_eq_zero_iff.1 (by omega)
    rw [read, if_pos hone, hnone]
    rfl
  · rw [read_of_holds h (by omega), ← recordsOf_filledLines]
    cases hrecords : recordsOf since (filledLines t) with
    | error fault => rfl
    | ok records =>
      have hlength := length_le_of_recordsOf hrecords
      have hdrop : records.length - limit.toNat = 0 := by omega
      rw [Except.map, List.rtake, hdrop, List.drop_zero]

theorem read_of_holds_of_le (h : Holds tree path t) (hlimit : (linesOf t).length ≤ limit)
    (since : Option Codes) : read tree path since limit = recordsOf since (linesOf t) := by
  have hfilled : (filledLines t).length ≤ (linesOf t).length := List.length_filter_le _ _
  exact read_of_holds_of_filled_le h (by omega) since

/-! ### Reading what was appended -/

/-- **What was appended is read.** Each event adds one line to a log of whole lines, and the latest
records are those that were there and those of the events, in order, as far as they are recent. -/
theorem read_appendAll (hholds : Holds tree path t) (hends : EndsLine t)
    (hreadable : ∀ line ∈ linesOf t, IsReadable line) (events : List LogEvent)
    (since : Option Codes) (hlimit : 1 ≤ limit) :
    ∃ after, appendAll tree path events = .ok after ∧
      Holds after path (t ++ events.flatMap LogEvent.line) ∧
      linesOf (t ++ events.flatMap LogEvent.line) =
        (linesOf t).dropLast ++ events.map LogEvent.written ++ [[]] ∧
      read after path since limit =
        .ok ((((linesOf t).filterMap recordOn? ++ events.map LogEvent.record).filter
          (isRecent since)).rtake limit.toNat) := by
  obtain ⟨after, happendAll, hafter⟩ := exists_appendAll_of_holds hholds events
  refine ⟨after, happendAll, hafter, linesOf_append_flatMap_line hends events, ?_⟩
  rw [read_of_holds hafter hlimit,
    recordsOf_of_isReadable (isReadable_append_flatMap_line hends hreadable events),
    filterMap_recordOn?_append_flatMap_line hends]
  rfl

/-- A log with a blank line, one that is no JSON, and an old record. -/
def sampleLog : Text := "\nno record\n\x7b\"timestamp\": \"2024\"\x7d\n".toList

/-- A tree with nothing but the log. -/
def sampleTree : Tree := ⟨[(["log".toList], .file (Utf8.encode sampleLog) 0)], 1⟩

/-- An event whose source and error need escapes. -/
def sampleEvent : LogEvent where
  timestamp := "2025".toList
  mode := "batch".toList
  source := ['"', '\\', '\u2028', Char.ofNat 0x1F600]
  artifact := none
  ok := false
  error := some ['\n', '\r']

theorem linesOf_sampleLog : linesOf sampleLog =
    [[], "no record".toList, "\x7b\"timestamp\": \"2024\"\x7d".toList, []] := by decide +kernel

theorem read_junk : Json.read (Text.trim "no record".toList) = .error .syntaxError := by
  have htrim : Text.trim "no record".toList = "no record".toList := by decide +kernel
  rw [htrim]
  rfl

theorem read_old : Json.read (Text.trim "\x7b\"timestamp\": \"2024\"\x7d".toList) =
    .ok (.object [(Text.codes "timestamp".toList, .text (Text.codes "2024".toList))]) := by
  have hwrites : Json.WritesMember ("timestamp".toList, Json.printText "2024".toList)
      (Text.codes "timestamp".toList, .text (Text.codes "2024".toList)) :=
    ⟨rfl, Json.writes_text _⟩
  have htrim : Text.trim "\x7b\"timestamp\": \"2024\"\x7d".toList =
      '\x7b' :: Json.printMembers [("timestamp".toList, Json.printText "2024".toList)] ++
        ['\x7d'] := by
    decide +kernel
  rw [htrim]
  exact Json.read_object (.cons hwrites .nil) (List.cons_ne_nil _ _)

theorem read_appendAll_sample :
    Holds sampleTree (.ofText "/log".toList) sampleLog ∧ EndsLine sampleLog ∧
      (∀ line ∈ linesOf sampleLog, IsReadable line) ∧
      ∃ after, appendAll sampleTree (.ofText "/log".toList) [sampleEvent, sampleEvent] = .ok after ∧
        read after (.ofText "/log".toList) (some (Text.codes "2025".toList)) 3 =
          .ok [sampleEvent.record, sampleEvent.record] := by
  have hholds : Holds sampleTree (.ofText "/log".toList) sampleLog :=
    Or.inr ⟨["log".toList], 0, by decide +kernel⟩
  have hends : EndsLine sampleLog := by decide
  have hreadable : ∀ line ∈ linesOf sampleLog, IsReadable line := by
    rw [linesOf_sampleLog]
    exact List.forall_mem_cons.2 ⟨isReadable_nil, List.forall_mem_cons.2 ⟨Or.inr read_junk,
      List.forall_mem_cons.2 ⟨Or.inl ⟨_, read_old⟩, List.forall_mem_singleton.2 isReadable_nil⟩⟩⟩
  obtain ⟨after, happendAll, -, -, hread⟩ :=
    read_appendAll hholds hends hreadable [sampleEvent, sampleEvent] (some (Text.codes "2025".toList))
      (by decide : (1 : Int) ≤ 3)
  refine ⟨hholds, hends, hreadable, after, happendAll, ?_⟩
  have hrecords : (linesOf sampleLog).filterMap recordOn? =
      [.object [(Text.codes "timestamp".toList, .text (Text.codes "2024".toList))]] := by
    have hnil : recordOn? [] = none := rfl
    have hjunk : recordOn? "no record".toList = none := by
      rw [recordOn?, read_junk]
      rfl
    have hold : recordOn? "\x7b\"timestamp\": \"2024\"\x7d".toList =
        some (.object [(Text.codes "timestamp".toList, .text (Text.codes "2024".toList))]) := by
      rw [recordOn?, read_old]
      rfl
    rw [linesOf_sampleLog, List.filterMap_cons_none hnil, List.filterMap_cons_none hjunk,
      List.filterMap_cons_some hold, List.filterMap_cons_none hnil]
    rfl
  have hrecent : isRecent (some (Text.codes "2025".toList)) sampleEvent.record = true := by
    decide +kernel
  have hold : ¬ isRecent (some (Text.codes "2025".toList))
      (.object [(Text.codes "timestamp".toList, .text (Text.codes "2024".toList))]) = true := by
    decide +kernel
  rw [hread, hrecords, List.map_cons, List.map_singleton, List.singleton_append,
    List.filter_cons_of_neg hold, List.filter_cons_of_pos hrecent,
    List.filter_cons_of_pos hrecent]
  rfl

end CssTypings.EventLog

import Kaiion.Foundation.Segments
import Kaiion.Request.Body
import Mathlib.Data.List.Induction

/-! The usage a streamed response reports, read while the stream passes through. -/
namespace Kaiion.Proxy
open Foundation

/-- Input tokens, output tokens and whether the cache was read. -/
abbrev Usage := Option Nat × Option Nat × Option Bool

structure SseUsageTracker where
  line : List UInt8
  data : List UInt8
  usage : Option Usage
  oversized : Bool
  deriving DecidableEq

namespace SseUsageTracker

/-- `SseUsageTracker::default`. -/
def empty : SseUsageTracker := ⟨[], [], none, false⟩

def maxEventBytes : Nat := 2 * 1024 * 1024

def lineFeed : UInt8 := 10

def carriageReturn : UInt8 := 13

def dataPrefix : List UInt8 := [100, 97, 116, 97, 58]

def stripPrefix (start bytes : List UInt8) : Option (List UInt8) :=
  if start <+: bytes then some (bytes.drop start.length) else none

/-- Some field of the usage is known. -/
def reports (usage : Usage) : Bool := usage.1.isSome || usage.2.1.isSome || usage.2.2.isSome

/-- `serde_json::from_slice`. -/
def fromSlice (c : Codec) (bytes : List UInt8) : Option Value :=
  (String.fromUTF8? ⟨bytes.toArray⟩).bind (fun text => (c.parse text).toOption)

section Tracking
variable (c : Codec)

def processEvent (tracker : SseUsageTracker) : SseUsageTracker :=
  let usage :=
    if !tracker.oversized && !tracker.data.isEmpty then
      match fromSlice c tracker.data with
      | some value => if reports (responseUsage value) then some (responseUsage value) else tracker.usage
      | none => tracker.usage
    else tracker.usage
  { tracker with usage, data := [], oversized := false }

/-- The value of a data line, without one leading space. -/
def takeValue (tracker : SseUsageTracker) (value : List UInt8) : SseUsageTracker :=
  let value := (stripPrefix [32] value).getD value
  if maxEventBytes < tracker.data.length + value.length then { tracker with data := [], oversized := true }
  else { tracker with data := (if tracker.data.isEmpty then [] else tracker.data ++ [lineFeed]) ++ value }

def processLine (tracker : SseUsageTracker) : SseUsageTracker :=
  let tracker := { tracker with
    line := if tracker.line.getLast? = some carriageReturn then tracker.line.dropLast else tracker.line }
  if tracker.line.isEmpty then processEvent c tracker
  else
    match stripPrefix dataPrefix tracker.line with
    | some value => if tracker.oversized then tracker else tracker.takeValue value
    | none => tracker

/-- The body of the loop of `push`. -/
def pushByte (tracker : SseUsageTracker) (byte : UInt8) : SseUsageTracker :=
  if byte = lineFeed then { processLine c tracker with line := [] }
  else if tracker.line.length < maxEventBytes then { tracker with line := tracker.line ++ [byte] }
  else tracker

def push (tracker : SseUsageTracker) (bytes : List UInt8) : SseUsageTracker := bytes.foldl (pushByte c) tracker

def finish (tracker : SseUsageTracker) : SseUsageTracker :=
  processEvent c (if tracker.line.isEmpty then tracker else { processLine c tracker with line := [] })

end Tracking

/-- The part of a line that is kept. -/
def trimLine (line : List UInt8) : List UInt8 :=
  let kept := line.take maxEventBytes
  if kept.getLast? = some carriageReturn then kept.dropLast else kept

/-- The lines of each event. -/
def streamEvents (bytes : List UInt8) : List (List (List UInt8)) :=
  ((bytes.splitOn lineFeed).map trimLine).splitOn []

def trimValue (value : List UInt8) : List UInt8 := (stripPrefix [32] value).getD value

def dataValue (line : List UInt8) : Option (List UInt8) := (stripPrefix dataPrefix line).map trimValue

def joinValues (values : List (List UInt8)) : List UInt8 := [lineFeed].intercalate (values.dropWhile List.isEmpty)

/-- Some value does not fit behind those before it. -/
def Oversized (values : List (List UInt8)) : Prop :=
  ∃ n < values.length, maxEventBytes < (joinValues (values.take n)).length + (values[n]?.getD []).length

instance (values : List (List UInt8)) : Decidable (Oversized values) :=
  inferInstanceAs (Decidable (∃ n < values.length, _))

def eventUsage (c : Codec) (lines : List (List UInt8)) : Option Usage :=
  let values := lines.filterMap dataValue
  if Oversized values ∨ joinValues values = [] then none
  else ((fromSlice c (joinValues values)).map responseUsage).filter reports

/-- The usage that the stream reports, taken as a whole. -/
def streamUsage (c : Codec) (bytes : List UInt8) : Option Usage :=
  ((streamEvents bytes).filterMap (eventUsage c)).getLast?

section Lines
variable {c : Codec}

/-- A byte of a line, as long as there is room for it. -/
private def keepByte (tracker : SseUsageTracker) (byte : UInt8) : SseUsageTracker :=
  if tracker.line.length < maxEventBytes then { tracker with line := tracker.line ++ [byte] } else tracker

private def endLine (c : Codec) (tracker : SseUsageTracker) : SseUsageTracker :=
  { processLine c tracker with line := [] }

private theorem pushByte_eq (c : Codec) : pushByte c = readSeparated (· == lineFeed) keepByte (endLine c) := by
  funext tracker byte
  unfold pushByte readSeparated
  by_cases hbyte : byte = lineFeed
  · simp [hbyte, endLine]
  · simp [hbyte, keepByte]

/-- A line is kept up to its bound. -/
private theorem foldl_keepByte (line : List UInt8) (tracker : SseUsageTracker) :
    line.foldl keepByte tracker =
      { tracker with line := tracker.line ++ line.take (maxEventBytes - tracker.line.length) } := by
  induction line generalizing tracker with
  | nil => simp
  | cons byte line ih =>
    rw [List.foldl_cons, ih]
    unfold keepByte
    split
    next hroom =>
      obtain ⟨room, hroom⟩ := Nat.exists_eq_add_of_lt hroom
      have hrest : maxEventBytes - tracker.line.length = room + 1 := by omega
      have hless : maxEventBytes - (tracker.line ++ [byte]).length = room := by
        rw [List.length_append, List.length_singleton]
        omega
      rw [hrest, hless, List.take_succ_cons, List.append_assoc]
      rfl
    next hfull =>
      rw [Nat.sub_eq_zero_of_le (Nat.not_lt.mp hfull), List.take_zero, List.take_zero]

/-- A line that is not empty, as `process_line` takes it. -/
private def feedLine (tracker : SseUsageTracker) (line : List UInt8) : SseUsageTracker :=
  match stripPrefix dataPrefix line with
  | some value => if tracker.oversized then tracker else tracker.takeValue value
  | none => tracker

private theorem feedLine_line (tracker : SseUsageTracker) (line : List UInt8) :
    (feedLine tracker line).line = tracker.line := by
  unfold feedLine takeValue
  split
  · split
    · rfl
    · dsimp only
      split <;> rfl
  · rfl

/-- What a finished line does to what is kept of its event. -/
private theorem endLine_of_line {tracker : SseUsageTracker} (hline : tracker.line = []) (line : List UInt8) :
    endLine c (line.foldl keepByte tracker) =
      readSeparated (· == []) feedLine (processEvent c) tracker (trimLine line) := by
  obtain ⟨_, data, usage, oversized⟩ := tracker
  obtain rfl := hline
  rw [foldl_keepByte]
  change { (if (trimLine line).isEmpty then processEvent c ⟨trimLine line, data, usage, oversized⟩
    else match stripPrefix dataPrefix (trimLine line) with
      | some value => if oversized then ⟨trimLine line, data, usage, oversized⟩
        else takeValue ⟨trimLine line, data, usage, oversized⟩ value
      | none => ⟨trimLine line, data, usage, oversized⟩) with line := [] } = _
  unfold readSeparated
  cases htrim : trimLine line with
  | nil => rfl
  | cons byte rest =>
    rw [if_neg (by simp), if_neg (by simp)]
    unfold feedLine
    cases stripPrefix dataPrefix (byte :: rest) with
    | none => rfl
    | some value =>
      cases oversized with
      | false =>
        unfold takeValue
        by_cases hroom : maxEventBytes < data.length + ((stripPrefix [32] value).getD value).length <;> simp [hroom]
      | true => rfl

private theorem readLine_line {tracker : SseUsageTracker} (hline : tracker.line = []) (line : List UInt8) :
    (readSeparated (· == []) feedLine (processEvent c) tracker line).line = [] := by
  unfold readSeparated
  split
  · exact hline
  · rw [feedLine_line, hline]

private theorem foldl_lines (segments : List (List UInt8)) {tracker : SseUsageTracker} (hline : tracker.line = []) :
    segments.foldl (fun tracker line => endLine c (line.foldl keepByte tracker)) tracker =
      (segments.map trimLine).foldl (readSeparated (· == []) feedLine (processEvent c)) tracker := by
  induction segments generalizing tracker with
  | nil => rfl
  | cons line segments ih =>
    rw [List.map_cons, List.foldl_cons, List.foldl_cons, endLine_of_line hline, ih (readLine_line hline _)]

/-- Finishing reports what closing the last line and the last event does. -/
private theorem finish_usage (tracker : SseUsageTracker) :
    (finish c tracker).usage = (processEvent c (endLine c tracker)).usage := by
  unfold finish
  cases hline : tracker.line with
  | nil =>
    have hend : endLine c tracker = processEvent c tracker := by
      obtain ⟨_, data, usage, oversized⟩ := tracker
      obtain rfl := hline
      rfl
    rw [hend]
    rfl
  | cons byte line => rfl

end Lines

section Events
variable {c : Codec}

private theorem intercalate_concat (values : List (List UInt8)) (value : List UInt8) (h : values ≠ []) :
    [lineFeed].intercalate (values ++ [value]) = [lineFeed].intercalate values ++ [lineFeed] ++ value := by
  induction values with
  | nil => exact absurd rfl h
  | cons first rest ih =>
    cases rest with
    | nil => simp
    | cons second rest =>
      rw [List.cons_append, List.intercalate_cons_of_ne_nil (by simp), ih (List.cons_ne_nil _ _),
        List.intercalate_cons_cons]
      simp

private theorem joinValues_isEmpty (values : List (List UInt8)) :
    (joinValues values).isEmpty = (values.dropWhile List.isEmpty).isEmpty := by
  unfold joinValues
  cases hrest : values.dropWhile List.isEmpty with
  | nil => rfl
  | cons value rest =>
    have hvalue : value ≠ [] := by
      have hhead := List.head?_dropWhile_not List.isEmpty values
      rw [hrest] at hhead
      simpa using hhead
    cases rest with
    | nil => simpa using hvalue
    | cons next rest =>
      rw [List.intercalate_cons_cons]
      simp [hvalue]

theorem joinValues_concat (values : List (List UInt8)) (value : List UInt8) : joinValues (values ++ [value]) =
    (if (joinValues values).isEmpty then [] else joinValues values ++ [lineFeed]) ++ value := by
  rw [joinValues_isEmpty]
  unfold joinValues
  rw [List.dropWhile_append]
  split
  · cases value <;> simp
  next hrest => rw [intercalate_concat _ _ (by simpa using hrest)]

theorem oversized_concat (values : List (List UInt8)) (value : List UInt8) : Oversized (values ++ [value]) ↔
    Oversized values ∨ maxEventBytes < (joinValues values).length + value.length := by
  unfold Oversized
  rw [List.length_append, List.length_singleton]
  constructor
  · rintro ⟨n, hn, hsize⟩
    rcases Nat.lt_succ_iff_lt_or_eq.mp hn with hn | rfl
    · rw [List.take_append_of_le_length hn.le, List.getElem?_append_left hn] at hsize
      exact .inl ⟨n, hn, hsize⟩
    · simp at hsize
      exact .inr hsize
  · rintro (⟨n, hn, hsize⟩ | hsize)
    · refine ⟨n, by omega, ?_⟩
      rw [List.take_append_of_le_length hn.le, List.getElem?_append_left hn]
      exact hsize
    · exact ⟨values.length, by omega, by simpa using hsize⟩

/-- What is kept of an event while its lines are read. -/
private theorem foldl_feedLine (lines : List (List UInt8)) (line : List UInt8) (usage : Option Usage) :
    lines.foldl feedLine ⟨line, [], usage, false⟩ =
      ⟨line, if Oversized (lines.filterMap dataValue) then [] else joinValues (lines.filterMap dataValue), usage,
        decide (Oversized (lines.filterMap dataValue))⟩ := by
  induction lines using List.reverseRecOn with
  | nil => rfl
  | append_singleton lines next ih =>
    rw [List.foldl_append, ih, List.foldl_cons, List.foldl_nil, List.filterMap_append]
    unfold feedLine
    cases hvalue : stripPrefix dataPrefix next with
    | none => simp [dataValue, hvalue]
    | some value =>
      have htaken : [next].filterMap dataValue = [trimValue value] := by simp [dataValue, hvalue]
      rw [htaken]
      by_cases hover : Oversized (lines.filterMap dataValue)
      · have hstays := (oversized_concat _ (trimValue value)).mpr (.inl hover)
        simp [hover, hstays]
      · by_cases hsize : maxEventBytes < (joinValues (lines.filterMap dataValue)).length + (trimValue value).length
        · have hgrown := (oversized_concat _ (trimValue value)).mpr (.inr hsize)
          simp only [hover, hgrown, decide_false, decide_true, if_true, if_false, Bool.false_eq_true]
          exact if_pos hsize
        · have hfits : ¬ Oversized (lines.filterMap dataValue ++ [trimValue value]) :=
            fun h => ((oversized_concat _ _).mp h).elim hover hsize
          simp only [hover, hfits, decide_false, if_false, Bool.false_eq_true]
          rw [joinValues_concat]
          exact if_neg hsize

/-- An event that is closed leaves its usage, if it has one. -/
private theorem close_event (lines : List (List UInt8)) (line : List UInt8) (usage : Option Usage) :
    processEvent c (lines.foldl feedLine ⟨line, [], usage, false⟩) =
      ⟨line, [], (eventUsage c lines).or usage, false⟩ := by
  rw [foldl_feedLine]
  unfold processEvent eventUsage
  by_cases hover : Oversized (lines.filterMap dataValue)
  · simp [hover]
  · by_cases hempty : joinValues (lines.filterMap dataValue) = []
    · simp [hover, hempty]
    · cases hparse : fromSlice c (joinValues (lines.filterMap dataValue)) with
      | none => simp [hover, hempty, hparse]
      | some value =>
        by_cases hreports : reports (responseUsage value) = true
        · simp [hover, hempty, hparse, hreports, Option.filter]
        · simp [hover, hempty, hparse, hreports, Option.filter]

/-- The last usage stands. -/
private theorem close_events (events : List (List (List UInt8))) (line : List UInt8) (usage : Option Usage) :
    events.foldl (fun tracker lines => processEvent c (lines.foldl feedLine tracker)) ⟨line, [], usage, false⟩ =
      ⟨line, [], (events.filterMap (eventUsage c)).getLast?.or usage, false⟩ := by
  induction events using List.reverseRecOn with
  | nil => rfl
  | append_singleton events lines ih =>
    rw [List.foldl_append, ih, List.foldl_cons, List.foldl_nil, close_event, List.filterMap_append]
    cases hlines : eventUsage c lines with
    | none => simp [hlines]
    | some usage => simp [hlines]

end Events

/-- After it is finished the tracker knows what the whole stream reports. -/
theorem finish_usage_whole (c : Codec) (chunks : List (List UInt8)) :
    (finish c (chunks.foldl (push c) empty)).usage = streamUsage c chunks.flatten := by
  have hpush : chunks.foldl (push c) empty = chunks.flatten.foldl (pushByte c) empty := List.foldl_flatten.symm
  rw [finish_usage, hpush, pushByte_eq, close_foldl_readSeparated (· == lineFeed) keepByte (endLine c),
    foldl_lines _ (rfl : empty.line = []), close_foldl_readSeparated (· == []) feedLine (processEvent c)]
  exact (congrArg SseUsageTracker.usage (close_events _ [] none)).trans (Option.or_none ..)

/-- Read in chunks of any sizes, a stream reports what it reports as a whole, and an event that is too
large changes nothing in what the others report. -/
theorem streaming_usage_is_whole (c : Codec) :
    (∀ chunks : List (List UInt8), (finish c (chunks.foldl (push c) empty)).usage = streamUsage c chunks.flatten) ∧
    ∀ bytes before lines after, streamEvents bytes = before ++ lines :: after →
      Oversized (lines.filterMap dataValue) →
      streamUsage c bytes = ((before ++ after).filterMap (eventUsage c)).getLast? := by
  refine ⟨finish_usage_whole c, fun bytes before lines after hevents hover => ?_⟩
  have hnone : eventUsage c lines = none := if_pos (.inl hover)
  unfold streamUsage
  rw [hevents, List.filterMap_append, List.filterMap_cons_none hnone, List.filterMap_append]

/-- The lines of each event that an empty line has closed. -/
def closedEvents (bytes : List UInt8) : List (List (List UInt8)) :=
  (((bytes.splitOn lineFeed).dropLast.map trimLine).splitOn []).dropLast

/-- The usage that a stream reports which breaks off. -/
def closedUsage (c : Codec) (bytes : List UInt8) : Option Usage :=
  ((closedEvents bytes).filterMap (eventUsage c)).getLast?

private theorem foldl_feedLine_usage (lines : List (List UInt8)) (tracker : SseUsageTracker) :
    (lines.foldl feedLine tracker).usage = tracker.usage := by
  induction lines generalizing tracker with
  | nil => rfl
  | cons line lines ih =>
    rw [List.foldl_cons, ih]
    unfold feedLine takeValue
    split
    · split
      · rfl
      · dsimp only
        split <;> rfl
    · rfl

/-- Before it is finished the tracker knows what the closed events report. -/
theorem push_usage (c : Codec) (chunks : List (List UInt8)) :
    (chunks.foldl (push c) empty).usage = closedUsage c chunks.flatten := by
  have hpush : chunks.foldl (push c) empty = chunks.flatten.foldl (pushByte c) empty := List.foldl_flatten.symm
  obtain ⟨lines, line, hlines, hread⟩ :=
    foldl_readSeparated (· == lineFeed) keepByte (endLine c) chunks.flatten empty
  obtain ⟨events, event, hevents, hclosed⟩ :=
    foldl_readSeparated (· == []) feedLine (processEvent c) (lines.map trimLine) empty
  have hsplit : (chunks.flatten.splitOn lineFeed).dropLast = lines :=
    (congrArg List.dropLast hlines).trans List.dropLast_concat
  have hsplit' : ((lines.map trimLine).splitOn []).dropLast = events :=
    (congrArg List.dropLast hevents).trans List.dropLast_concat
  rw [hpush, pushByte_eq, hread, foldl_keepByte, foldl_lines _ (rfl : empty.line = []), hclosed]
  unfold closedUsage closedEvents
  rw [hsplit, hsplit']
  exact (foldl_feedLine_usage event _).trans
    ((congrArg SseUsageTracker.usage (close_events events [] none)).trans (Option.or_none ..))

end SseUsageTracker

end Kaiion.Proxy

import Kaiion.Json.Print
import Kaiion.Proxy.Sse

/-! How a client takes a stream of server-sent events apart again. -/
namespace Kaiion.Proxy

/-- The lines of a stream, ended by LF, CR or both; the text after the last end of a line is not one. -/
def sseLines : List Char → List Char → List (List Char)
  | [], _ => []
  | '\r' :: '\n' :: rest, current => current.reverse :: sseLines rest []
  | '\r' :: rest, current => current.reverse :: sseLines rest []
  | '\n' :: rest, current => current.reverse :: sseLines rest []
  | char :: rest, current => sseLines rest (char :: current)

/-- The value of a field line. -/
def fieldValue (name : String) (line : List Char) : Option String :=
  if name.toList <+: line then some (.ofList (line.drop name.toList.length)) else none

/-- An event line, a data line and a blank line for each event. -/
def readFrames (c : Codec) : List (List Char) → Option (List SseEvent)
  | [] => some []
  | eventLine :: dataLine :: [] :: rest =>
    match fieldValue "event: " eventLine, fieldValue "data: " dataLine with
    | some kind, some data =>
      match c.parse data with
      | .ok value => (readFrames c rest).map (⟨kind, value⟩ :: ·)
      | .error _ => none
    | _, _ => none
  | _ => none

/-- The events of a stream, if it is made of frames. -/
def decodeStream (c : Codec) (text : String) : Option (List SseEvent) := readFrames c (sseLines text.toList [])

/-- A text without the end of a line in it. -/
def OneLine (text : String) : Prop := Json.Unbroken text.toList

instance (text : String) : Decidable (OneLine text) :=
  List.decidableBAll (fun char => char ≠ '\n' ∧ char ≠ '\r') text.toList

theorem OneLine.append {a b : String} (ha : OneLine a) (hb : OneLine b) : OneLine (a ++ b) := by
  unfold OneLine
  rw [String.toList_append, Json.unbroken_append]
  exact ⟨ha, hb⟩

theorem oneLine_compact (value : Value) : OneLine (Json.compact.print value) := by
  have htext : (Json.compact.print value).toList = Json.chars Json.pointed value := String.toList_ofList
  unfold OneLine
  rw [htext]
  exact Json.unbroken_chars Json.pointed_prints value

private theorem sseLines_line {line : List Char} (h : Json.Unbroken line) (rest current : List Char) :
    sseLines (line ++ '\n' :: rest) current = (current.reverse ++ line) :: sseLines rest [] := by
  induction line generalizing current with
  | nil => simp [sseLines]
  | cons char line ih =>
    obtain ⟨hfeed, hreturn⟩ := h char List.mem_cons_self
    have hline := ih (fun other hother => h other (List.mem_cons_of_mem _ hother)) (char :: current)
    simp [sseLines, hreturn, hline]

private theorem fieldValue_append (name value : String) : fieldValue name (name ++ value).toList = some value := by
  unfold fieldValue
  rw [String.toList_append, if_pos (List.prefix_append _ _), List.drop_left, String.ofList_toList]

/-- The lines of a frame, and of what follows it. -/
private theorem sseLines_frame {c : Codec} {event : SseEvent} (hkind : OneLine event.kind)
    (hdata : OneLine (c.print event.data)) (rest : List Char) :
    sseLines ((event.text c).toList ++ rest) [] =
      ("event: " ++ event.kind).toList :: ("data: " ++ c.print event.data).toList :: [] :: sseLines rest [] := by
  have hfirst : OneLine ("event: " ++ event.kind) := .append (by decide) hkind
  have hsecond : OneLine ("data: " ++ c.print event.data) := .append (by decide) hdata
  have htext : (event.text c).toList ++ rest = ("event: " ++ event.kind).toList ++
      '\n' :: (("data: " ++ c.print event.data).toList ++ '\n' :: ([] ++ '\n' :: rest)) := by
    simp [SseEvent.text]
  rw [htext, sseLines_line hfirst, sseLines_line hsecond, sseLines_line Json.unbroken_nil]
  rfl

/-- Events written out one after the other are read back as they were. -/
theorem decodeStream_texts {c : Codec} {events : List SseEvent} (hkind : ∀ event ∈ events, OneLine event.kind)
    (hdata : ∀ event ∈ events, OneLine (c.print event.data))
    (hparse : ∀ event ∈ events, c.parse (c.print event.data) = .ok event.data) :
    decodeStream c (String.join (events.map (SseEvent.text c))) = some events := by
  induction events with
  | nil => rfl
  | cons event events ih =>
    have hrest := ih (fun other h => hkind other (List.mem_cons_of_mem _ h))
      (fun other h => hdata other (List.mem_cons_of_mem _ h)) (fun other h => hparse other (List.mem_cons_of_mem _ h))
    unfold decodeStream at hrest ⊢
    rw [List.map_cons, String.join_cons, String.toList_append,
      sseLines_frame (hkind event List.mem_cons_self) (hdata event List.mem_cons_self), readFrames]
    simp only [fieldValue_append, hparse event List.mem_cons_self, hrest, Option.map_some]

end Kaiion.Proxy

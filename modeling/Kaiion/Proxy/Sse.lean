import Kaiion.Error
import Kaiion.Foundation.Result
import Kaiion.Json.Object
import Mathlib.Data.List.Basic
import Mathlib.Data.List.Range

/-! The server-sent events of the Batch path. -/
namespace Kaiion.Proxy
open Foundation

/-- An event; the source writes it out as text at once. -/
structure SseEvent where
  kind : String
  data : Value
  deriving DecidableEq

def SseEvent.text (c : Codec) (event : SseEvent) : String :=
  "event: " ++ event.kind ++ "\ndata: " ++ c.print event.data ++ "\n\n"

def responseStub (responseId model status : String) : Value := .object [
  ("created_at", .number (.unsigned 0)),
  ("id", .string responseId),
  ("model", .string model),
  ("object", .string "response"),
  ("output", .array []),
  ("status", .string status)]

/-- The events that carry a response. -/
def responseEvent (kind : String) (sequenceNumber : Nat) (response : Value) : SseEvent where
  kind
  data := .object [
    ("response", response),
    ("sequence_number", .number (.unsigned sequenceNumber)),
    ("type", .string kind)]

def createdEvent (responseId model : String) (sequenceNumber : Nat) : SseEvent :=
  responseEvent "response.created" sequenceNumber (responseStub responseId model "in_progress")

def inProgressEvent (responseId model : String) (sequenceNumber : Nat) : SseEvent :=
  responseEvent "response.in_progress" sequenceNumber (responseStub responseId model "in_progress")

def failedEvent (responseId model : String) (sequenceNumber : Nat) (message : String) : SseEvent :=
  responseEvent "response.failed" sequenceNumber (.object [
    ("created_at", .number (.unsigned 0)),
    ("error", .object [
      ("code", .string "kaiion_batch_failed"),
      ("message", .string message),
      ("type", .string "server_error")]),
    ("id", .string responseId),
    ("model", .string model),
    ("object", .string "response"),
    ("output", .array []),
    ("status", .string "failed")])

/-- The kind of event for a response that ended without an answer. -/
def terminalKind (status : String) : Option String :=
  if status = "failed" then some "response.failed"
  else if status = "incomplete" then some "response.incomplete"
  else none

/-- An upstream response that ended without an answer is passed on, anything else is wrapped. -/
def terminalErrorEvent (c : Codec) (responseId model : String) (sequenceNumber : Nat) (errorJson : String) : SseEvent :=
  match c.parse errorJson with
  | .ok (.object members) =>
    match ((Members.get members "status").bind Value.asStr).bind terminalKind with
    | some kind =>
      let identified := Members.insert "id" (.string responseId) members
      let typed := identified.orInsert "object" (.string "response")
      let named := typed.orInsert "model" (.string model)
      responseEvent kind sequenceNumber (.object (named.orInsert "output" (.array [])))
    | none => failedEvent responseId model sequenceNumber errorJson
  | _ => failedEvent responseId model sequenceNumber errorJson

/-- The events pushed so far and the number of the next one. -/
structure Emitter where
  events : List SseEvent
  sequence : Nat

def Emitter.push (emitter : Emitter) (event : Nat → SseEvent) : Emitter where
  events := emitter.events ++ [event emitter.sequence]
  sequence := emitter.sequence + 1

/-- The events about an output item. -/
def itemEvent (kind : String) (outputIndex : Nat) (item : Value) (sequence : Nat) : SseEvent where
  kind
  data := .object [
    ("item", item),
    ("output_index", .number (.unsigned outputIndex)),
    ("sequence_number", .number (.unsigned sequence)),
    ("type", .string kind)]

/-- The events about a part of an item's content. -/
def partEvent (kind itemId : String) (outputIndex contentIndex : Nat) (part : Value) (sequence : Nat) : SseEvent where
  kind
  data := .object [
    ("content_index", .number (.unsigned contentIndex)),
    ("item_id", .string itemId),
    ("output_index", .number (.unsigned outputIndex)),
    ("part", part),
    ("sequence_number", .number (.unsigned sequence)),
    ("type", .string kind)]

def textDeltaEvent (itemId : String) (outputIndex contentIndex : Nat) (text : String) (sequence : Nat) : SseEvent where
  kind := "response.output_text.delta"
  data := .object [
    ("content_index", .number (.unsigned contentIndex)),
    ("delta", .string text),
    ("item_id", .string itemId),
    ("logprobs", .array []),
    ("output_index", .number (.unsigned outputIndex)),
    ("sequence_number", .number (.unsigned sequence)),
    ("type", .string "response.output_text.delta")]

def textDoneEvent (itemId : String) (outputIndex contentIndex : Nat) (text : String) (sequence : Nat) : SseEvent where
  kind := "response.output_text.done"
  data := .object [
    ("content_index", .number (.unsigned contentIndex)),
    ("item_id", .string itemId),
    ("logprobs", .array []),
    ("output_index", .number (.unsigned outputIndex)),
    ("sequence_number", .number (.unsigned sequence)),
    ("text", .string text),
    ("type", .string "response.output_text.done")]

/-- The body of the loop over a message's content. -/
def emitPart (itemId : String) (outputIndex : Nat) (emitter : Emitter) (part : Value) (contentIndex : Nat) : Emitter :=
  if (part.get "type").bind Value.asStr ≠ some "output_text" then emitter
  else
    let text := ((part.get "text").bind Value.asStr).getD ""
    let added := emitter.push (partEvent "response.content_part.added" itemId outputIndex contentIndex
      (.object [("annotations", .array []), ("text", .string ""), ("type", .string "output_text")]))
    let sent := if text = "" then added else added.push (textDeltaEvent itemId outputIndex contentIndex text)
    (sent.push (textDoneEvent itemId outputIndex contentIndex text)).push
      (partEvent "response.content_part.done" itemId outputIndex contentIndex part)

/-- A message's id and content; other items are not taken apart. -/
def messageContent (item : Value) : Option (String × List Value) :=
  if (item.get "type").bind Value.asStr = some "message" then
    match (item.get "id").bind Value.asStr, (item.get "content").bind Value.asArray with
    | some itemId, some content => some (itemId, content)
    | _, _ => none
  else none

/-- The body of the loop over the output. -/
def emitItem (emitter : Emitter) (item : Value) (outputIndex : Nat) : Emitter :=
  let added := emitter.push (itemEvent "response.output_item.added" outputIndex item)
  let taken := match messageContent item with
    | some (itemId, content) =>
      content.zipIdx.foldl (fun emitter (part, contentIndex) => emitPart itemId outputIndex emitter part contentIndex) added
    | none => added
  taken.push (itemEvent "response.output_item.done" outputIndex item)

def completionEvents (response : Value) (responseId : String) (firstSequenceNumber : Nat) :
    Except ProxyError (List SseEvent) := do
  let output ← okOr ((response.get "output").bind Value.asArray) (.internal "batch response is missing output")
  let members ← okOr response.members? (.internal "batch response is not a JSON object")
  let completed := Value.object (members.insert "id" (.string responseId))
  let emitter := output.zipIdx.foldl (fun emitter (item, outputIndex) => emitItem emitter item outputIndex)
    ⟨[], firstSequenceNumber⟩
  return (emitter.push (fun sequence => responseEvent "response.completed" sequence completed)).events

def SseEvent.sequenceNumber (event : SseEvent) : Option Nat := (event.data.get "sequence_number").bind Value.asU64

def SseEvent.responseId (event : SseEvent) : Option String :=
  ((event.data.get "response").bind (fun response => response.get "id")).bind Value.asStr

def SseEvent.isTerminal (event : SseEvent) : Bool :=
  ["response.completed", "response.failed", "response.incomplete"].contains event.kind

/-- The created, in-progress and terminal events. -/
def SseEvent.isLifecycle (event : SseEvent) : Bool :=
  ["response.created", "response.in_progress"].contains event.kind || event.isTerminal

/-- The events carry these numbers without gap or repeat. -/
def NumberedFrom (first : Nat) (events : List SseEvent) : Prop :=
  events.map SseEvent.sequenceNumber = (List.range' first events.length).map some

theorem NumberedFrom.nil (first : Nat) : NumberedFrom first [] := rfl

theorem NumberedFrom.append {first : Nat} {events more : List SseEvent} (h : NumberedFrom first events)
    (hmore : NumberedFrom (first + events.length) more) : NumberedFrom first (events ++ more) := by
  unfold NumberedFrom at *
  rw [List.map_append, h, hmore, ← List.map_append, List.length_append, ← List.range'_append_1]

theorem NumberedFrom.push {first : Nat} {events : List SseEvent} (h : NumberedFrom first events) {event : SseEvent}
    (hnumber : event.sequenceNumber = some (first + events.length)) : NumberedFrom first (events ++ [event]) :=
  h.append (by simp [NumberedFrom, hnumber])

@[simp] theorem responseEvent_sequenceNumber (kind : String) (n : Nat) (response : Value) :
    (responseEvent kind n response).sequenceNumber = some n := rfl

/-- A terminal event of this response with this number. -/
structure SseEvent.Ends (event : SseEvent) (responseId : String) (n : Nat) : Prop where
  number : event.sequenceNumber = some n
  response : event.responseId = some responseId
  terminal : event.isTerminal = true

theorem failedEvent_ends (responseId model : String) (n : Nat) (message : String) :
    (failedEvent responseId model n message).Ends responseId n := ⟨rfl, rfl, rfl⟩

theorem terminalKind_terminal {status kind : String} (h : terminalKind status = some kind) :
    kind = "response.failed" ∨ kind = "response.incomplete" := by
  unfold terminalKind at h
  split at h
  · exact .inl (Option.some.inj h).symm
  · split at h
    · exact .inr (Option.some.inj h).symm
    · cases h

theorem terminalErrorEvent_ends (c : Codec) (responseId model : String) (n : Nat) (errorJson : String) :
    (terminalErrorEvent c responseId model n errorJson).Ends responseId n := by
  unfold terminalErrorEvent
  split
  next members _ =>
    split
    next kind hkind =>
      obtain ⟨status, -, hkind⟩ := Option.bind_eq_some_iff.mp hkind
      refine ⟨rfl, ?_, ?_⟩
      · have hid := Members.get_orInsert (Members.get_orInsert (Members.get_orInsert (Members.get_insert_self "id" (.string responseId) members)
          "object" (.string "response")) "model" (.string model)) "output" (.array [])
        exact congrArg (fun id => id.bind Value.asStr) hid
      · rcases terminalKind_terminal hkind with rfl | rfl <;> rfl
    · exact failedEvent_ends responseId model n errorJson
  · exact failedEvent_ends responseId model n errorJson

/-- The emitter has pushed numbered events about the output. -/
structure Emitter.Ordered (first : Nat) (emitter : Emitter) : Prop where
  next : emitter.sequence = first + emitter.events.length
  numbered : NumberedFrom first emitter.events
  inner : ∀ event ∈ emitter.events, event.isLifecycle = false

theorem Emitter.Ordered.push {first : Nat} {emitter : Emitter} (h : emitter.Ordered first) (event : Nat → SseEvent)
    (hnumber : ∀ n, (event n).sequenceNumber = some n) (hinner : ∀ n, (event n).isLifecycle = false) :
    (emitter.push event).Ordered first where
  next := by simp [Emitter.push, h.next, Nat.add_assoc]
  numbered := h.numbered.push (by rw [hnumber, h.next])
  inner other hother := by
    rcases List.mem_append.mp hother with hother | hother
    · exact h.inner other hother
    · rw [List.mem_singleton.mp hother]
      exact hinner _

theorem Emitter.Ordered.emitPart {first : Nat} {emitter : Emitter} (h : emitter.Ordered first) (itemId : String)
    (outputIndex : Nat) (part : Value) (contentIndex : Nat) :
    (Proxy.emitPart itemId outputIndex emitter part contentIndex).Ordered first := by
  unfold Proxy.emitPart
  split
  · exact h
  · have hadded := h.push (partEvent "response.content_part.added" itemId outputIndex contentIndex
      (.object [("annotations", .array []), ("text", .string ""), ("type", .string "output_text")]))
      (fun _ => rfl) (fun _ => rfl)
    dsimp only
    split
    · exact (hadded.push _ (fun _ => rfl) (fun _ => rfl)).push _ (fun _ => rfl) (fun _ => rfl)
    · exact ((hadded.push _ (fun _ => rfl) (fun _ => rfl)).push _ (fun _ => rfl) (fun _ => rfl)).push _
        (fun _ => rfl) (fun _ => rfl)

theorem Emitter.Ordered.emitItem {first : Nat} {emitter : Emitter} (h : emitter.Ordered first) (item : Value)
    (outputIndex : Nat) : (Proxy.emitItem emitter item outputIndex).Ordered first := by
  have hadded := h.push (itemEvent "response.output_item.added" outputIndex item) (fun _ => rfl) (fun _ => rfl)
  refine Emitter.Ordered.push ?_ _ (fun _ => rfl) (fun _ => rfl)
  split
  next itemId content _ =>
    exact List.foldlRecOn content.zipIdx _ hadded
      (fun emitter hemitter entry _ => hemitter.emitPart itemId outputIndex entry.1 entry.2)
  · exact hadded

theorem completionEvents_ok {response : Value} {responseId : String} {first : Nat} {events : List SseEvent}
    (h : completionEvents response responseId first = .ok events) :
    ∃ before last, events = before ++ [last] ∧ NumberedFrom first before ∧ (∀ event ∈ before, event.isLifecycle = false) ∧
      last.Ends responseId (first + before.length) ∧ last.kind = "response.completed" := by
  unfold completionEvents at h
  obtain ⟨output, -, hrest⟩ := bind_ok h
  obtain ⟨members, -, hevents⟩ := bind_ok hrest
  have hordered : (output.zipIdx.foldl (fun emitter (item, outputIndex) => emitItem emitter item outputIndex)
      ⟨[], first⟩).Ordered first :=
    List.foldlRecOn output.zipIdx _ ⟨rfl, NumberedFrom.nil first, fun _ h => nomatch h⟩
      (fun emitter hemitter entry _ => hemitter.emitItem entry.1 entry.2)
  obtain rfl := Except.ok.inj hevents
  refine ⟨_, _, rfl, hordered.numbered, hordered.inner, ⟨?_, ?_, rfl⟩, rfl⟩
  · rw [responseEvent_sequenceNumber, hordered.next]
  · exact congrArg (fun id => id.bind Value.asStr) (Members.get_insert_self "id" (.string responseId) members)

end Kaiion.Proxy

import Kaiion.Durable.Driver
import Kaiion.Proxy.BatchStream

/-! The views of a finished job: the job API, the blocking answer and the terminal event. -/
namespace Kaiion.Proxy
open Durable Foundation

def outcomeStatus : StoredOutcome → String
  | .completed _ => "completed"
  | .failed _ => "failed"
  | .incomplete _ => "incomplete"
  | .expired _ => "expired"
  | .cancelled _ => "cancelled"

def responseValue (outcome : StoredOutcome) (id : JobId) : Value :=
  match terminalValue outcome with
  | .object members => .object (Members.insert "id" (.string (responseIdOf id)) members)
  | value => value

def jobView (job : Job) : Value :=
  let (status, result) := match job.state with
    | .queued => ("queued", Value.null)
    | .uploaded _ => ("uploaded", .null)
    | .submitting _ _ => ("submitting", .null)
    | .submissionUncertain _ _ => ("submission_uncertain", .null)
    | .submitted _ => ("submitted", .null)
    | .terminal outcome => (outcomeStatus outcome, responseValue outcome job.id)
  .object [
    ("id", .string job.id.text),
    ("model", .string job.model),
    ("object", .string "kaiion.job"),
    ("response", result),
    ("status", .string status),
    ("terminal", .bool job.state.isTerminal)]

/-- The status a response of this outcome should have. -/
def responseStatus : StoredOutcome → String
  | .completed _ => "completed"
  | .incomplete _ => "incomplete"
  | .failed _ | .expired _ | .cancelled _ => "failed"

/-- The kind of event a stream of this outcome should end with. -/
def eventKind : StoredOutcome → String
  | .completed _ => "response.completed"
  | .incomplete _ => "response.incomplete"
  | .failed _ | .expired _ | .cancelled _ => "response.failed"

/-- The stored status, the job's view, the response and the terminal event tell one story. -/
structure ViewsAgree (c : Codec) (job : Job) (sequence : Nat) (outcome : StoredOutcome) : Prop where
  view : (jobView { job with state := .terminal outcome }).text "status" =
    some (statusOf (.terminal outcome)).text
  response : (responseValue outcome job.id).text "status" = some (responseStatus outcome)
  event : (terminalEvents c job sequence outcome).getLast?.map SseEvent.kind = some (eventKind outcome)

variable {c : Codec} {job : Job}

theorem outcomeStatus_eq (outcome : StoredOutcome) : outcomeStatus outcome = (statusOf (.terminal outcome)).text := by
  cases outcome <;> rfl

/-- The identifier is replaced, the rest of the response stays. -/
theorem responseValue_text (outcome : StoredOutcome) (id : JobId) :
    (responseValue outcome id).text "status" = (terminalValue outcome).text "status" := by
  unfold responseValue
  split
  next members heq =>
    rw [heq]
    exact congrArg (fun status => status.bind Value.asStr)
      (Members.get_insert_of_ne (show "status" ≠ "id" by decide) _ members)
  · rfl

theorem completionEvents_error {response : Value} (h : response.items "output" = none) (responseId : String)
    (sequence : Nat) :
    completionEvents response responseId sequence = .error (.internal "batch response is missing output") := by
  unfold completionEvents
  rw [show (response.get "output").bind Value.asArray = none from h]
  rfl

theorem completionEvents_of_items {response : Value} {items : List Value} (h : response.items "output" = some items)
    (responseId : String) (sequence : Nat) : ∃ events, completionEvents response responseId sequence = .ok events := by
  cases response with
  | object members =>
    unfold completionEvents
    rw [show ((Value.object members).get "output").bind Value.asArray = some items from h]
    exact ⟨_, rfl⟩
  | _ => cases h

/-- The event of an outcome that is no completion follows the status its response carries. -/
theorem terminalErrorEvent_kind (hc : c.KeepsTexts) (responseId model : String) (sequence : Nat) (value : Value) :
    (terminalErrorEvent c responseId model sequence (c.print value)).kind =
      ((value.text "status").bind terminalKind).getD "response.failed" := by
  obtain ⟨back, hback, halike⟩ := hc value
  unfold terminalErrorEvent
  rw [hback, ← halike.text]
  cases back with
  | object members =>
    have htext : (Value.object members).text "status" = (Members.get members "status").bind Value.asStr := rfl
    dsimp only
    rw [htext]
    cases ((Members.get members "status").bind Value.asStr).bind terminalKind <;> rfl
  | _ => rfl

/-- The stream of an answer ends with the completed event exactly when the answer has an output. -/
theorem completed_event_iff (c : Codec) (job : Job) (sequence : Nat) (response : Value) :
    (terminalEvents c job sequence (.completed response)).getLast?.map SseEvent.kind = some "response.completed" ↔
      (response.items "output").isSome = true := by
  cases hitems : response.items "output" with
  | none =>
    have hevents : terminalEvents c job sequence (.completed response) = [failedEvent (responseIdOf job.id) job.model
        sequence "internal error: batch response is missing output"] := by
      simp only [terminalEvents, completionEvents_error hitems]
      rfl
    rw [hevents]
    exact ⟨fun h => by simp [failedEvent, responseEvent] at h, fun h => nomatch h⟩
  | some items =>
    obtain ⟨events, hevents⟩ := completionEvents_of_items hitems (responseIdOf job.id) sequence
    obtain ⟨before, last, rfl, -, -, -, hkind⟩ := completionEvents_ok hevents
    have hlast : terminalEvents c job sequence (.completed response) = before ++ [last] := by
      simp only [terminalEvents, hevents]
    rw [hlast, List.getLast?_concat, Option.map_some, hkind]
    exact ⟨fun _ => rfl, fun _ => rfl⟩

/-- When the views agree: the response has the status of its outcome, and an answer has an output. -/
theorem viewsAgree_iff (hc : c.KeepsTexts) (job : Job) (sequence : Nat) (outcome : StoredOutcome) :
    ViewsAgree c job sequence outcome ↔ (terminalValue outcome).text "status" = some (responseStatus outcome) ∧
      (responseStatus outcome = "completed" → ((terminalValue outcome).items "output").isSome = true) := by
  have hview : (jobView { job with state := .terminal outcome }).text "status" =
      some (statusOf (.terminal outcome)).text := congrArg some (outcomeStatus_eq outcome)
  have hresponse := responseValue_text outcome job.id
  have hkind := terminalErrorEvent_kind hc (responseIdOf job.id) job.model sequence (terminalValue outcome)
  cases outcome with
  | completed response =>
    refine ⟨fun h => ⟨hresponse.symm.trans h.response,
      fun _ => (completed_event_iff c job sequence response).mp h.event⟩, fun h => ?_⟩
    exact ⟨hview, hresponse.trans h.1, (completed_event_iff c job sequence response).mpr (h.2 rfl)⟩
  | failed value | incomplete value | expired value | cancelled value =>
    refine ⟨fun h => ⟨hresponse.symm.trans h.response, fun heq => by simp [responseStatus] at heq⟩, fun h => ?_⟩
    rw [h.1] at hkind
    exact ⟨hview, hresponse.trans h.1, congrArg some hkind⟩

end Kaiion.Proxy

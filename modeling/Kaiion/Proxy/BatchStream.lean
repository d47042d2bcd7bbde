import Kaiion.Durable.Domain
import Kaiion.Foundation.Trace
import Kaiion.Json.Print
import Kaiion.Proxy.Sse

/-! The event stream of a Batch response, from the job's channel of states and the heartbeat. -/
namespace Kaiion.Proxy
open Durable Foundation Prog

/-- What ends a wait of the stream. -/
inductive Wake where
  | tick
  | changed
  | closed
  deriving DecidableEq

inductive StreamOp where
  | emit (event : SseEvent)
  /-- `states.borrow_and_update()`. -/
  | borrow
  /-- The `select!` between the heartbeat and the channel. -/
  | select

abbrev StreamOp.Reply : StreamOp → Type
  | emit _ => Unit
  | borrow => JobState
  | select => Wake

abbrev BatchStream := Prog StreamOp.Reply

def emit (event : SseEvent) : BatchStream Unit := Prog.perform (StreamOp.emit event)

def emitAll : List SseEvent → BatchStream Unit
  | [] => return ()
  | event :: events => do
    emit event
    emitAll events

def borrow : BatchStream JobState := Prog.perform StreamOp.borrow

def select : BatchStream Wake := Prog.perform StreamOp.select

def responseIdOf (id : JobId) : String := "resp_kaiion_" ++ id.text

def terminalValue : StoredOutcome → Value
  | .completed value | .failed value | .incomplete value | .expired value | .cancelled value => value

def workerStopped : String := "batch worker stopped before reaching a terminal state"

/-- The stream before its loop; it returns the next sequence number. -/
def openStream (job : Job) : BatchStream Nat := do
  emit (createdEvent (responseIdOf job.id) job.model 0)
  emit (inProgressEvent (responseIdOf job.id) job.model 1)
  return 2

/-- The terminal events of an outcome. -/
def terminalEvents (c : Codec) (job : Job) (sequence : Nat) : StoredOutcome → List SseEvent
  | .completed response =>
    match completionEvents response (responseIdOf job.id) sequence with
    | .ok events => events
    | .error error => [failedEvent (responseIdOf job.id) job.model sequence error.message]
  | outcome =>
    [terminalErrorEvent c (responseIdOf job.id) job.model sequence (c.print (terminalValue outcome))]

/-- One turn of the stream's loop: the next sequence number, or nothing when the stream has ended. -/
def streamTurn (c : Codec) (job : Job) (sequence : Nat) : BatchStream (Option Nat) := do
  match ← borrow with
  | .terminal outcome =>
    emitAll (terminalEvents c job sequence outcome)
    return none
  | _ =>
    match ← select with
    | .tick =>
      emit (inProgressEvent (responseIdOf job.id) job.model sequence)
      return some (sequence + 1)
    | .changed => return some sequence
    | .closed =>
      emit (failedEvent (responseIdOf job.id) job.model sequence workerStopped)
      return none

/-- The events sent in a run. -/
def sent (trace : List (Event StreamOp.Reply)) : List SseEvent :=
  trace.filterMap fun
    | ⟨.emit event, _⟩ => some event
    | _ => none

/-- The channel may show any state and every wait may end in any way. -/
def anyReply (op : StreamOp) (_ : op.Reply) : Prop := True

/-- What the stream of a job has sent after some turns, and the number it goes on with; nothing once
it has ended. -/
inductive Sends (c : Codec) (job : Job) : List SseEvent → Option Nat → Prop where
  | opened {trace : List (Event StreamOp.Reply)} {sequence : Nat} (run : Runs anyReply (openStream job) trace sequence) :
      Sends c job (sent trace) (some sequence)
  | turned {events : List SseEvent} {sequence : Nat} {trace : List (Event StreamOp.Reply)} {next : Option Nat}
      (before : Sends c job events (some sequence)) (run : Runs anyReply (streamTurn c job sequence) trace next) :
      Sends c job (events ++ sent trace) next

variable {c : Codec} {job : Job}

theorem openStream_sends {trace : List (Event StreamOp.Reply)} {sequence : Nat}
    (h : Runs anyReply (openStream job) trace sequence) :
    sent trace = [createdEvent (responseIdOf job.id) job.model 0, inProgressEvent (responseIdOf job.id) job.model 1] ∧
      sequence = 2 := by
  obtain ⟨_, _, rfl, -, hrest⟩ := Runs.of_perform h
  obtain ⟨_, _, rfl, -, hend⟩ := Runs.of_perform hrest
  obtain ⟨rfl, rfl⟩ := Runs.of_ret hend
  exact ⟨rfl, rfl⟩

theorem emitAll_sends {α : Type} {events : List SseEvent} {value result : α} {trace : List (Event StreamOp.Reply)}
    (h : Runs anyReply (emitAll events >>= fun _ => .ret value) trace result) : sent trace = events ∧ result = value := by
  induction events generalizing trace with
  | nil =>
    obtain ⟨rfl, rfl⟩ := Runs.of_ret h
    exact ⟨rfl, rfl⟩
  | cons event events ih =>
    obtain ⟨_, rest, rfl, -, hrest⟩ := Runs.of_perform h
    obtain ⟨hsent, hresult⟩ := ih hrest
    exact ⟨congrArg (event :: ·) hsent, hresult⟩

/-- The terminal events are numbered, and the last one and no other is terminal. -/
theorem terminalEvents_end (c : Codec) (job : Job) (sequence : Nat) (outcome : StoredOutcome) :
    ∃ before last, terminalEvents c job sequence outcome = before ++ [last] ∧ NumberedFrom sequence before ∧
      (∀ event ∈ before, event.isLifecycle = false) ∧ last.Ends (responseIdOf job.id) (sequence + before.length) := by
  have wrapped (event : SseEvent) (h : event.Ends (responseIdOf job.id) sequence) :
      ∃ before last, [event] = before ++ [last] ∧
      NumberedFrom sequence before ∧ (∀ event ∈ before, event.isLifecycle = false) ∧
      last.Ends (responseIdOf job.id) (sequence + before.length) :=
    ⟨[], event, rfl, NumberedFrom.nil sequence, (fun _ h => nomatch h), h⟩
  unfold terminalEvents
  split
  · split
    next events hevents =>
      obtain ⟨before, last, hsplit, hnumbered, hinner, hends, -⟩ := completionEvents_ok hevents
      exact ⟨before, last, hsplit, hnumbered, hinner, hends⟩
    · exact wrapped _ (failedEvent_ends _ _ _ _)
  · exact wrapped _ (terminalErrorEvent_ends _ _ _ _ _)

/-- What one turn can do: wait on, send a heartbeat, or end the stream with a terminal event. -/
theorem streamTurn_sends {trace : List (Event StreamOp.Reply)} {sequence : Nat} {next : Option Nat}
    (h : Runs anyReply (streamTurn c job sequence) trace next) :
    (sent trace = [] ∧ next = some sequence) ∨
    (sent trace = [inProgressEvent (responseIdOf job.id) job.model sequence] ∧ next = some (sequence + 1)) ∨
    (next = none ∧ ∃ before last, sent trace = before ++ [last] ∧ NumberedFrom sequence before ∧
      (∀ event ∈ before, event.isLifecycle = false) ∧ last.Ends (responseIdOf job.id) (sequence + before.length)) := by
  obtain ⟨state, rest, rfl, -, hrest⟩ := Runs.of_perform h
  cases state with
  | terminal outcome =>
    obtain ⟨hsent, rfl⟩ := emitAll_sends hrest
    exact .inr (.inr ⟨rfl, hsent ▸ terminalEvents_end c job sequence outcome⟩)
  | _ =>
    obtain ⟨wake, rest, rfl, -, hwake⟩ := Runs.of_perform hrest
    cases wake with
    | tick =>
      obtain ⟨_, rest, rfl, -, hend⟩ := Runs.of_perform hwake
      obtain ⟨rfl, rfl⟩ := Runs.of_ret hend
      exact .inr (.inl ⟨rfl, rfl⟩)
    | changed =>
      obtain ⟨rfl, rfl⟩ := Runs.of_ret hwake
      exact .inl ⟨rfl, rfl⟩
    | closed =>
      obtain ⟨_, rest, rfl, -, hend⟩ := Runs.of_perform hwake
      obtain ⟨rfl, rfl⟩ := Runs.of_ret hend
      exact .inr (.inr ⟨rfl, [], _, rfl, NumberedFrom.nil sequence, (fun _ h => nomatch h),
        failedEvent_ends (responseIdOf job.id) job.model sequence workerStopped⟩)

/-- The stream so far: its opening and heartbeats, with the numbers up to the next one. -/
structure Running (job : Job) (events : List SseEvent) (sequence : Nat) : Prop where
  opening : ∃ rest, events = createdEvent (responseIdOf job.id) job.model 0 ::
    inProgressEvent (responseIdOf job.id) job.model 1 :: rest
  numbered : NumberedFrom 0 events
  next : sequence = events.length
  responses : ∀ event ∈ events, event.responseId = some (responseIdOf job.id)
  unfinished : ∀ event ∈ events, event.isTerminal = false

/-- The stream in full: what it sent while it ran, the events about the output, and the terminal one. -/
def Ended (job : Job) (events : List SseEvent) : Prop :=
  ∃ running output last, events = running ++ (output ++ [last]) ∧ Running job running running.length ∧
    NumberedFrom running.length output ∧ (∀ event ∈ output, event.isLifecycle = false) ∧
    last.Ends (responseIdOf job.id) (running.length + output.length)

/-- What the stream has sent, by the number it goes on with. -/
def Shaped (job : Job) (events : List SseEvent) : Option Nat → Prop
  | some sequence => Running job events sequence
  | none => Ended job events

theorem Running.heartbeat {events : List SseEvent} {sequence : Nat} (h : Running job events sequence) :
    Running job (events ++ [inProgressEvent (responseIdOf job.id) job.model sequence]) (sequence + 1) where
  opening := by
    obtain ⟨rest, hopening⟩ := h.opening
    exact ⟨rest ++ [inProgressEvent (responseIdOf job.id) job.model sequence], by rw [hopening]; rfl⟩
  numbered := h.numbered.push (by rw [h.next, Nat.zero_add]; rfl)
  next := by simp [h.next]
  responses event hevent := by
    rcases List.mem_append.mp hevent with hevent | hevent
    · exact h.responses event hevent
    · rw [List.mem_singleton.mp hevent]
      rfl
  unfinished event hevent := by
    rcases List.mem_append.mp hevent with hevent | hevent
    · exact h.unfinished event hevent
    · rw [List.mem_singleton.mp hevent]
      rfl

theorem Running.opened (job : Job) : Running job [createdEvent (responseIdOf job.id) job.model 0,
    inProgressEvent (responseIdOf job.id) job.model 1] 2 where
  opening := ⟨[], rfl⟩
  numbered := rfl
  next := rfl
  responses event hevent := by
    rcases List.mem_pair.mp hevent with rfl | rfl <;> rfl
  unfinished event hevent := by
    rcases List.mem_pair.mp hevent with rfl | rfl <;> rfl

/-- Every turn keeps the shape of the stream. -/
theorem Sends.shaped {events : List SseEvent} {next : Option Nat} (h : Sends c job events next) :
    Shaped job events next := by
  induction h with
  | opened run =>
    obtain ⟨hsent, rfl⟩ := openStream_sends run
    exact (hsent ▸ Running.opened job : Running job _ 2)
  | @turned events sequence trace next _ run ih =>
    have hrunning : Running job events sequence := ih
    rcases streamTurn_sends run with ⟨hsent, rfl⟩ | ⟨hsent, rfl⟩ | ⟨rfl, before, last, hsent, hnumbered, hinner, hends⟩
    · rw [hsent, List.append_nil]
      exact hrunning
    · rw [hsent]
      exact hrunning.heartbeat
    · rw [hsent]
      rw [hrunning.next] at hnumbered hends
      exact ⟨events, before, last, rfl, hrunning.next ▸ hrunning, hnumbered, hinner, hends⟩

theorem Ended.numbered {events : List SseEvent} (h : Ended job events) : NumberedFrom 0 events := by
  obtain ⟨running, output, last, rfl, hrunning, hnumbered, -, hends⟩ := h
  refine hrunning.numbered.append ?_
  rw [Nat.zero_add]
  exact hnumbered.push hends.number

/-- A Batch stream numbers its events 0, 1, 2, .., opens with created and in-progress, names its response
on all lifecycle events, and ends with its one terminal event. -/
theorem batch_stream_protocol {c : Codec} {job : Job} {events : List SseEvent} {next : Option Nat}
    (h : Sends c job events next) :
    events.map SseEvent.sequenceNumber = (List.range events.length).map some ∧
    (∃ first second rest, events = first :: second :: rest ∧ first.kind = "response.created" ∧
      second.kind = "response.in_progress") ∧
    (∀ event ∈ events, event.isLifecycle = true → event.responseId = some ("resp_kaiion_" ++ job.id.text)) ∧
    (next = none → ∃ before last, events = before ++ [last] ∧ last.isTerminal = true ∧
      ∀ event ∈ before, event.isTerminal = false) := by
  have hshape := h.shaped
  cases next with
  | some sequence =>
    have hrunning : Running job events sequence := hshape
    obtain ⟨rest, hopening⟩ := hrunning.opening
    exact ⟨by rw [List.range_eq_range']; exact hrunning.numbered, ⟨_, _, rest, hopening, rfl, rfl⟩,
      fun event hevent _ => hrunning.responses event hevent, fun h => nomatch h⟩
  | none =>
    have hnumbered := Ended.numbered hshape
    obtain ⟨running, output, last, rfl, hrunning, -, hinner, hends⟩ := hshape
    obtain ⟨rest, hopening⟩ := hrunning.opening
    refine ⟨by rw [List.range_eq_range']; exact hnumbered,
      ⟨_, _, rest ++ (output ++ [last]), by rw [hopening]; rfl, rfl, rfl⟩,
      fun event hevent hlifecycle => ?_, fun _ => ⟨running ++ output, last, by rw [List.append_assoc], hends.terminal,
        fun event hevent => ?_⟩⟩
    · rcases List.mem_append.mp hevent with hevent | hevent
      · exact hrunning.responses event hevent
      · rcases List.mem_append.mp hevent with hevent | hevent
        · rw [hinner event hevent] at hlifecycle
          cases hlifecycle
        · rw [List.mem_singleton.mp hevent]
          exact hends.response
    · rcases List.mem_append.mp hevent with hevent | hevent
      · exact hrunning.unfinished event hevent
      · have hquiet := hinner event hevent
        rw [SseEvent.isLifecycle, Bool.or_eq_false_iff] at hquiet
        exact hquiet.2

section Witness

private def streamed : Job := ⟨⟨"job"⟩, "gpt-5", .queued⟩

private def part : Value := .object [("text", .string "hello"), ("type", .string "output_text")]

private def message : Value :=
  .object [("content", .array [part]), ("id", .string "msg"), ("type", .string "message")]

private def answer : Value := .object [("output", .array [message]), ("status", .string "completed")]

private def answered : List SseEvent :=
  [createdEvent "resp_kaiion_job" "gpt-5" 0, inProgressEvent "resp_kaiion_job" "gpt-5" 1,
    inProgressEvent "resp_kaiion_job" "gpt-5" 2, itemEvent "response.output_item.added" 0 message 3,
    partEvent "response.content_part.added" "msg" 0 0
      (.object [("annotations", .array []), ("text", .string ""), ("type", .string "output_text")]) 4,
    textDeltaEvent "msg" 0 0 "hello" 5, textDoneEvent "msg" 0 0 "hello" 6,
    partEvent "response.content_part.done" "msg" 0 0 part 7, itemEvent "response.output_item.done" 0 message 8,
    responseEvent "response.completed" 9
      (.object [("id", .string "resp_kaiion_job"), ("output", .array [message]), ("status", .string "completed")])]

private theorem emitAll_runs (events : List SseEvent) :
    ∃ trace, Runs anyReply (emitAll events >>= fun _ => .ret (none : Option Nat)) trace none := by
  induction events with
  | nil => exact ⟨[], .ret none⟩
  | cons event events ih =>
    obtain ⟨trace, hrun⟩ := ih
    exact ⟨_, .call () trivial hrun⟩

private theorem streamed_sends : Sends Json.compact streamed answered none := by
  have hopened : Sends Json.compact streamed _ (some 2) := .opened (.call () trivial (.call () trivial (.ret 2)))
  have hwaited := hopened.turned (.call JobState.queued trivial (.call Wake.tick trivial (.call () trivial (.ret (some 3)))))
  obtain ⟨trace, hrun⟩ := emitAll_runs (terminalEvents Json.compact streamed 3 (.completed answer))
  have hturn : Runs anyReply (streamTurn Json.compact streamed 3)
      (⟨.borrow, JobState.terminal (.completed answer)⟩ :: trace) none := .call _ trivial hrun
  have hanswer : sent (⟨.borrow, JobState.terminal (.completed answer)⟩ :: trace) = answered.drop 3 :=
    (emitAll_sends hrun).1
  have hended := hwaited.turned hturn
  rw [hanswer] at hended
  exact hended

/-- A stream that sees one heartbeat and then an answer with one message. -/
theorem batch_stream_protocol_answered : answered.map SseEvent.sequenceNumber = (List.range 10).map some ∧
    ∃ before last, answered = before ++ [last] ∧ last.isTerminal = true ∧ ∀ event ∈ before, event.isTerminal = false := by
  obtain ⟨hnumbers, -, -, hends⟩ := batch_stream_protocol streamed_sends
  exact ⟨hnumbers, hends rfl⟩

end Witness

end Kaiion.Proxy

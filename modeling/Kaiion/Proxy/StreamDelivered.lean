import Kaiion.Proxy.BatchStream
import Kaiion.Proxy.Delivered

/-! The event stream of a Batch answer, among everything else: it ends with the outcome that the store keeps. -/
namespace Kaiion.Proxy
open Durable Foundation

/-- A stream in the middle: its process, the version of the channel it saw last, and what it has sent. -/
structure Streaming where
  registry : Registry
  seen : Nat
  events : List SseEvent

/-- What goes on between two steps of the stream. -/
structure Streaming.Goes (c : Codec) (a b : Streaming) : Prop where
  run : Registry.Run c a.registry b.registry
  seen : b.seen = a.seen
  events : b.events = a.events

/-- What the channel and the heartbeat reply. A wait ends with the channel closed only where its value is the
one seen last. -/
def StreamOp.Answers (receiver : Receiver) : (op : StreamOp) → Streaming → op.Reply → Streaming → Prop
  | .emit event, a, _, b => b = { a with events := a.events ++ [event] }
  | .borrow, a, state, b => receiver.borrow a.registry.fleet.world = some state ∧
      b = { a with seen := receiver.version a.registry.fleet.world }
  | .select, a, .tick, b => b = a
  | .select, a, .changed, b => receiver.version a.registry.fleet.world ≠ a.seen ∧
      b = { a with seen := receiver.version a.registry.fleet.world }
  | .select, a, .closed, b => receiver.version a.registry.fleet.world = a.seen ∧ receiver.Closed a.registry ∧ b = a

/-- The stream of a job after some turns, and the number it goes on with; nothing once it has ended. -/
inductive Streams (c : Codec) (job : Job) (receiver : Receiver) : Streaming → Option Nat → Streaming → Prop where
  | opened {a b : Streaming} {sequence : Nat}
      (run : Prog.Executes (Streaming.Goes c) (StreamOp.Answers receiver) (openStream job) a sequence b) :
      Streams c job receiver a (some sequence) b
  | turned {a b d : Streaming} {sequence : Nat} {next : Option Nat} (before : Streams c job receiver a (some sequence) b)
      (run : Prog.Executes (Streaming.Goes c) (StreamOp.Answers receiver) (streamTurn c job sequence) b next d) :
      Streams c job receiver a next d

variable {c : Codec} {job : Job} {receiver : Receiver} {a b : Streaming}

/-- So far the stream has sent this. -/
structure Sent (c : Codec) (a : Streaming) (events : List SseEvent) (b : Streaming) : Prop where
  run : Registry.Run c a.registry b.registry
  events : b.events = a.events ++ events

theorem Streaming.Goes.sent (h : Goes c a b) : Sent c a [] b := ⟨h.run, by rw [h.events, List.append_nil]⟩

theorem Sent.trans {d : Streaming} {events events' : List SseEvent} (h : Sent c a events b) (h' : Sent c b events' d) :
    Sent c a (events ++ events') d := ⟨h.run.trans h'.run, by rw [h'.events, h.events, List.append_assoc]⟩

private theorem emit_sends {α : Type} {event : SseEvent} {f : Unit → BatchStream α} {result : α}
    (h : Prog.Executes (Streaming.Goes c) (StreamOp.Answers receiver) (emit event >>= f) a result b) :
    ∃ d, Sent c a [event] d ∧ Prog.Executes (Streaming.Goes c) (StreamOp.Answers receiver) (f ()) d result b := by
  obtain ⟨t, _, d, henv, hd, hrest⟩ := Prog.Executes.of_call h
  obtain rfl : d = { t with events := t.events ++ [event] } := hd
  exact ⟨{ t with events := t.events ++ [event] }, ⟨henv.run, congrArg (· ++ [event]) henv.events⟩, hrest⟩

private theorem emitAll_sends_all {α : Type} {events : List SseEvent} {value result : α}
    (h : Prog.Executes (Streaming.Goes c) (StreamOp.Answers receiver)
      (emitAll events >>= fun _ => .ret value) a result b) :
    result = value ∧ Sent c a events b := by
  induction events generalizing a with
  | nil =>
    obtain ⟨rfl, hgoes⟩ := Prog.Executes.of_ret h
    exact ⟨rfl, hgoes.sent⟩
  | cons event events ih =>
    obtain ⟨d, hsent, hrest⟩ := emit_sends h
    obtain ⟨rfl, hlater⟩ := ih hrest
    exact ⟨rfl, hsent.trans hlater⟩

private theorem openStream_opens {sequence : Nat}
    (h : Prog.Executes (Streaming.Goes c) (StreamOp.Answers receiver) (openStream job) a sequence b) :
    Sent c a [createdEvent (responseIdOf job.id) job.model 0, inProgressEvent (responseIdOf job.id) job.model 1] b := by
  obtain ⟨d, hcreated, hrest⟩ := emit_sends h
  obtain ⟨e, hprogress, hend⟩ := emit_sends hrest
  obtain ⟨-, hgoes⟩ := Prog.Executes.of_ret hend
  exact hcreated.trans (hprogress.trans hgoes.sent)

/-- A wait after a look that showed no end goes on. It does not find the channel closed: a channel that is
closed and has not changed has shown the end. -/
private theorem wait_goes_on {sequence : Nat} {next : Option Nat} {state : JobState}
    {f : Wake → BatchStream (Option Nat)}
    (h : Prog.Executes (Streaming.Goes c) (StreamOp.Answers receiver) (select >>= f) a next b)
    (htick : f .tick = do
      emit (inProgressEvent (responseIdOf job.id) job.model sequence)
      return some (sequence + 1))
    (hchanged : f .changed = return some sequence) (ha : a.registry.Intact c)
    (hreceiver : receiver ∈ a.registry.receivers) (hshown : receiver.borrow a.registry.fleet.world = some state)
    (hlive : state.isTerminal = false)
    (hseen : a.seen = receiver.version a.registry.fleet.world) :
    ∃ events, Sent c a events b ∧ (∀ event ∈ events, event.isTerminal = false) ∧ next.isSome = true := by
  obtain ⟨t, wake, d, henv, hwake, hrest⟩ := Prog.Executes.of_call h
  cases wake with
  | tick =>
    obtain rfl : d = t := hwake
    rw [htick] at hrest
    obtain ⟨e, hsent, hend⟩ := emit_sends hrest
    obtain ⟨rfl, hgoes⟩ := Prog.Executes.of_ret hend
    refine ⟨_, henv.sent.trans (hsent.trans hgoes.sent), fun event hevent => ?_, rfl⟩
    rw [List.nil_append, List.append_nil, List.mem_singleton] at hevent
    rw [hevent]
    rfl
  | changed =>
    obtain ⟨-, rfl⟩ := hwake
    rw [hchanged] at hrest
    obtain ⟨rfl, hgoes⟩ := Prog.Executes.of_ret hrest
    exact ⟨[], ⟨henv.run.trans hgoes.run, by rw [hgoes.events, henv.events, List.append_nil]⟩,
      fun _ hevent => absurd hevent List.not_mem_nil, rfl⟩
  | closed =>
    obtain ⟨hsame, hclosed, -⟩ := hwake
    rw [henv.seen, hseen] at hsame
    have ht := henv.run.life.intact ha
    obtain ⟨final, hfinal, hterminal⟩ :=
      ht.sound.closed_shows ((Registry.Run.steady henv.run).2 hreceiver) hclosed
    rw [Registry.borrow_of_version henv.run hsame, hshown] at hfinal
    cases hfinal
    rw [hlive] at hterminal
    cases hterminal

/-- A turn goes on, or ends the stream with the stored outcome. -/
private theorem streamTurn_turns {sequence : Nat} {next : Option Nat} (ha : a.registry.Intact c)
    (hreceiver : receiver ∈ a.registry.receivers)
    (h : Prog.Executes (Streaming.Goes c) (StreamOp.Answers receiver) (streamTurn c job sequence) a next b) :
    (∃ events, Sent c a events b ∧ (∀ event ∈ events, event.isTerminal = false) ∧ next.isSome = true) ∨
      (next = none ∧ ∃ outcome, Sent c a (terminalEvents c job sequence outcome) b ∧
        Registry.Stored c receiver.id (.terminal outcome) b.registry.fleet.world.db) := by
  obtain ⟨s, state, t, henv, ⟨hshown, rfl⟩, hrest⟩ := Prog.Executes.of_call h
  have hs : s.registry.Intact c := henv.run.life.intact ha
  have hheld : receiver ∈ s.registry.receivers := (Registry.Run.steady henv.run).2 hreceiver
  have hlooked : Sent c a [] { s with seen := receiver.version s.registry.fleet.world } := ⟨henv.run, henv.sent.events⟩
  cases state with
  | terminal outcome =>
    obtain ⟨rfl, hsent⟩ := emitAll_sends_all hrest
    have hstored := hs.sound.shown_stored hs.faithful hheld hshown rfl
    exact .inr ⟨rfl, outcome, hlooked.trans hsent, hstored.forward (Registry.Life.sound hsent.run.life hs.sound).2⟩
  | _ =>
    obtain ⟨events, hsent, hevents, hnext⟩ := wait_goes_on hrest rfl rfl hs hheld hshown rfl rfl
    exact .inl ⟨events, hlooked.trans hsent, hevents, hnext⟩

/-- What a stream has sent, by the number it goes on with. -/
private theorem Streams.sends {next : Option Nat} (h : Streams c job receiver a next b) (ha : a.registry.Intact c)
    (hreceiver : receiver ∈ a.registry.receivers) :
    ∃ before, (∀ event ∈ before, event.isTerminal = false) ∧ ((next.isSome = true ∧ Sent c a before b) ∨
      (next = none ∧ ∃ outcome sequence, Sent c a (before ++ terminalEvents c job sequence outcome) b ∧
        Registry.Stored c receiver.id (.terminal outcome) b.registry.fleet.world.db)) := by
  induction h with
  | opened run =>
    refine ⟨_, fun event hevent => ?_, .inl ⟨rfl, openStream_opens run⟩⟩
    rcases List.mem_pair.mp hevent with rfl | rfl <;> rfl
  | turned before run ih =>
    obtain ⟨sent, hsent, ⟨-, hrun⟩ | ⟨hnone, -⟩⟩ := ih
    · have hheld := (Registry.Run.steady hrun.run).2 hreceiver
      rcases streamTurn_turns (hrun.run.life.intact ha) hheld run with
        ⟨events, hturn, hevents, hnext⟩ | ⟨rfl, outcome, hturn, hstored⟩
      · refine ⟨sent ++ events, fun event hevent => ?_, .inl ⟨hnext, hrun.trans hturn⟩⟩
        rcases List.mem_append.mp hevent with hevent | hevent
        · exact hsent event hevent
        · exact hevents event hevent
      · exact ⟨sent, hsent, .inr ⟨rfl, outcome, _, hrun.trans hturn, hstored⟩⟩
    · cases hnone

/-- A Batch stream that ends, ends with the outcome that the store keeps for its job, then and ever after, and
has sent nothing final before: it never gives up on a channel. -/
theorem batch_streams_end_with_stored_outcome {start s : Registry} {auth : UpstreamAuth} {requestBody : Value}
    (hstart : start.Initial) (hlife : Registry.Life c start s) (held : job ∈ s.fleet.copies)
    (hhead : (s.subscribe c auth requestBody job).receivers.head? = some receiver)
    (h : Streams c job receiver ⟨s.subscribe c auth requestBody job, 0, []⟩ none b) :
    ∃ before sequence outcome, b.events = before ++ terminalEvents c job sequence outcome ∧
      (∀ event ∈ before, event.isTerminal = false) ∧
      ∀ later, Registry.Life c b.registry later → Registry.Stored c job.id (.terminal outcome) later.fleet.world.db := by
  have hsubscribed : (s.subscribe c auth requestBody job).Intact c :=
    (Registry.Run.life (.single (.subscribes s auth requestBody job held))).intact (hlife.intact hstart.intact)
  obtain ⟨before, hbefore, ⟨hsome, -⟩ | ⟨-, outcome, sequence, hsent, hstored⟩⟩ :=
    h.sends hsubscribed (List.mem_of_head? hhead)
  · cases hsome
  rw [subscribe_receiver hhead] at hstored
  refine ⟨before, sequence, outcome, hsent.events, hbefore, fun later hlater => ?_⟩
  exact hstored.forward (Registry.Life.sound hlater (hsent.run.life.intact hsubscribed).sound).2

section Witness
open JobApi.Sample

private theorem emitAll_can (events : List SseEvent) (a : Streaming) :
    Prog.Executes (Streaming.Goes c) (StreamOp.Answers receiver)
    (emitAll events >>= fun _ => .ret (none : Option Nat)) a none
      { a with events := a.events ++ events } := by
  have hrefl (b : Streaming) : Streaming.Goes c b b := ⟨.refl, rfl, rfl⟩
  induction events generalizing a with
  | nil =>
    rw [List.append_nil]
    exact .ret _ (hrefl a)
  | cons event events ih =>
    have hlater := ih { a with events := a.events ++ [event] }
    rw [List.append_assoc] at hlater
    exact .call () (hrefl a) rfl hlater

/-- The stream of a job that goes on: after a heartbeat its worker ends the job, and so the stream. -/
theorem batch_streams_end_with_stored_outcome_ended : ∃ b, Streams sampleCrates.json keptJob (.live ⟨"ab"⟩ 0)
    ⟨woken, 0, []⟩ none b ∧ ∃ before sequence outcome,
      b.events = before ++ terminalEvents sampleCrates.json keptJob sequence outcome ∧
      (∀ event ∈ before, event.isTerminal = false) ∧
      Registry.Stored sampleCrates.json ⟨"ab"⟩ (.terminal outcome) b.registry.fleet.world.db := by
  obtain ⟨ended, hends⟩ := woken_ends
  have hrefl (b : Streaming) : Streaming.Goes sampleCrates.json b b := ⟨.refl, rfl, rfl⟩
  have hopened : Streams sampleCrates.json keptJob (.live ⟨"ab"⟩ 0) ⟨woken, 0, []⟩ (some 2) _ :=
    .opened (.call () (hrefl _) rfl (.call () (hrefl _) rfl (.ret _ (hrefl _))))
  have hticked := Streams.turned hopened (.call .queued (hrefl _) ⟨rfl, rfl⟩
    (.call .tick (hrefl _) rfl (.call () (hrefl _) rfl (.ret _ (hrefl _)))))
  have hversion : (Receiver.live ⟨"ab"⟩ 0).version ended.fleet.world ≠ 1 := by
    show (published 0 ended.fleet.world.log).length ≠ _
    rw [hends.told]
    exact Nat.succ_ne_self _
  have hshown : (Receiver.live ⟨"ab"⟩ 0).borrow ended.fleet.world = some (.terminal refusal) := by
    show (published 0 ended.fleet.world.log).head? = _
    rw [hends.told]
    rfl
  have hchanged := Streams.turned hticked (.call .queued (hrefl _) ⟨rfl, rfl⟩
    (.call (t := ⟨ended, _, _⟩) .changed ⟨hends.run, rfl, rfl⟩ ⟨hversion, rfl⟩ (.ret _ (hrefl _))))
  have hended := Streams.turned hchanged (.call (.terminal refusal) (hrefl _) ⟨hshown, rfl⟩ (emitAll_can _ _))
  have hlife : Registry.Life sampleCrates.json waking (waking.hold keptJob) := (Registry.hold_run kept_get).life
  obtain ⟨before, sequence, outcome, hevents, hbefore, hstored⟩ := batch_streams_end_with_stored_outcome
    waking_initial hlife List.mem_cons_self rfl hended
  exact ⟨_, hended, before, sequence, outcome, hevents, hbefore, hstored _ .refl⟩

end Witness

end Kaiion.Proxy

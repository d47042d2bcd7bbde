import Kaiion.Foundation.Machine
import Kaiion.Scheduling.Section

/-! The scheduler together with the tasks around it: acquire calls between their awaits, the permits
they were handed, completions and aborts that wait for the lock, and the clean-ups that dropped
guards have spawned. Any of them may take the next step, and time may pass between any two. -/
namespace Kaiion.Scheduling
open Foundation

/-- Where an acquire call is, once it has been queued. -/
inductive Phase where
  /-- No such call. -/
  | absent
  /-- At the top of the loop, about to read the clock. -/
  | top
  /-- The clock is read, the lock is awaited. -/
  | waiting (now : Nat)
  /-- The pass is over, the receiver not yet tried. -/
  | passed (now sleepFor : Nat)
  /-- The receiver was empty. -/
  | checking (now sleepFor : Nat)
  /-- About to create the sleep of the select. -/
  | arming (now sleepFor : Nat)
  /-- In the select, with a sleep until `timer`. -/
  | suspended (timer : Nat)
  /-- Past the deadline, the lock is awaited. -/
  | expiring
  /-- Over without having received, with the outcome it returns unless it was cancelled; the
  receiver is not yet dropped. -/
  | closing (reply : Option ScheduleOutcome)
  /-- The same, with the receiver dropped. -/
  | closed (reply : Option ScheduleOutcome)
  /-- Over with the outcome it received. -/
  | returned (outcome : ScheduleOutcome)
  deriving DecidableEq

/-- The call still runs. -/
def Phase.live : Phase → Bool
  | .top | .waiting _ | .passed _ _ | .checking _ _ | .arming _ _ | .suspended _ | .expiring => true
  | .absent | .closing _ | .closed _ | .returned _ => false

/-- The receiver exists. -/
def Phase.receiver : Phase → Bool
  | .closing _ => true
  | phase => phase.live

/-- The call looks at its receiver. -/
def Phase.receiving : Phase → Bool
  | .passed _ _ | .suspended _ => true
  | _ => false

/-- A future can be dropped where it awaits. -/
def Phase.cancellable : Phase → Bool
  | .top | .waiting _ | .suspended _ | .expiring => true
  | _ => false

/-- An acquire call; its channel holds what was sent and not yet received. -/
structure Call where
  request : ScheduleRequest
  id : Nat
  started : Nat
  channel : Option ScheduleOutcome
  phase : Phase
  deriving DecidableEq

def Call.absent : Call :=
  { request := .plain "" "" "", id := 0, started := 0, channel := none, phase := .absent }

/-- A completion or an abort that has disarmed the lease and awaits the lock. -/
inductive Settlement where
  | complete (permit : SchedulePermit) (now : Nat) (inputTokens outputTokens : Option Nat)
      (cacheReadHit : Option Bool)
  | abort (permit : SchedulePermit) (id : Nat)
  deriving DecidableEq

def Settlement.permit : Settlement → SchedulePermit
  | .complete permit _ _ _ _ | .abort permit _ => permit

/-- `complete` reads the clock before it locks; `abort` has work only for a reserved permit. -/
def Settlement.Starts (clock : Nat) : Settlement → Prop
  | .complete _ now _ _ _ => now = clock
  | .abort permit id => permit.reservationId = some id

/-- The reading a settlement's section uses; `abort` takes it under the lock. -/
def Settlement.reading (clock : Nat) : Settlement → Nat
  | .complete _ now _ _ _ => now
  | .abort _ _ => clock

def Settlement.work : Settlement → Section
  | .complete permit _ inputTokens outputTokens cacheReadHit =>
    .complete permit inputTokens outputTokens cacheReadHit
  | .abort _ id => .abort id

/-- The scheduler and everything that still has to do with it. `held` are the permits callers keep
with their lease armed; the clean-ups are spawned tasks that have not run. -/
structure Sys where
  clock : Nat
  state : State
  calls : Nat → Call
  issued : Nat
  held : List SchedulePermit
  settling : List Settlement
  leaseCleanups : List Nat
  pendingCleanups : List Nat

def Sys.initial : Sys :=
  { clock := 0, state := .initial, calls := fun _ => .absent, issued := 0, held := [], settling := []
    leaseCleanups := [], pendingCleanups := [] }

inductive Action where
  | tick (elapsed : Nat)
  | bypass (request : ScheduleRequest)
  | enqueue (request : ScheduleRequest) (started : Nat)
  | read (c : Nat)
  | pass (c now : Nat) (closed : Nat → Closings)
  | receive (c : Nat) (outcome : ScheduleOutcome)
  | poll (c now sleepFor : Nat)
  | check (c now sleepFor : Nat)
  | arm (c now sleepFor : Nat)
  | wake (c timer : Nat)
  | expire (c : Nat)
  | cancel (c : Nat)
  | close (c : Nat) (reply : Option ScheduleOutcome)
  | dropPermit (permit : SchedulePermit)
  | settle (settlement : Settlement)
  | finish (settlement : Settlement) (closed : Nat → Closings)
  | cancelSettle (settlement : Settlement)
  | cleanLease (id : Nat) (closed : Nat → Closings)
  | cleanPending (id : Nat) (closed : Nat → Closings)

def Sys.update (sys : Sys) (c : Nat) (call : Call) : Sys :=
  { sys with calls := fun other => if other = c then call else sys.calls other }

def Sys.moveTo (sys : Sys) (c : Nat) (phase : Phase) : Sys :=
  sys.update c { sys.calls c with phase }

/-- What a section finds when it looks at a channel: a live call's is open, one without a receiver
is closed, and one whose receiver is just being dropped may be either. -/
def Sys.closings (sys : Sys) (closed : Nat → Closings) : Nat → Closings := fun turn check c =>
  !(sys.calls c).phase.live && (!(sys.calls c).phase.receiver || closed turn check c)

/-- Outcomes arrive in the channels they were sent into. -/
def deliver (sent : List (Nat × ScheduleOutcome)) (calls : Nat → Call) : Nat → Call := fun c =>
  { calls c with channel := (sent.lookup c).or (calls c).channel }

/-- A section runs; the leases of permits that came back are dropped. -/
def Sys.enter (inner : Inner) (closed : Nat → Closings) (now : Nat) (work : Section) (sys : Sys) : Sys :=
  let pass := work.run inner (sys.closings closed) now sys.state
  { sys with
    state := pass.state
    calls := deliver pass.sent sys.calls
    leaseCleanups := pass.returned ++ sys.leaseCleanups }

def Call.deadline (inner : Inner) (call : Call) : Nat :=
  call.started + inner.policy.maxWait call.request.asyncAlias

/-- `sleep_for`. -/
def sleepFor (deadline now : Nat) (due : Option Nat) : Nat :=
  min ((due.map (· - now)).getD (deadline - now)) (deadline - now)

/-- The phase in which a pass leaves its own call. -/
def Sys.afterPass (inner : Inner) (closed : Nat → Closings) (sys : Sys) (c now : Nat) : Phase :=
  let call := sys.calls c
  let work := Section.pass call.id call.request
  match hopeless inner now call.started call.request (work.opened inner now sys.state) with
  | some outcome => .closing (some outcome)
  | none => .passed now (sleepFor (call.deadline inner) now
      (work.run inner (sys.closings closed) now sys.state).due)

/-- The phase after an empty receiver: past the deadline, round the loop again, or to the select. -/
def Sys.afterCheck (inner : Inner) (sys : Sys) (c now sleepFor : Nat) : Phase :=
  if (sys.calls c).deadline inner ≤ sys.clock then .expiring
  else if sleepFor = 0 then .top
  else .arming now sleepFor

/-- A permit goes to the caller of `acquire`. -/
def Sys.hand (sys : Sys) : ScheduleOutcome → Sys
  | .dispatch permit => { sys with held := permit :: sys.held }
  | _ => sys

/-- `acquire` without a queue: scheduling is disabled. -/
def freePermit (request : ScheduleRequest) : SchedulePermit :=
  { reservationId := none, provider := request.provider, authScope := request.authScope
    model := request.model, sessionId := request.sessionId, interaction := request.interaction
    inputTokens := request.inputTokens, outputTokens := request.outputTokens, waited := 0 }

/-- The clean-up a dropped lease spawns. -/
def leaseOf (permit : SchedulePermit) : List Nat := permit.reservationId.toList

def leaseIn : Option ScheduleOutcome → List Nat
  | some (.dispatch permit) => leaseOf permit
  | _ => []

def Sys.Enabled (inner : Inner) (sys : Sys) : Action → Prop
  | .tick _ => True
  | .bypass request => inner.policy.enabled = false ∧ named request = true
  | .enqueue request started => inner.policy.enabled = true ∧ admitted inner request = true ∧
      started + request.upstreamRetryAfter.getD 0 ≤ sys.clock
  | .read c => (sys.calls c).phase = .top
  | .pass c now _ => (sys.calls c).phase = .waiting now
  | .receive c outcome => (sys.calls c).phase.receiving = true ∧ (sys.calls c).channel = some outcome
  | .poll c now sleepFor => (sys.calls c).phase = .passed now sleepFor ∧ (sys.calls c).channel = none
  | .check c now sleepFor => (sys.calls c).phase = .checking now sleepFor
  | .arm c now sleepFor => (sys.calls c).phase = .arming now sleepFor
  | .wake c timer => (sys.calls c).phase = .suspended timer ∧ timer ≤ sys.clock
  | .expire c => (sys.calls c).phase = .expiring
  | .cancel c => (sys.calls c).phase.cancellable = true
  | .close c reply => (sys.calls c).phase = .closing reply
  | .dropPermit permit => permit ∈ sys.held
  | .settle settlement => settlement.permit ∈ sys.held ∧ settlement.Starts sys.clock
  | .finish settlement _ => settlement ∈ sys.settling
  | .cancelSettle settlement => settlement ∈ sys.settling
  | .cleanLease id _ => id ∈ sys.leaseCleanups
  | .cleanPending id _ => id ∈ sys.pendingCleanups

instance (clock : Nat) : DecidablePred (Settlement.Starts clock)
  | .complete _ now _ _ _ => inferInstanceAs (Decidable (now = clock))
  | .abort permit id => inferInstanceAs (Decidable (permit.reservationId = some id))

instance (inner : Inner) (sys : Sys) : DecidablePred (sys.Enabled inner)
  | .tick _ => .isTrue trivial
  | .bypass _ | .receive _ _ | .poll _ _ _ | .wake _ _ | .settle _ => inferInstanceAs (Decidable (_ ∧ _))
  | .enqueue _ _ => inferInstanceAs (Decidable (_ ∧ _ ∧ _))
  | .read _ | .pass _ _ _ | .check _ _ _ | .arm _ _ _ | .expire _ | .cancel _ | .close _ _ =>
    inferInstanceAs (Decidable (_ = _))
  | .dropPermit _ | .finish _ _ | .cancelSettle _ | .cleanLease _ _ | .cleanPending _ _ =>
    inferInstanceAs (Decidable (_ ∈ _))

/-- A new call, in its own channel; a full queue turns it away. -/
def Sys.queue (inner : Inner) (sys : Sys) (request : ScheduleRequest) (started : Nat) : Sys :=
  let work := Section.enqueue sys.issued request
  let entered := sys.enter inner (fun _ _ _ => true) sys.clock work
  if queueFull inner request (work.opened inner sys.clock sys.state) then entered
  else
    { entered.update sys.issued
        { request, id := sys.state.nextId, started, channel := none, phase := .top } with
      issued := sys.issued + 1 }

def Sys.next (inner : Inner) (sys : Sys) : Action → Sys
  | .tick elapsed => { sys with clock := sys.clock + elapsed }
  | .bypass request => { sys with held := freePermit (prepare inner request) :: sys.held }
  | .enqueue request started => sys.queue inner (prepare inner request) started
  | .read c => sys.moveTo c (.waiting sys.clock)
  | .pass c now closed =>
    (sys.enter inner closed now (.pass (sys.calls c).id (sys.calls c).request)).moveTo c
      (sys.afterPass inner closed c now)
  | .receive c outcome =>
    (sys.update c { sys.calls c with channel := none, phase := .returned outcome }).hand outcome
  | .poll c now sleepFor => sys.moveTo c (.checking now sleepFor)
  | .check c now sleepFor => sys.moveTo c (sys.afterCheck inner c now sleepFor)
  | .arm c _ sleepFor => sys.moveTo c (.suspended (sys.clock + sleepFor))
  | .wake c _ => sys.moveTo c .top
  | .expire c =>
    (sys.enter inner (fun _ _ _ => true) sys.clock (.expire (sys.calls c).id)).moveTo c
      (.closing (some (expiry inner sys.clock (sys.calls c).started (sys.calls c).request sys.state)))
  | .cancel c =>
    { sys.moveTo c (.closing none) with pendingCleanups := (sys.calls c).id :: sys.pendingCleanups }
  | .close c reply =>
    { sys.update c { sys.calls c with channel := none, phase := .closed reply } with
      leaseCleanups := leaseIn (sys.calls c).channel ++ sys.leaseCleanups }
  | .dropPermit permit =>
    { sys with held := sys.held.erase permit, leaseCleanups := leaseOf permit ++ sys.leaseCleanups }
  | .settle settlement =>
    { sys with held := sys.held.erase settlement.permit, settling := settlement :: sys.settling }
  | .finish settlement closed =>
    ({ sys with settling := sys.settling.erase settlement } : Sys).enter inner closed
      (settlement.reading sys.clock) settlement.work
  | .cancelSettle settlement => { sys with settling := sys.settling.erase settlement }
  | .cleanLease id closed =>
    ({ sys with leaseCleanups := sys.leaseCleanups.erase id } : Sys).enter inner closed sys.clock (.dropLease id)
  | .cleanPending id closed =>
    ({ sys with pendingCleanups := sys.pendingCleanups.erase id } : Sys).enter inner closed sys.clock
      (.dropPending id)

/-- One scheduler and all the tasks that use it. -/
def scheduler (inner : Inner) : Machine Sys Action :=
  { initial := .initial
    enabled := Sys.Enabled inner
    next := Sys.next inner }

instance (inner : Inner) (sys : Sys) (action : Action) : Decidable ((scheduler inner).enabled sys action) :=
  inferInstanceAs (Decidable (sys.Enabled inner action))

end Kaiion.Scheduling

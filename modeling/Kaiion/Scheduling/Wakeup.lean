import Kaiion.Scheduling.Delay
import Kaiion.Scheduling.Ownership

/-! Who wakes a waiting request. Every acquire call sets its own timer by what its last pass saw, so
the timers are right as long as no later step makes a request ready sooner. -/
namespace Kaiion.Scheduling
open Foundation

variable {inner : Inner} {sys : Sys} {pending : Pending} {now time : Nat}

/-- A request whose call still waits may be sent at `time`, before its deadline, should nothing but
time pass until then. -/
structure Sys.Due (inner : Inner) (sys : Sys) (pending : Pending) (time : Nat) : Prop where
  queued : ∃ id, sys.state.pending.lookup id = some pending
  live : (sys.calls pending.sender).phase.live = true
  later : sys.clock ≤ time
  early : time < (sys.calls pending.sender).deadline inner
  ready : pending.readyAt inner sys.state time = true
  coalesced : queueReady sys.state time = true

/-- Every unfinished call is suspended in its select. -/
def Sys.Asleep (sys : Sys) : Prop :=
  ∀ c, (sys.calls c).phase.live = true → ∃ timer, (sys.calls c).phase = .suspended timer

/-- When all calls sleep, one of them wakes by the instant at which a request may be sent. -/
def Sys.WakesUp (inner : Inner) (sys : Sys) : Prop :=
  sys.Asleep → ∀ pending time, sys.Due inner pending time →
    ∃ c timer, (sys.calls c).phase = .suspended timer ∧ timer ≤ time

/-- A step that makes no waiting request due at an instant at which it was not. -/
def Sys.HastensNone (inner : Inner) (sys next : Sys) : Prop :=
  ∀ pending time, next.Due inner pending time → sys.Due inner pending time

/-- Nothing falls due between the instant a sleep was computed for and the one it is set to, and what
gives a reservation back hastens no request that it leaves waiting. -/
def wakesInTime (inner : Inner) (sys : Sys) : Action → Prop
  | .arm c now sleepFor => ∀ pending time, sys.Due inner pending time → pending.sender = c →
      now + sleepFor ≤ time → sys.clock + sleepFor ≤ time
  | .finish settlement closed => sys.HastensNone inner (sys.next inner (.finish settlement closed))
  | .cleanLease id closed => sys.HastensNone inner (sys.next inner (.cleanLease id closed))
  | _ => True

/-- The steps under which timers can be relied on; the token sums must not wrap either. -/
def timely (inner : Inner) (sys : Sys) (action : Action) : Prop :=
  sys.state.Bounded ∧ wakesInTime inner sys action

/-- The call looks at the queue again by `time`. -/
def Phase.wakesBy (time : Nat) : Phase → Prop
  | .passed now sleepFor | .checking now sleepFor | .arming now sleepFor => now + sleepFor ≤ time
  | .suspended timer => timer ≤ time
  | _ => True

structure Sys.Watched (inner : Inner) (sys : Sys) : Prop where
  read : ∀ c now, (sys.calls c).phase = .waiting now → now ≤ sys.clock
  covered : ∀ pending time, sys.Due inner pending time → (sys.calls pending.sender).phase.wakesBy time

/-- A live call moves on; where it is now has to cover its own request. -/
private theorem Sys.Watched.moveTo (h : sys.Watched inner) {c : Nat} {phase : Phase}
    (hlive : (sys.calls c).phase.live = true) (hread : ∀ now, phase = .waiting now → now ≤ sys.clock)
    (hphase : ∀ pending time, sys.Due inner pending time → pending.sender = c →
      (sys.calls c).phase.wakesBy time → phase.wakesBy time) : (sys.moveTo c phase).Watched inner := by
  have hcalls : ∀ other, (sys.moveTo c phase).calls other =
      if other = c then { sys.calls c with phase } else sys.calls other := fun _ => rfl
  refine ⟨fun other now hwaiting => ?_, fun pending time hdue => ?_⟩
  · rw [hcalls] at hwaiting
    split at hwaiting
    · exact hread now hwaiting
    · exact h.read other now hwaiting
  · obtain ⟨hqueued, hlive', hlater, hearly, hready, hcoalesced⟩ := hdue
    rw [hcalls] at hlive' hearly ⊢
    by_cases hsender : pending.sender = c
    · rw [if_pos hsender] at hearly ⊢
      have hdue : sys.Due inner pending time :=
        ⟨hqueued, hsender ▸ hlive, hlater, hsender ▸ hearly, hready, hcoalesced⟩
      exact hphase pending time hdue hsender (hsender ▸ h.covered pending time hdue)
    · rw [if_neg hsender] at hlive' hearly ⊢
      exact h.covered pending time ⟨hqueued, hlive', hlater, hearly, hready, hcoalesced⟩

/-- Other calls stay as they are; those that changed have ended. -/
private theorem Sys.Watched.ended (h : sys.Watched inner) {next : Sys} (hstate : next.state = sys.state)
    (hclock : sys.clock ≤ next.clock)
    (hcalls : ∀ c, next.calls c = sys.calls c ∨ (next.calls c).phase.live = false) :
    next.Watched inner := by
  refine ⟨fun c now hwaiting => ?_, fun pending time hdue => ?_⟩
  · rcases hcalls c with heq | hover
    · rw [heq] at hwaiting
      exact Nat.le_trans (h.read c now hwaiting) hclock
    · rw [hwaiting] at hover
      cases hover
  · obtain ⟨hqueued, hlive, hlater, hearly, hready, hcoalesced⟩ := hdue
    rcases hcalls pending.sender with heq | hover
    · rw [hstate] at hqueued hready hcoalesced
      rw [heq] at hlive hearly ⊢
      exact h.covered pending time ⟨hqueued, hlive, Nat.le_trans hclock hlater, hearly, hready, hcoalesced⟩
    · rw [hlive] at hover
      cases hover

private theorem Sys.Watched.same (h : sys.Watched inner) {next : Sys} (hstate : next.state = sys.state)
    (hclock : sys.clock ≤ next.clock) (hcalls : next.calls = sys.calls) : next.Watched inner :=
  h.ended hstate hclock fun c => .inl (by rw [hcalls])

theorem Sys.Owned.fresh (h : sys.Owned) : sys.state.Fresh := fun id hid =>
  ⟨(h.unused id (.inl hid)).active, (h.unused id (.inl hid)).events⟩

/-- A step that changes neither the phase nor the deadline of a call, and hastens none. -/
private theorem Sys.Watched.hastensNone (h : sys.Watched inner) {next : Sys} (hclock : next.clock = sys.clock)
    (hphase : ∀ c, (next.calls c).phase = (sys.calls c).phase) (hdue : sys.HastensNone inner next) :
    next.Watched inner := by
  refine ⟨fun c now hwaiting => ?_, fun pending time hnext => ?_⟩
  · rw [hphase] at hwaiting
    rw [hclock]
    exact h.read c now hwaiting
  · rw [hphase]
    exact h.covered pending time (hdue pending time hnext)

/-- A section that gives nothing back hastens none. -/
private theorem Sys.Owned.enter_hastensNone (h : sys.Owned) (hbounded : sys.state.Bounded)
    (hnow : now ≤ sys.clock) {work : Section} (hwork : work.queues = false)
    (hreleases : work.releases = none) (closed : Nat → Closings) :
    sys.HastensNone inner (sys.enter inner closed now work) := by
  intro pending time ⟨⟨id, found⟩, hlive, hlater, hearly, hready, hcoalesced⟩
  obtain ⟨hfound, -, hbefore, hqueue⟩ := Section.run_delays hwork hreleases (sys.closings closed) h.fresh
    hbounded (Nat.le_trans hnow hlater) found hready
  exact ⟨⟨id, hfound⟩, hlive, hlater, hearly, hbefore, hqueue hcoalesced⟩

/-- The instant a pass returns is no later than any at which a request it leaves may be sent. -/
private theorem pass_wakes (h : sys.Owned) (hbounded : sys.state.Bounded) (hnow : now ≤ sys.clock) {id : Nat}
    {request : ScheduleRequest} {closed : Nat → Closings}
    (hhope : (request.fit inner ((Section.pass id request).opened inner now sys.state) now).impossible = false)
    (hdue : (sys.enter inner closed now (.pass id request)).Due inner pending time) :
    ∃ due, ((Section.pass id request).run inner (sys.closings closed) now sys.state).due = some due ∧
      due ≤ time := by
  obtain ⟨⟨queued, found⟩, hlive, hlater, hearly, hready, hcoalesced⟩ := hdue
  have hle : now ≤ time := Nat.le_trans hnow hlater
  have hlive' : (sys.calls pending.sender).phase.live = true := hlive
  obtain ⟨-, hopened, -⟩ := Section.run_delays rfl rfl (sys.closings closed) h.fresh hbounded hle found hready
  obtain ⟨instant, hfit, hinstant⟩ := fit_of_readyAt hopened hle
  have hrun : (Section.pass id request).run inner (sys.closings closed) now sys.state =
      dispatchReady inner (sys.closings closed 0) now ((Section.pass id request).opened inner now sys.state) :=
    if_neg (by rw [hhope]; exact Bool.false_ne_true)
  unfold Sys.enter at found hcoalesced
  dsimp only at found hcoalesced
  rw [hrun] at found hcoalesced ⊢
  exact dispatchReady_wakes _ _ found (by simp [Sys.closings, hlive']) (by rw [hfit]) (by rw [hfit]) hle
    hinstant hcoalesced

private theorem sleepFor_le {deadline due : Nat} (hnow : now ≤ time) (hdue : due ≤ time) :
    now + sleepFor deadline now (some due) ≤ time := by
  have hle : sleepFor deadline now (some due) ≤ due - now := Nat.min_le_left _ _
  omega

private theorem Sys.Watched.pass (h : sys.Watched inner) (howned : sys.Owned) (hbounded : sys.state.Bounded)
    {c : Nat} (hwaiting : (sys.calls c).phase = .waiting now) (closed : Nat → Closings) :
    ((sys.enter inner closed now (.pass (sys.calls c).id (sys.calls c).request)).moveTo c
      (sys.afterPass inner closed c now)).Watched inner := by
  have hnow := h.read c now hwaiting
  have hentered : (sys.enter inner closed now (.pass (sys.calls c).id (sys.calls c).request)).Watched inner :=
    h.hastensNone rfl (fun _ => rfl) (howned.enter_hastensNone hbounded hnow rfl rfl closed)
  have hphase : ((sys.enter inner closed now (.pass (sys.calls c).id (sys.calls c).request)).calls c).phase =
      .waiting now := hwaiting
  unfold Sys.afterPass
  dsimp only
  cases hhope : hopeless inner now (sys.calls c).started (sys.calls c).request
      ((Section.pass (sys.calls c).id (sys.calls c).request).opened inner now sys.state) with
  | some outcome =>
    exact hentered.moveTo (by rw [hphase]; rfl) (fun _ h => nomatch h) (fun _ _ _ _ _ => trivial)
  | none =>
    have hpossible : ((sys.calls c).request.fit inner ((Section.pass (sys.calls c).id
        (sys.calls c).request).opened inner now sys.state) now).impossible = false := by
      unfold hopeless at hhope
      dsimp only at hhope
      split at hhope
      · cases hhope
      next hnot => exact Bool.eq_false_iff.mpr hnot
    refine hentered.moveTo (by rw [hphase]; rfl) (fun _ h => nomatch h) fun pending time hdue _ _ => ?_
    obtain ⟨due, hsome, hle⟩ := pass_wakes howned hbounded hnow hpossible hdue
    rw [hsome]
    exact sleepFor_le (Nat.le_trans hnow hdue.later) hle

/-- A new request changes nothing for those that are queued already. -/
private theorem enqueue_same {s : State} {sender : Nat} {request : ScheduleRequest}
    (hroom : queueFull inner request s = false) (hother : pending.sender ≠ sender) {id : Nat}
    (found : (s.enqueue inner now sender request).pending.lookup id = some pending) (time : Nat) :
    s.pending.lookup id = some pending ∧
      pending.readyAt inner (s.enqueue inner now sender request) time = pending.readyAt inner s time ∧
      queueReady (s.enqueue inner now sender request) time = queueReady s time := by
  rw [enqueue_room hroom] at found ⊢
  have hne : id ≠ s.nextId := by
    rintro rfl
    rw [AList.lookup_insert] at found
    cases found
    exact hother rfl
  rw [AList.lookup_insert_ne hne] at found
  refine ⟨found, ?_, ?_⟩
  · unfold Pending.readyAt
    rw [fit_congr]
    · rfl
    · rfl
    · rfl
  · have hsome : s.pending.entries ≠ [] := List.ne_nil_of_mem (AList.mem_lookup_iff.mp found)
    unfold queueReady
    rw [if_neg hsome]

private theorem Sys.Watched.queue (h : sys.Watched inner) (hbounded : sys.state.Bounded)
    (request : ScheduleRequest) (started : Nat) : (sys.queue inner request started).Watched inner := by
  have hpruned : (pruneEvents inner.policy sys.clock sys.state).Bounded :=
    hbounded.sublist (List.dropWhile_sublist _) (.refl _)
  cases hfull : queueFull inner request (pruneEvents inner.policy sys.clock sys.state) with
  | true =>
    rw [Sys.queue_full started hfull]
    refine h.hastensNone rfl (fun _ => rfl) fun pending time hdue => ?_
    obtain ⟨hqueued, hlive, hlater, hearly, hready, hcoalesced⟩ := hdue
    exact ⟨hqueued, hlive, hlater, hearly,
      (pruneEvents_tightens inner.policy hlater sys.state).ready hpruned hready, hcoalesced⟩
  | false =>
    rw [Sys.queue_room started hfull]
    refine ⟨fun c now hwaiting => ?_, fun pending time hdue => ?_⟩
    · by_cases hnew : c = sys.issued
      · change (if c = sys.issued then _ else _ : Call).phase = _ at hwaiting
        rw [if_pos hnew] at hwaiting
        cases hwaiting
      · change (if c = sys.issued then _ else _ : Call).phase = _ at hwaiting
        rw [if_neg hnew] at hwaiting
        exact h.read c now hwaiting
    · obtain ⟨⟨id, found⟩, hlive, hlater, hearly, hready, hcoalesced⟩ := hdue
      change (if pending.sender = sys.issued then _ else _ : Call).phase.live = _ at hlive
      change _ < (if pending.sender = sys.issued then _ else _ : Call).deadline inner at hearly
      change Phase.wakesBy _ (if pending.sender = sys.issued then _ else _ : Call).phase
      by_cases hnew : pending.sender = sys.issued
      · rw [if_pos hnew]
        trivial
      · rw [if_neg hnew] at hlive hearly ⊢
        obtain ⟨hfound, hsame, hqueue⟩ := enqueue_same hfull hnew found time
        have hbefore := (pruneEvents_tightens inner.policy hlater sys.state).ready hpruned (hsame ▸ hready)
        exact h.covered pending time ⟨⟨id, hfound⟩, hlive, hlater, hearly, hbefore, hqueue ▸ hcoalesced⟩

theorem Sys.Watched.next (h : sys.Watched inner) (howned : sys.Owned) {action : Action}
    (henabled : sys.Enabled inner action) (htimely : timely inner sys action) :
    (sys.next inner action).Watched inner := by
  obtain ⟨hbounded, hwakes⟩ := htimely
  have ended : ∀ c call, Phase.live call.phase = false → ∀ other,
      (sys.update c call).calls other = sys.calls other ∨
        ((sys.update c call).calls other).phase.live = false := by
    intro c call hover other
    unfold Sys.update
    dsimp only
    by_cases heq : other = c
    · rw [if_pos heq]
      exact .inr hover
    · rw [if_neg heq]
      exact .inl rfl
  cases action with
  | tick elapsed => exact h.same rfl (Nat.le_add_right _ _) rfl
  | bypass | dropPermit | settle | cancelSettle => exact h.same rfl (Nat.le_refl _) rfl
  | enqueue request started => exact h.queue hbounded _ _
  | read c =>
    have hphase : (sys.calls c).phase = .top := henabled
    refine h.moveTo (by rw [hphase]; rfl) (fun now heq => ?_) (fun _ _ _ _ _ => trivial)
    cases heq
    exact Nat.le_refl _
  | pass c now closed => exact h.pass howned hbounded henabled closed
  | receive c outcome =>
    have hover := ended c { sys.calls c with channel := none, phase := .returned outcome } rfl
    cases outcome <;> exact h.ended rfl (Nat.le_refl _) hover
  | poll c now sleepFor =>
    have hphase : (sys.calls c).phase = .passed now sleepFor := henabled.1
    exact h.moveTo (by rw [hphase]; rfl) (fun _ heq => nomatch heq) (fun _ _ _ _ hcovered => by
      rwa [hphase] at hcovered)
  | check c now sleepFor =>
    have hphase : (sys.calls c).phase = .checking now sleepFor := henabled
    change (sys.moveTo c (sys.afterCheck inner c now sleepFor)).Watched inner
    unfold Sys.afterCheck
    split
    · exact h.moveTo (by rw [hphase]; rfl) (fun _ heq => nomatch heq) (fun _ _ _ _ _ => trivial)
    · split
      · exact h.moveTo (by rw [hphase]; rfl) (fun _ heq => nomatch heq) (fun _ _ _ _ _ => trivial)
      · exact h.moveTo (by rw [hphase]; rfl) (fun _ heq => nomatch heq) (fun _ _ _ _ hcovered => by
          rwa [hphase] at hcovered)
  | arm c now sleepFor =>
    have hphase : (sys.calls c).phase = .arming now sleepFor := henabled
    refine h.moveTo (by rw [hphase]; rfl) (fun _ heq => nomatch heq) (fun pending time hdue hsender hcovered => ?_)
    rw [hphase] at hcovered
    exact hwakes pending time hdue hsender hcovered
  | wake c timer =>
    have hphase : (sys.calls c).phase = .suspended timer := henabled.1
    exact h.moveTo (by rw [hphase]; rfl) (fun _ heq => nomatch heq) (fun _ _ _ _ _ => trivial)
  | expire c =>
    have hphase : (sys.calls c).phase = .expiring := henabled
    have hentered : (sys.enter inner (fun _ _ _ => true) sys.clock (.expire (sys.calls c).id)).Watched
        inner := h.hastensNone rfl (fun _ => rfl)
      (howned.enter_hastensNone hbounded (Nat.le_refl _) rfl rfl (fun _ _ _ => true))
    refine hentered.moveTo ?_ (fun _ heq => nomatch heq) (fun _ _ _ _ _ => trivial)
    change (sys.calls c).phase.live = true
    rw [hphase]
    rfl
  | cancel c => exact h.ended rfl (Nat.le_refl _) (ended c { sys.calls c with phase := .closing none } rfl)
  | close c reply =>
    exact h.ended rfl (Nat.le_refl _) (ended c { sys.calls c with channel := none, phase := .closed reply } rfl)
  | finish settlement closed | cleanLease id closed => exact h.hastensNone rfl (fun _ => rfl) hwakes
  | cleanPending id closed =>
    have hentered := @Sys.Owned.enter_hastensNone inner sys sys.clock howned hbounded (Nat.le_refl _)
      (.dropPending id) rfl rfl closed
    exact h.hastensNone rfl (fun _ => rfl) fun pending time hdue => hentered pending time
      ⟨hdue.queued, hdue.live, hdue.later, hdue.early, hdue.ready, hdue.coalesced⟩

/-- No wakeup is lost in a run of timely steps: when every unfinished call sleeps, one of them wakes by
the first instant at which a waiting request may be sent. -/
theorem no_lost_wakeup (hrun : (scheduler inner).Run (timely inner) sys) (hissued : sys.issued < 2 ^ 64) :
    sys.WakesUp inner := by
  have hwatched : sys.Watched inner := by
    induction hrun with
    | initial => exact ⟨fun _ _ h => (nomatch h), fun _ _ hdue => Bool.noConfusion hdue.live⟩
    | step action run henabled htimely ih =>
      have hbefore := Nat.lt_of_le_of_lt (Sys.issued_le inner _ action) hissued
      exact (ih hbefore).next (Sys.owned run hbefore) henabled htimely
  intro hasleep pending time hdue
  obtain ⟨timer, hphase⟩ := hasleep pending.sender hdue.live
  have hcovered := hwatched.covered pending time hdue
  rw [hphase] at hcovered
  exact ⟨pending.sender, timer, hphase, hcovered⟩

section Witness

private def oneByOne : Inner := .plain
  { enabled := true, queueCoalesceMs := 0
    limits := [{ windowSeconds := 1, maxRps := some 1, maxConcurrency := some 1 }] }

private def coalescing : Inner := .plain { oneByOne.policy with queueCoalesceMs := 2 }

private def asker : ScheduleRequest := .plain "openai" "key" "gpt"

/-- A call queues its request and goes to sleep. -/
private def fallAsleep (c now sleepFor : Nat) : List Action :=
  [.enqueue asker now, .read c, .pass c now undisturbed, .poll c now sleepFor, .check c now sleepFor,
    .arm c now sleepFor]

private def napping : Sys := (scheduler coalescing).replay .initial (fallAsleep 0 0 (fromMillis 2))

/-- A call that waits for the queue to coalesce sleeps just as long. -/
theorem no_lost_wakeup_coalescing :
    (napping.calls 0).phase = .suspended (fromMillis 2) ∧ napping.WakesUp coalescing := by
  have hbounded : ∀ {s : State}, decide ((s.events.map UsageEvent.inputTokens).sum +
      (s.pending.entries.map (fun entry => entry.2.inputTokens)).sum < 2 ^ 64 ∧
      (s.events.map UsageEvent.outputTokens).sum +
        (s.pending.entries.map (fun entry => entry.2.outputTokens)).sum < 2 ^ 64) = true → s.Bounded :=
    fun h => ⟨(of_decide_eq_true h).1, (of_decide_eq_true h).2⟩
  have hrun : (scheduler coalescing).Run (timely coalescing) napping :=
    Machine.Run.replay .initial
      ⟨by decide, ⟨hbounded rfl, trivial⟩, by decide, ⟨hbounded rfl, trivial⟩, by decide,
        ⟨hbounded rfl, trivial⟩, by decide, ⟨hbounded rfl, trivial⟩, by decide, ⟨hbounded rfl, trivial⟩,
        by decide +kernel, ⟨hbounded rfl, fun _ _ _ _ hle => hle⟩, trivial⟩
  exact ⟨by decide, no_lost_wakeup hrun (by decide)⟩

private def permitFor (id waited : Nat) : SchedulePermit :=
  { reservationId := some id, provider := "openai", authScope := "key", model := "gpt", sessionId := none
    interaction := .unknown, inputTokens := 0, outputTokens := 16384, waited }

private def completed (id waited now : Nat) : List Action :=
  let settlement : Settlement := .complete (permitFor id waited) now none none none
  [.settle settlement, .finish settlement undisturbed]

/-- Two calls sleep up to their deadlines behind a request in flight; completions let the first
through at 3 s and leave the second, due at 4 s, behind. -/
private def overslept : List Action :=
  [.enqueue asker 0, .read 0, .pass 0 0 undisturbed, .receive 0 (.dispatch (permitFor 0 0)),
    .tick (fromSecs 2)] ++ fallAsleep 1 (fromSecs 2) (fromSecs 30) ++
  fallAsleep 2 (fromSecs 2) (fromSecs 30) ++ [.tick (fromSecs 1)] ++ completed 0 0 (fromSecs 3) ++
  [.receive 1 (.dispatch (permitFor 1 (fromSecs 1))), .tick (fromMillis 500)] ++
  completed 1 (fromSecs 1) (fromMillis 3500)

private def oversleeper : Sys := (scheduler oneByOne).replay .initial overslept

private theorem oversleeper_calls : ∀ c, (oversleeper.calls c).phase.live = true →
    (oversleeper.calls c).phase = .suspended (fromSecs 32)
  | 0 | 1 | 2 => by decide +kernel
  | _ + 3 => fun hlive => Bool.noConfusion hlive

private def sleeper : Pending :=
  { request := prepare oneByOne asker, enqueuedAt := fromSecs 2, inputTokens := 0, outputTokens := 16384
    bytes := 0, sender := 2 }

/-- The last call sleeps until 32 s although its request may be sent at 4 s. -/
theorem completion_leaves_sleeper : oneByOne.policy.validate = .ok () ∧
    (scheduler oneByOne).Run (fun _ _ => True) oversleeper ∧ ¬ oversleeper.WakesUp oneByOne := by
  refine ⟨rfl, Machine.Run.replay .initial (by decide +kernel), fun hwakes => ?_⟩
  have hdue : oversleeper.Due oneByOne sleeper (fromSecs 4) :=
    ⟨⟨2, by decide +kernel⟩, by decide +kernel, by decide +kernel, by decide +kernel, by decide +kernel,
      by decide +kernel⟩
  obtain ⟨c, timer, hphase, hle⟩ := hwakes (fun c hlive => ⟨_, oversleeper_calls c hlive⟩) sleeper _ hdue
  have hlate := hphase.symm.trans (oversleeper_calls c (by rw [hphase]; rfl))
  cases hlate
  exact absurd hle (by decide)

end Witness

end Kaiion.Scheduling

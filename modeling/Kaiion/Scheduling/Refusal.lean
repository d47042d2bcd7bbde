import Kaiion.Scheduling.QueueAccounting
import Kaiion.Scheduling.Readiness
import Kaiion.Scheduling.Selection

/-! Whether a request can ever be sent depends on its size alone, and decides what its call is told. -/
namespace Kaiion.Scheduling
open Foundation

variable {inner : Inner} {closed : Closings} {now : Nat} {s : State}

/-- The limit lets the request pass in no window, not even in an empty one. -/
def QuotaLimit.excludes (limit : QuotaLimit) (request : ScheduleRequest) (inputTokens outputTokens : Nat) : Bool :=
  ruleMatches limit request &&
    (limit.maxInputTokens.any (fun cap => cap < inputTokens) ||
      limit.maxOutputTokens.any (fun cap => cap < outputTokens) ||
      limit.maxTotalTokens.any (fun cap => cap < satAdd inputTokens outputTokens) ||
      !capFit limit inputTokens outputTokens 0 0 0)

/-- Some limit never lets a request of this size pass. -/
def excluded (policy : SchedulingPolicy) (request : ScheduleRequest) (inputTokens outputTokens : Nat) : Bool :=
  policy.enabled && policy.limits.any (fun limit => limit.excludes request inputTokens outputTokens)

section Size
variable {limit : QuotaLimit} {request : ScheduleRequest} {inputTokens outputTokens : Nat}

/-- When everything was released, nothing is left, whatever the wrapped sums were. -/
private theorem releaseFit_impossible {active : List (Nat × Nat × Nat)} {reqs input output : Nat}
    (hreqs : reqs ≤ active.length) (hinput : input ≤ (active.map (fun entry => entry.2.1)).sum)
    (houtput : output ≤ (active.map (fun entry => entry.2.2)).sum)
    (hfull : capFit limit inputTokens outputTokens reqs input output = false) :
    (releaseFit (capFit limit inputTokens outputTokens) active reqs input output).impossible =
      !capFit limit inputTokens outputTokens 0 0 0 := by
  induction active generalizing reqs input output with
  | nil =>
    obtain ⟨rfl, rfl, rfl⟩ : reqs = 0 ∧ input = 0 ∧ output = 0 :=
      ⟨Nat.le_zero.mp hreqs, Nat.le_zero.mp hinput, Nat.le_zero.mp houtput⟩
    rw [hfull]
    rfl
  | cons entry rest ih =>
    obtain ⟨expiresAt, eventInput, eventOutput⟩ := entry
    rw [List.length_cons] at hreqs
    rw [List.map_cons, List.sum_cons] at hinput houtput
    dsimp only at hinput houtput
    unfold releaseFit
    cases hfits : capFit limit inputTokens outputTokens (reqs - 1) (input - eventInput) (output - eventOutput) with
    | true =>
      have hempty := capFit_mono (Nat.zero_le _) (Nat.zero_le _) (Nat.zero_le _) hfits
      rw [hempty]
      rfl
    | false => exact ih (by omega) (by omega) (by omega) hfits

theorem rollingFit_excluded (events : List UsageEvent) :
    (rollingFit limit events inputTokens outputTokens now).impossible =
      !capFit limit inputTokens outputTokens 0 0 0 := by
  unfold rollingFit
  split
  next huncapped =>
    simp only [Bool.and_eq_true, Option.isNone_iff_eq_none] at huncapped
    obtain ⟨⟨⟨hreqs, hinput⟩, houtput⟩, htotal⟩ := huncapped
    simp [capFit, hreqs, hinput, houtput, htotal]
  · dsimp only
    split
    next hfits =>
      have hempty := capFit_mono (Nat.zero_le _) (Nat.zero_le _) (Nat.zero_le _) hfits
      rw [hempty]
      rfl
    next hfull =>
      exact releaseFit_impossible (Nat.le_refl _) (Nat.mod_le _ _) (Nat.mod_le _ _) (Bool.eq_false_iff.mpr hfull)

private theorem quotaReadiness_excluded (s : State) (now : Nat) (limits : List (QuotaLimit × Nat)) (ready : Nat) :
    match quotaReadiness s request inputTokens outputTokens now limits ready with
    | .error fit => fit.impossible = true ∧
        limits.any (fun entry => entry.1.excludes request inputTokens outputTokens) = true
    | .ok _ => limits.any (fun entry => entry.1.excludes request inputTokens outputTokens) = false := by
  induction limits generalizing ready with
  | nil => rfl
  | cons entry limits ih =>
    obtain ⟨limit, index⟩ := entry
    rw [List.any_cons]
    unfold quotaReadiness
    cases hmatches : ruleMatches limit request with
    | false =>
      have hpasses : limit.excludes request inputTokens outputTokens = false := by
        rw [QuotaLimit.excludes, hmatches, Bool.false_and]
      rw [hpasses, Bool.false_or, Bool.not_false, if_pos rfl]
      exact ih ready
    | true =>
      rw [Bool.not_true, if_neg Bool.false_ne_true]
      cases hsize : (limit.maxInputTokens.any (fun cap => cap < inputTokens) ||
          limit.maxOutputTokens.any (fun cap => cap < outputTokens) ||
          limit.maxTotalTokens.any (fun cap => cap < satAdd inputTokens outputTokens)) with
      | true =>
        rw [if_pos rfl]
        exact ⟨rfl, by rw [QuotaLimit.excludes, hmatches, hsize]; rfl⟩
      | false =>
        have hrolling := @rollingFit_excluded now limit inputTokens outputTokens
          (s.events.filter (fun event => eventMatches limit request event now))
        have hexcludes : limit.excludes request inputTokens outputTokens =
            !capFit limit inputTokens outputTokens 0 0 0 := by
          rw [QuotaLimit.excludes, hmatches, hsize, Bool.true_and, Bool.false_or]
        rw [if_neg Bool.false_ne_true, hexcludes]
        dsimp only
        cases himpossible : (rollingFit limit (s.events.filter (fun event => eventMatches limit request event now))
            inputTokens outputTokens now).impossible with
        | true =>
          rw [if_pos rfl, ← hrolling, himpossible]
          exact ⟨himpossible, rfl⟩
        | false =>
          rw [if_neg Bool.false_ne_true, ← hrolling, himpossible, Bool.false_or]
          exact ih _

/-- Whether a request fits at all is a matter of its size and of the limits, in every state and at any time. -/
theorem readiness_excluded (s : State) (now : Nat) :
    (readiness inner.policy s request inputTokens outputTokens now).impossible =
      excluded inner.policy request inputTokens outputTokens := by
  have hlimits := @quotaReadiness_excluded request inputTokens outputTokens s now inner.policy.limits.zipIdx now
  have hany : inner.policy.limits.zipIdx.any (fun entry => entry.1.excludes request inputTokens outputTokens) =
      inner.policy.limits.any (fun limit => limit.excludes request inputTokens outputTokens) := by
    conv_rhs => rw [← List.zipIdx_map_fst 0 inner.policy.limits, List.any_map]
    rfl
  unfold readiness excluded
  cases inner.policy.enabled with
  | false => rfl
  | true =>
    rw [hany] at hlimits
    simp only [Bool.not_true, Bool.false_eq_true, if_false, Bool.true_and]
    split
    next fit hfit =>
      rw [hfit] at hlimits
      rw [hlimits.1, hlimits.2]
    next ready hready =>
      rw [hready] at hlimits
      rw [hlimits]
      split <;> rfl

end Size

def ScheduleOutcome.grants : ScheduleOutcome → Bool
  | .dispatch _ => true
  | .recommendBatch _ _ | .retryExhausted _ _ => false

def Pending.excluded (policy : SchedulingPolicy) (pending : Pending) : Bool :=
  Scheduling.excluded policy pending.request pending.inputTokens pending.outputTokens

theorem Pending.fit_excluded (pending : Pending) (s : State) (now : Nat) :
    (pending.fit inner s now).impossible = pending.excluded inner.policy := readiness_excluded s now

/-- What a queued request deserves to be told: a permit if it can fit at all, and another outcome if not. -/
def Deserved (inner : Inner) (s : State) (message : Nat × ScheduleOutcome) : Prop :=
  ∃ id pending, s.pending.lookup id = some pending ∧ pending.sender = message.1 ∧
    message.2.grants = !pending.excluded inner.policy

theorem Deserved.earlier {t : State} {message : Nat × ScheduleOutcome} (h : Deserved inner t message)
    (hsub : t.pending.entries.Sublist s.pending.entries) : Deserved inner s message := by
  obtain ⟨id, pending, found, hsender, hgrants⟩ := h
  exact ⟨id, pending, lookup_of_sublist hsub found, hsender, hgrants⟩

/-- What the second loop of a pass sends. -/
private theorem rejectPending_mem {ids : List Nat} {message : Nat × ScheduleOutcome}
    (h : message ∈ (rejectPending inner closed now ids s).2) :
    ∃ id ∈ ids, ∃ pending, s.pending.lookup id = some pending ∧ pending.sender = message.1 ∧
      message.2.grants = false := by
  induction ids generalizing s with
  | nil => exact absurd h List.not_mem_nil
  | cons id ids ih =>
    unfold rejectPending at h
    split at h
    · obtain ⟨other, hother, hrest⟩ := ih h
      exact ⟨other, List.mem_cons_of_mem _ hother, hrest⟩
    next pending found =>
      have later : message ∈ (rejectPending inner closed now ids (s.removePending id)).2 →
          ∃ other ∈ id :: ids, ∃ pending, s.pending.lookup other = some pending ∧
            pending.sender = message.1 ∧ message.2.grants = false := by
        intro hmem
        obtain ⟨other, hother, left, hleft, hrest⟩ := ih hmem
        rw [removePending_pending] at hleft
        exact ⟨other, List.mem_cons_of_mem _ hother, left, lookup_of_sublist (erase_entries_sublist id _) hleft, hrest⟩
      dsimp only at h
      split at h
      · exact later h
      · rcases List.mem_cons.mp h with rfl | h
        · refine ⟨id, List.mem_cons_self, pending, found, rfl, ?_⟩
          unfold rejection
          split <;> rfl
        · exact later h

/-- A pass sends rejections first, and then at most one permit. -/
private theorem dispatchReady_mem {message : Nat × ScheduleOutcome}
    (h : message ∈ (dispatchReady inner closed now s).sent) :
    message ∈ (rejectPending inner closed now (s.scan inner closed now).impossible s).2 ∨
      ∃ permit, message.2 = .dispatch permit := by
  unfold dispatchReady at h
  dsimp only at h
  split at h
  · split at h
    · unfold dispatchBest at h
      dsimp only at h
      split at h
      · split at h <;> exact .inl h
      · split at h
        · exact .inl h
        · rcases List.mem_append.mp h with h | h
          · exact .inl h
          · exact .inr ⟨_, congrArg Prod.snd (List.mem_singleton.mp h)⟩
    · exact .inl h
  · split at h <;> exact .inl h

/-- A pass sends whoever still listens what its request deserves. -/
private theorem dispatchReady_deserved {message : Nat × ScheduleOutcome} (hopen : closed .scan message.1 = false)
    (h : message ∈ (dispatchReady inner closed now s).sent) : Deserved inner s message := by
  rcases dispatchReady_mem h with hrejected | ⟨permit, hpermit⟩
  · obtain ⟨id, hid, pending, found, hsender, hgrants⟩ := rejectPending_mem hrejected
    refine ⟨id, pending, found, hsender, ?_⟩
    rw [scan_eq] at hid
    obtain ⟨entry, hentry, rfl⟩ := List.mem_map.mp hid
    obtain ⟨hmem, hreason⟩ := List.mem_filter.mp hentry
    cases found.symm.trans (AList.mem_lookup_iff.mpr hmem)
    rw [rejected, hsender, hopen, Bool.false_or, Pending.fit_excluded] at hreason
    rw [hgrants, hreason]
    rfl
  · obtain ⟨sender, outcome⟩ := message
    dsimp only at hpermit
    subst hpermit
    obtain ⟨id, pending, found, hready, rfl, -, -⟩ := dispatchReady_sent h
    refine ⟨id, pending, found, rfl, ?_⟩
    rw [Pending.readyAt, Fit.readyBy, Pending.fit_excluded, Bool.and_eq_true] at hready
    rw [hready.1]
    rfl

private theorem dispatchAvailable_deserved {closed : Nat → Closings} {message : Nat × ScheduleOutcome}
    (hopen : ∀ turn check, closed turn check message.1 = false)
    (h : message ∈ (dispatchAvailable inner closed now s).sent) : Deserved inner s message := by
  have loop : ∀ fuel s, message ∈ (dispatchLoop inner closed now fuel s).sent → Deserved inner s message := by
    intro fuel
    induction fuel with
    | zero => exact fun s h => absurd h List.not_mem_nil
    | succ fuel ih =>
      intro s h
      unfold dispatchLoop at h
      dsimp only at h
      split at h
      · rcases List.mem_append.mp h with h | h
        · exact dispatchReady_deserved (hopen fuel .scan) h
        · have hmoves := @dispatchReady_moves inner (closed fuel) (fun _ => True) (fun _ _ => trivial) now s
          exact (ih _ h).earlier hmoves.sublist
      · exact dispatchReady_deserved (hopen fuel .scan) h
  exact loop _ s h

/-- So does every section. -/
theorem Section.deserved {closed : Nat → Closings} {work : Section} {message : Nat × ScheduleOutcome}
    (hopen : ∀ turn check, closed turn check message.1 = false)
    (h : message ∈ (work.run inner closed now s).sent) : Deserved inner s message := by
  have hsub := work.opened_pending inner now s
  cases work with
  | enqueue | expire => exact absurd h List.not_mem_nil
  | pass id request =>
    unfold Section.run at h
    dsimp only at h
    split at h
    · exact absurd h List.not_mem_nil
    · exact (dispatchReady_deserved (hopen 0 .scan) h).earlier hsub
  | dropLease id =>
    unfold Section.run at h
    dsimp only at h
    split at h
    · exact (dispatchAvailable_deserved hopen h).earlier hsub
    · exact absurd h List.not_mem_nil
  | complete | abort | dropPending => exact (dispatchAvailable_deserved hopen h).earlier hsub

section Calls
variable {sys : Sys} {action : Action} {c : Nat}

def ScheduleRequest.excluded (policy : SchedulingPolicy) (request : ScheduleRequest) : Bool :=
  Scheduling.excluded policy request request.inputTokens request.outputTokens

/-- The queue's entries have the sizes of their calls' requests, and a live call holds what its request deserves. -/
structure Sys.Honest (inner : Inner) (sys : Sys) : Prop where
  queued : ∀ id pending, sys.state.pending.lookup id = some pending →
    pending.excluded inner.policy = (sys.calls pending.sender).request.excluded inner.policy
  sent : ∀ c outcome, (sys.calls c).phase.live = true → (sys.calls c).channel = some outcome →
    outcome.grants = !(sys.calls c).request.excluded inner.policy

private theorem Sys.sends_deserved {outcome : ScheduleOutcome} (hlive : (sys.calls c).phase.live = true)
    (h : (c, outcome) ∈ sys.sends inner action) : Deserved inner sys.state (c, outcome) := by
  have hopen : ∀ (closed : Nat → Closings) turn check, sys.closings closed turn check c = false := by
    intro closed turn check
    simp [Sys.closings, hlive]
  unfold Sys.sends at h
  split at h
  case h_5 => exact absurd h List.not_mem_nil
  all_goals exact Section.deserved (hopen _) h

/-- What becomes of a call in a step: it keeps its request, is not revived, and its channel holds what
it held or what the step sent. -/
private structure Sys.Becomes (inner : Inner) (sys : Sys) (action : Action) (c : Nat) (call : Call) : Prop where
  request : call.request = (sys.calls c).request
  live : call.phase.live = true → (sys.calls c).phase.live = true
  channel : call.channel = none ∨ call.channel = ((sys.sends inner action).lookup c).or (sys.calls c).channel

private theorem Sys.becomes_same (hsilent : sys.sends inner action = []) (c : Nat) :
    sys.Becomes inner action c (sys.calls c) :=
  ⟨rfl, id, .inr (by rw [hsilent]; rfl)⟩

private theorem Sys.becomes_moved (hsilent : sys.sends inner action = []) {other : Nat} {phase : Phase}
    (hlive : (sys.calls other).phase.live = true) (c : Nat) :
    sys.Becomes inner action c ((sys.moveTo other phase).calls c) := by
  change sys.Becomes inner action c (if c = other then _ else _)
  split
  next heq =>
    subst heq
    exact ⟨rfl, fun _ => hlive, .inr (by rw [hsilent]; rfl)⟩
  · exact Sys.becomes_same hsilent c

private theorem Sys.becomes_over (hsilent : sys.sends inner action = []) {other : Nat} {phase : Phase}
    (hover : phase.live = false) (c : Nat) :
    sys.Becomes inner action c ((sys.update other { sys.calls other with channel := none, phase }).calls c) := by
  change sys.Becomes inner action c (if c = other then _ else _)
  split
  next heq =>
    subst heq
    exact ⟨rfl, fun h => absurd h (Bool.eq_false_iff.mp hover), .inl rfl⟩
  · exact Sys.becomes_same hsilent c

private theorem Sys.becomes_next (henabled : sys.Enabled inner action)
    (hqueues : ∀ request started, action ≠ .enqueue request started) (c : Nat) :
    sys.Becomes inner action c ((sys.next inner action).calls c) := by
  cases action with
  | enqueue request started => exact absurd rfl (hqueues request started)
  | tick | bypass | dropPermit | settle | cancelSettle => exact Sys.becomes_same rfl c
  | read other | check other now sleepFor | arm other now sleepFor =>
    exact Sys.becomes_moved rfl (by rw [show (sys.calls other).phase = _ from henabled]; rfl) c
  | poll other now sleepFor | wake other timer => exact Sys.becomes_moved rfl (by rw [henabled.1]; rfl) c
  | pass other now closed =>
    change sys.Becomes inner _ c (if c = other then _ else _)
    split
    next heq =>
      subst heq
      exact ⟨rfl, fun _ => by rw [show (sys.calls c).phase = _ from henabled]; rfl, .inr rfl⟩
    · exact ⟨rfl, id, .inr rfl⟩
  | receive other outcome =>
    have hover := @Sys.becomes_over inner sys (.receive other outcome) rfl other (.returned outcome) rfl c
    cases outcome <;> exact hover
  | expire other =>
    change sys.Becomes inner _ c (if c = other then _ else _)
    split
    next heq =>
      subst heq
      exact ⟨rfl, nofun, .inr rfl⟩
    · exact ⟨rfl, id, .inr rfl⟩
  | cancel other =>
    change sys.Becomes inner _ c (if c = other then _ else _)
    split
    next heq =>
      subst heq
      exact ⟨rfl, nofun, .inr rfl⟩
    · exact Sys.becomes_same rfl c
  | close other reply => exact Sys.becomes_over rfl rfl c
  | finish | cleanLease | cleanPending => exact ⟨rfl, id, .inr rfl⟩

/-- A step that queues nothing only takes entries out of the queue. -/
private theorem Sys.next_sublist (hqueues : ∀ request started, action ≠ .enqueue request started) :
    (sys.next inner action).state.pending.entries.Sublist sys.state.pending.entries := by
  rcases sys.next_state inner action with hsame | ⟨closed, now, work, hwork, hstate⟩ | ⟨request, started, heq⟩
  · rw [hsame]
  · have hmoves := @Section.run_moves inner (sys.closings closed) (fun _ => True) (fun _ _ _ => trivial)
      now sys.state work hwork
    rw [hstate]
    exact hmoves.sublist.trans (work.opened_pending inner now sys.state)
  · exact absurd heq (hqueues request started)

private theorem mem_senders {id : Nat} {pending : Pending} (found : s.pending.lookup id = some pending) :
    pending.sender ∈ s.senders :=
  List.mem_map.mpr ⟨⟨id, pending⟩, AList.mem_lookup_iff.mp found, rfl⟩

private theorem Sys.Honest.queue (h : sys.Honest inner) (hwired : sys.Wired) (request : ScheduleRequest)
    (started : Nat) : (sys.queue inner request started).Honest inner := by
  cases hfull : queueFull inner request (pruneEvents inner.policy sys.clock sys.state) with
  | true =>
    rw [Sys.queue_full started hfull]
    exact ⟨h.queued, h.sent⟩
  | false =>
    rw [Sys.queue_room started hfull, enqueue_room hfull]
    refine ⟨fun id pending found => ?_, fun c outcome hlive hchannel => ?_⟩
    · dsimp only at found ⊢
      change _ = (if pending.sender = sys.issued then _ else _ : Call).request.excluded inner.policy
      by_cases hid : id = (pruneEvents inner.policy sys.clock sys.state).nextId
      · rw [hid, AList.lookup_insert] at found
        cases found
        rw [if_pos rfl]
        rfl
      · rw [AList.lookup_insert_ne hid] at found
        have hlt := (hwired.waiting _ (mem_senders found)).1
        rw [if_neg (Nat.ne_of_lt hlt)]
        exact h.queued id pending found
    · change (if c = sys.issued then _ else _ : Call).phase.live = true at hlive
      change (if c = sys.issued then _ else _ : Call).channel = _ at hchannel
      change _ = !(if c = sys.issued then _ else _ : Call).request.excluded inner.policy
      by_cases hc : c = sys.issued
      · rw [if_pos hc] at hchannel
        cases hchannel
      · rw [if_neg hc] at hlive hchannel ⊢
        exact h.sent c outcome hlive hchannel

theorem Sys.Honest.next (h : sys.Honest inner) (hwired : sys.Wired) (henabled : sys.Enabled inner action) :
    (sys.next inner action).Honest inner := by
  by_cases hqueues : ∃ request started, action = .enqueue request started
  · obtain ⟨request, started, rfl⟩ := hqueues
    exact h.queue hwired (prepare inner request) started
  · have hqueues : ∀ request started, action ≠ .enqueue request started :=
      fun request started heq => hqueues ⟨request, started, heq⟩
    have hbecomes := Sys.becomes_next henabled hqueues
    refine ⟨fun id pending found => ?_, fun c outcome hlive hchannel => ?_⟩
    · rw [(hbecomes pending.sender).request]
      exact h.queued id pending (lookup_of_sublist (Sys.next_sublist hqueues) found)
    · obtain ⟨hrequest, hrevived, hheld⟩ := hbecomes c
      have hlive := hrevived hlive
      rw [hrequest]
      rcases hheld with hnone | hheld
      · rw [hnone] at hchannel
        cases hchannel
      · rw [hheld] at hchannel
        cases hlookup : (sys.sends inner action).lookup c with
        | none =>
          rw [hlookup, Option.none_or] at hchannel
          exact h.sent c outcome hlive hchannel
        | some message =>
          rw [hlookup, Option.some_or] at hchannel
          cases hchannel
          obtain ⟨id, pending, found, hsender, hgrants⟩ := Sys.sends_deserved hlive (mem_of_sent_lookup hlookup)
          rw [hgrants, h.queued id pending found, hsender]

/-- A call keeps its request. -/
theorem Sys.next_request (hissued : c < sys.issued) (henabled : sys.Enabled inner action) :
    ((sys.next inner action).calls c).request = (sys.calls c).request := by
  by_cases hqueues : ∃ request started, action = .enqueue request started
  · obtain ⟨request, started, rfl⟩ := hqueues
    change ((sys.queue inner (prepare inner request) started).calls c).request = _
    cases hfull : queueFull inner (prepare inner request) (pruneEvents inner.policy sys.clock sys.state) with
    | true => rw [Sys.queue_full started hfull]
    | false =>
      rw [Sys.queue_room started hfull]
      change (if c = sys.issued then _ else _ : Call).request = _
      rw [if_neg (Nat.ne_of_lt hissued)]
  · exact (Sys.becomes_next henabled (fun request started heq => hqueues ⟨request, started, heq⟩) c).request

/-- In every run, a call that still listens is sent a permit exactly if its request can fit at all. -/
theorem Sys.honest {allowed : Sys → Action → Prop} (h : (scheduler inner).Run allowed sys) : sys.Honest inner := by
  induction h with
  | initial => exact ⟨fun _ _ found => (by cases found), fun _ _ hlive => (nomatch hlive)⟩
  | step action run henabled _ ih => exact ih.next (Sys.wired run) henabled

end Calls
end Kaiion.Scheduling

import Kaiion.Foundation.Ordered
import Kaiion.Scheduling.Moves
import Mathlib.Algebra.Order.BigOperators.Group.List
import Mathlib.Algebra.Order.Group.Nat

/-! What readiness means: a request may be sent at an instant when every limit that selects it has
room for it then. A computed instant is the first such one. -/
namespace Kaiion.Scheduling
open Foundation

variable {limit : QuotaLimit} {request : ScheduleRequest} {inputTokens outputTokens now time : Nat}
variable {s t : State}

/-- The reservations a limit counts against a request at `now`. -/
def counted (limit : QuotaLimit) (request : ScheduleRequest) (now : Nat) (events : List UsageEvent) :
    List UsageEvent :=
  events.filter (fun event => eventMatches limit request event now)

/-- `events` leave room for one more request under every cap of the limit. -/
def fitsAfter (limit : QuotaLimit) (inputTokens outputTokens : Nat) (events : List UsageEvent) : Bool :=
  capFit limit inputTokens outputTokens events.length (sumU64 (events.map UsageEvent.inputTokens))
    (sumU64 (events.map UsageEvent.outputTokens))

theorem satAdd_mono {a a' b : Nat} (h : a' ≤ a) : satAdd a' b ≤ satAdd a b := by
  unfold satAdd
  omega

theorem capFit_mono {reqs reqs' input input' output output' : Nat} (hreqs : reqs' ≤ reqs)
    (hinput : input' ≤ input) (houtput : output' ≤ output)
    (h : capFit limit inputTokens outputTokens reqs input output) :
    capFit limit inputTokens outputTokens reqs' input' output' := by
  have htotal : satAdd (satAdd input' output') (satAdd inputTokens outputTokens) ≤
      satAdd (satAdd input output) (satAdd inputTokens outputTokens) := by
    apply satAdd_mono
    unfold satAdd
    omega
  have hall : ∀ (cap : Option Nat) {a b : Nat}, a ≤ b → cap.all (fun cap => b ≤ cap) = true →
      cap.all (fun cap => a ≤ cap) = true := by
    intro cap a b hab hcap
    cases cap with
    | none => rfl
    | some cap => simpa using Nat.le_trans hab (by simpa using hcap)
  unfold capFit at h ⊢
  simp only [Bool.and_eq_true] at h ⊢
  obtain ⟨⟨⟨hr, hi⟩, ho⟩, ht⟩ := h
  exact ⟨⟨⟨hall _ (satAdd_mono hreqs) hr, hall _ (satAdd_mono hinput) hi⟩,
    hall _ (satAdd_mono houtput) ho⟩, hall _ htotal ht⟩

theorem releaseFit_mem {fits : Nat → Nat → Nat → Bool} {active : List (Nat × Nat × Nat)}
    {reqs input output instant : Nat}
    (h : (releaseFit fits active reqs input output).atTime = some instant) :
    ∃ entry ∈ active, entry.1 = instant := by
  induction active generalizing reqs input output with
  | nil => cases h
  | cons entry rest ih =>
    obtain ⟨expiresAt, eventInput, eventOutput⟩ := entry
    unfold releaseFit at h
    split at h
    · exact ⟨_, List.mem_cons_self, Option.some.inj h⟩
    · obtain ⟨entry, hentry, heq⟩ := ih h
      exact ⟨entry, List.mem_cons_of_mem _ hentry, heq⟩

private theorem releaseFit_atTime {fits : Nat → Nat → Nat → Bool} {active : List (Nat × Nat × Nat)}
    {reqs input output : Nat} (h : (releaseFit fits active reqs input output).impossible = false) :
    (releaseFit fits active reqs input output).atTime.isSome := by
  induction active generalizing reqs input output with
  | nil => cases h
  | cons entry rest ih =>
    obtain ⟨expiresAt, eventInput, eventOutput⟩ := entry
    unfold releaseFit at h ⊢
    split
    · rfl
    next hnot =>
      rw [if_neg hnot] at h
      exact ih h

/-- Where the loop stops, the request fits beside what it has not released. -/
theorem releaseFit_stops {fits : Nat → Nat → Nat → Bool} {active : List (Nat × Nat × Nat)}
    {reqs input output instant : Nat} (hsorted : active.Pairwise (fun a b => a.1 ≤ b.1))
    (h : (releaseFit fits active reqs input output).atTime = some instant) :
    ∃ released left, active = released ++ left ∧ (∀ entry ∈ released, entry.1 ≤ instant) ∧
      fits (reqs - released.length) (input - (released.map (fun entry => entry.2.1)).sum)
        (output - (released.map (fun entry => entry.2.2)).sum) = true := by
  induction active generalizing reqs input output with
  | nil => cases h
  | cons entry rest ih =>
    obtain ⟨hfirst, hrest⟩ := List.pairwise_cons.mp hsorted
    obtain ⟨expiresAt, eventInput, eventOutput⟩ := entry
    unfold releaseFit at h
    split at h
    next hfits =>
      obtain rfl := Option.some.inj h
      exact ⟨[(expiresAt, eventInput, eventOutput)], rest, rfl, by simp, by simpa using hfits⟩
    · obtain ⟨later, hlater, rfl⟩ := releaseFit_mem h
      obtain ⟨released, left, rfl, hle, hfits⟩ := ih hrest h
      refine ⟨(expiresAt, eventInput, eventOutput) :: released, left, rfl, ?_, ?_⟩
      · intro entry hentry
        rcases List.mem_cons.mp hentry with rfl | hentry
        · exact hfirst later hlater
        · exact hle entry hentry
      · simpa only [List.length_cons, List.map_cons, List.sum_cons, Nat.add_comm released.length,
          Nat.sub_add_eq] using hfits

/-- When the request fits once `released` is gone, the loop stops there at the latest. -/
private theorem releaseFit_le {fits : Nat → Nat → Nat → Bool} {released left : List (Nat × Nat × Nat)}
    {reqs input output : Nat} (hle : ∀ entry ∈ released, entry.1 ≤ time) (hne : released ≠ [])
    (hfits : fits (reqs - released.length) (input - (released.map (fun entry => entry.2.1)).sum)
      (output - (released.map (fun entry => entry.2.2)).sum)) :
    ∃ instant, releaseFit fits (released ++ left) reqs input output =
      { atTime := some instant, impossible := false } ∧ instant ≤ time := by
  induction released generalizing reqs input output with
  | nil => exact absurd rfl hne
  | cons entry released ih =>
    obtain ⟨expiresAt, eventInput, eventOutput⟩ := entry
    rw [List.cons_append]
    unfold releaseFit
    split
    next hnow => exact ⟨expiresAt, rfl, hle _ List.mem_cons_self⟩
    next hnot =>
      simp only [List.length_cons, List.map_cons, List.sum_cons, Nat.add_comm released.length,
        Nat.sub_add_eq] at hfits
      refine ih (fun entry hentry => hle entry (List.mem_cons_of_mem _ hentry)) ?_ hfits
      rintro rfl
      exact hnot (by simpa using hfits)

theorem eventMatches_iff (event : UsageEvent) : eventMatches limit request event time = true ↔
    time - event.atTime < fromSecs limit.windowSeconds ∧ event.provider = request.provider ∧
      (limit.authScoped = true → event.authScope = request.authScope) ∧
      limit.model.all (fun model => model = event.model) = true := by
  cases hscoped : limit.authScoped <;> simp [eventMatches, hscoped, and_assoc]

/-- A reservation that counts later counts now; one that counts now stops at its expiry. -/
theorem eventMatches_later (hnow : now ≤ time) (event : UsageEvent) :
    eventMatches limit request event time = true ↔ eventMatches limit request event now = true ∧
      time < event.atTime + fromSecs limit.windowSeconds := by
  rw [eventMatches_iff, eventMatches_iff]
  constructor
  · rintro ⟨htime, hrest⟩
    exact ⟨⟨by omega, hrest⟩, by omega⟩
  · rintro ⟨⟨hnow', hrest⟩, hlt⟩
    exact ⟨by omega, hrest⟩

theorem counted_later (hnow : now ≤ time) (events : List UsageEvent) :
    counted limit request time events = (counted limit request now events).filter
      (fun event => time < event.atTime + fromSecs limit.windowSeconds) := by
  unfold counted
  rw [List.filter_filter]
  apply List.filter_congr
  intro event _
  rw [Bool.eq_iff_iff, eventMatches_later hnow]
  simp [and_comm]

/-- The entry of a reservation in the release order. -/
def release (limit : QuotaLimit) (event : UsageEvent) : Nat × Nat × Nat :=
  (event.atTime + fromSecs limit.windowSeconds, event.inputTokens, event.outputTokens)

theorem releaseOrder_perm (limit : QuotaLimit) (events : List UsageEvent) :
    (releaseOrder limit events).Perm (events.map (release limit)) :=
  List.perm_insertionSort _ _

/-- What leaves the window after `time` are the reservations that count then. -/
theorem releaseOrder_unexpired (limit : QuotaLimit) (events : List UsageEvent) (time : Nat) :
    ((releaseOrder limit events).filter (fun entry => time < entry.1)).Perm
      ((events.filter (fun event => time < event.atTime + fromSecs limit.windowSeconds)).map
        (release limit)) := by
  refine ((releaseOrder_perm limit events).filter _).trans ?_
  rw [List.filter_map]
  rfl

/-- The loop's totals do not depend on the order. -/
theorem capFit_of_perm {order : List (Nat × Nat × Nat)} {events : List UsageEvent}
    (h : order.Perm (events.map (release limit))) :
    capFit limit inputTokens outputTokens order.length (sumU64 (order.map (fun entry => entry.2.1)))
      (sumU64 (order.map (fun entry => entry.2.2))) = fitsAfter limit inputTokens outputTokens events := by
  have hlength : order.length = events.length := by rw [h.length_eq, List.length_map]
  have hinput : (order.map (fun entry => entry.2.1)).sum = (events.map UsageEvent.inputTokens).sum := by
    rw [(h.map _).sum_nat, List.map_map]
    rfl
  have houtput : (order.map (fun entry => entry.2.2)).sum = (events.map UsageEvent.outputTokens).sum := by
    rw [(h.map _).sum_nat, List.map_map]
    rfl
  unfold fitsAfter sumU64
  rw [hlength, hinput, houtput]

/-- A limit without quotas has room for everything. -/
theorem fitsAfter_of_uncapped (h : ((requestCap limit).isNone && limit.maxInputTokens.isNone &&
    limit.maxOutputTokens.isNone && limit.maxTotalTokens.isNone) = true) (events : List UsageEvent) :
    fitsAfter limit inputTokens outputTokens events = true := by
  simp only [Bool.and_eq_true, Option.isNone_iff_eq_none] at h
  obtain ⟨⟨⟨hr, hi⟩, ho⟩, ht⟩ := h
  simp [fitsAfter, capFit, hr, hi, ho, ht]

/-- A request let through now fits beside everything that counts now. -/
theorem rollingFit_sound {events : List UsageEvent} (h : (rollingFit limit
    (counted limit request now events) inputTokens outputTokens now).readyBy now) :
    fitsAfter limit inputTokens outputTokens (counted limit request now events) = true := by
  unfold rollingFit at h
  split at h
  next huncapped => exact fitsAfter_of_uncapped huncapped _
  · dsimp only at h
    split at h
    next hfits => rwa [capFit_of_perm (releaseOrder_perm _ _)] at hfits
    · -- Every counted reservation expires later, so the release loop found a later instant.
      exfalso
      unfold Fit.readyBy at h
      obtain ⟨-, hready⟩ := (Bool.and_eq_true _ _).mp h
      obtain ⟨instant, hinstant, hle⟩ := (Option.any_eq_true _ _).mp hready
      obtain ⟨entry, hentry, rfl⟩ := releaseFit_mem hinstant
      obtain ⟨event, hevent, rfl⟩ := List.mem_map.mp ((releaseOrder_perm _ _).mem_iff.mp hentry)
      have hmatches := (eventMatches_iff event).mp (List.mem_filter.mp hevent).2
      have hle' : event.atTime + fromSecs limit.windowSeconds ≤ now := of_decide_eq_true hle
      omega

/-- What never fits is given no instant. -/
theorem rollingFit_impossible {events : List UsageEvent}
    (h : (rollingFit limit events inputTokens outputTokens now).impossible = true) :
    (rollingFit limit events inputTokens outputTokens now).atTime = none := by
  have released : ∀ (active : List (Nat × Nat × Nat)) (reqs input output : Nat),
      (releaseFit (capFit limit inputTokens outputTokens) active reqs input output).impossible = true →
      (releaseFit (capFit limit inputTokens outputTokens) active reqs input output).atTime = none := by
    intro active
    induction active with
    | nil => exact fun _ _ _ _ => rfl
    | cons entry rest ih =>
      intro reqs input output himpossible
      unfold releaseFit at himpossible ⊢
      split at himpossible
      · cases himpossible
      next hnot =>
        rw [if_neg hnot]
        exact ih _ _ _ himpossible
  unfold rollingFit at h ⊢
  split at h
  · cases h
  next hcapped =>
    rw [if_neg hcapped]
    dsimp only at h ⊢
    split at h
    · cases h
    next hnot =>
      rw [if_neg hnot]
      exact released _ _ _ _ h

theorem rollingFit_atTime {events : List UsageEvent}
    (h : (rollingFit limit events inputTokens outputTokens now).impossible = false) :
    (rollingFit limit events inputTokens outputTokens now).atTime.isSome := by
  unfold rollingFit at h ⊢
  split
  · rfl
  next hcapped =>
    rw [if_neg hcapped] at h
    dsimp only at h ⊢
    split
    · rfl
    next hnot =>
      rw [if_neg hnot] at h
      exact releaseFit_atTime h

private theorem sub_mod_le (a b m : Nat) : (a + b) % m - a ≤ b % m := by
  rcases Nat.eq_zero_or_pos m with rfl | hpos
  · simp
  · have h := Nat.add_mod a b m
    have ha := Nat.mod_le a m
    have hlt := Nat.mod_lt b hpos
    have hle := Nat.mod_le (a % m + b % m) m
    omega

/-- The computed instant is no later than any instant from now on at which the request fits beside what
has not expired by then. -/
theorem rollingFit_le {events : List UsageEvent} (hnow : now ≤ time)
    (h : fitsAfter limit inputTokens outputTokens
      (events.filter (fun event => time < event.atTime + fromSecs limit.windowSeconds)) = true) :
    ∃ instant, rollingFit limit events inputTokens outputTokens now =
      { atTime := some instant, impossible := false } ∧ instant ≤ time := by
  unfold rollingFit
  split
  · exact ⟨now, rfl, hnow⟩
  dsimp only
  split
  · exact ⟨now, rfl, hnow⟩
  next hnot =>
  have hfits := (capFit_of_perm (releaseOrder_unexpired limit events time)).trans h
  have hsorted : (releaseOrder limit events).Pairwise (fun a b => a.1 ≤ b.1) :=
    List.pairwise_insertionSort _ _
  generalize releaseOrder limit events = order at hfits hsorted hnot ⊢
  have hsplit := split_at_key hsorted time
  have hreleased : ∀ entry ∈ order.filter (fun entry => entry.1 ≤ time), entry.1 ≤ time :=
    fun entry hentry => by simpa using (List.mem_filter.mp hentry).2
  generalize order.filter (fun entry => time < entry.1) = left at hsplit hfits
  generalize order.filter (fun entry => entry.1 ≤ time) = released at hsplit hreleased
  subst hsplit
  refine releaseFit_le hreleased ?_ (capFit_mono ?_ ?_ ?_ hfits)
  · rintro rfl
    exact hnot (by simpa using hfits)
  · rw [List.length_append]
    omega
  · rw [List.map_append, sumU64, List.sum_append]
    exact sub_mod_le _ _ _
  · rw [List.map_append, sumU64, List.sum_append]
    exact sub_mod_le _ _ _

/-- It is no later than any instant from now on at which the request fits beside what counts then. -/
theorem rollingFit_first {events : List UsageEvent} (hnow : now ≤ time)
    (h : fitsAfter limit inputTokens outputTokens (counted limit request time events) = true) :
    ∃ instant, rollingFit limit (counted limit request now events) inputTokens outputTokens now =
      { atTime := some instant, impossible := false } ∧ instant ≤ time := by
  rw [counted_later hnow] at h
  exact rollingFit_le hnow h

/-- A limit, in its place in the policy, lets the request through at `time`. -/
structure Room (s : State) (index : Nat) (limit : QuotaLimit) (request : ScheduleRequest)
    (inputTokens outputTokens time : Nat) : Prop where
  size : (limit.maxInputTokens.any (fun cap => cap < inputTokens) ||
    limit.maxOutputTokens.any (fun cap => cap < outputTokens) ||
    limit.maxTotalTokens.any (fun cap => cap < satAdd inputTokens outputTokens)) = false
  rolling : fitsAfter limit inputTokens outputTokens (counted limit request time s.events) = true
  paced : ∀ instant ∈ pacedInstants s index limit request inputTokens outputTokens, instant ≤ time

private theorem foldl_max_le {items : List Nat} {start bound : Nat} :
    items.foldl max start ≤ bound ↔ start ≤ bound ∧ ∀ item ∈ items, item ≤ bound := by
  induction items generalizing start with
  | nil => simp
  | cons item items ih => simp [ih, and_assoc]

private theorem quotaReadiness_sound {limits : List (QuotaLimit × Nat)} {ready result : Nat}
    (h : quotaReadiness s request inputTokens outputTokens now limits ready = .ok result)
    (hle : result ≤ now) :
    ready ≤ now ∧ ∀ entry ∈ limits, ruleMatches entry.1 request = true →
      Room s entry.2 entry.1 request inputTokens outputTokens now := by
  induction limits generalizing ready with
  | nil =>
    cases h
    exact ⟨hle, fun _ h => nomatch h⟩
  | cons entry limits ih =>
    obtain ⟨limit, index⟩ := entry
    unfold quotaReadiness at h
    split at h
    next hskip =>
      obtain ⟨hready, hrest⟩ := ih h
      refine ⟨hready, fun entry hentry hmatches => ?_⟩
      rcases List.mem_cons.mp hentry with rfl | hentry
      · simp [hmatches] at hskip
      · exact hrest entry hentry hmatches
    next hselected =>
      split at h
      · cases h
      next hsize =>
        dsimp only at h
        split at h
        · cases h
        next hpossible =>
          obtain ⟨hready, hrest⟩ := ih h
          obtain ⟨hstart, hinstants⟩ := foldl_max_le.mp hready
          refine ⟨hstart, fun entry hentry hmatches => ?_⟩
          rcases List.mem_cons.mp hentry with rfl | hentry
          · refine ⟨by simpa using hsize, rollingFit_sound ?_, fun instant hinstant =>
              hinstants instant (List.mem_append_right _ hinstant)⟩
            have hpossible' := Bool.eq_false_iff.mpr hpossible
            obtain ⟨instant, hinstant⟩ := Option.isSome_iff_exists.mp (rollingFit_atTime hpossible')
            have hle' := hinstants instant (List.mem_append_left _ (by simp [hinstant]))
            unfold counted
            simp [Fit.readyBy, hpossible', hinstant, hle']
          · exact hrest entry hentry hmatches

private theorem quotaReadiness_error {limits : List (QuotaLimit × Nat)} {ready : Nat} {fit : Fit}
    (h : quotaReadiness s request inputTokens outputTokens now limits ready = .error fit) :
    fit.impossible = true ∧ fit.atTime = none := by
  induction limits generalizing ready with
  | nil => cases h
  | cons entry limits ih =>
    obtain ⟨limit, index⟩ := entry
    unfold quotaReadiness at h
    split at h
    · exact ih h
    · split at h
      · cases h
        exact ⟨rfl, rfl⟩
      · dsimp only at h
        split at h
        next himpossible =>
          cases h
          exact ⟨himpossible, rollingFit_impossible himpossible⟩
        · exact ih h

private theorem quotaReadiness_first {limits : List (QuotaLimit × Nat)} {ready : Nat} (hnow : now ≤ time)
    (hready : ready ≤ time)
    (hroom : ∀ entry ∈ limits, ruleMatches entry.1 request = true →
      Room s entry.2 entry.1 request inputTokens outputTokens time) :
    ∃ result, quotaReadiness s request inputTokens outputTokens now limits ready = .ok result ∧
      result ≤ time := by
  induction limits generalizing ready with
  | nil => exact ⟨ready, rfl, hready⟩
  | cons entry limits ih =>
    obtain ⟨limit, index⟩ := entry
    have hrest := fun entry hentry => hroom entry (List.mem_cons_of_mem _ hentry)
    unfold quotaReadiness
    split
    · exact ih hready hrest
    next hselected =>
      have room := hroom (limit, index) List.mem_cons_self (by simpa using hselected)
      obtain ⟨instant, hfit, hinstant⟩ := rollingFit_first hnow room.rolling
      rw [if_neg (by simpa using room.size)]
      dsimp only
      unfold counted at hfit
      rw [hfit]
      refine ih (foldl_max_le.mpr ⟨hready, fun item hitem => ?_⟩) hrest
      rcases List.mem_append.mp hitem with hitem | hitem
      · simp only [Option.toList_some, List.mem_singleton] at hitem
        omega
      · exact room.paced item hitem

section Policy
variable {inner : Inner} {pending : Pending}

/-- A request that can never be sent is given no instant. -/
theorem fit_of_impossible (h : (pending.fit inner s now).impossible = true) :
    (pending.fit inner s now).atTime = none := by
  unfold Pending.fit readiness at h ⊢
  split at h
  · cases h
  next henabled =>
    rw [if_neg henabled]
    split at h
    next fit hfit => exact (quotaReadiness_error hfit).2
    · split at h <;> cases h

/-- A request may be sent when every limit that selects it has room and no concurrency cap on it
is used up. -/
structure Pending.Clear (inner : Inner) (s : State) (pending : Pending) (time : Nat) : Prop where
  room : ∀ entry ∈ inner.policy.limits.zipIdx, ruleMatches entry.1 pending.request = true →
    Room s entry.2 entry.1 pending.request pending.inputTokens pending.outputTokens time
  free : concurrencyBlocked inner.policy s pending.request = false

theorem clear_of_readyAt (henabled : inner.policy.enabled = true)
    (h : pending.readyAt inner s time = true) : pending.Clear inner s time := by
  unfold Pending.readyAt Pending.fit readiness at h
  rw [henabled] at h
  simp only [Bool.not_true, Bool.false_eq_true, if_false] at h
  split at h
  next fit hfit => simp [Fit.readyBy, (quotaReadiness_error hfit).1] at h
  next ready hready =>
    split at h
    next hblocked =>
      -- A blocked request is only told of an instant that lies ahead.
      unfold Fit.readyBy at h
      split at h
      next hahead => simp at h; omega
      · simp at h
    next hfree =>
      simp only [Fit.readyBy, Bool.not_false, Bool.true_and, Option.any_some, decide_eq_true_eq] at h
      exact ⟨(quotaReadiness_sound hready h).2, by simpa using hfree⟩

/-- A request that may be sent at some instant from now on is given no later instant now. -/
theorem fit_of_clear (h : pending.Clear inner s time) (hnow : now ≤ time) :
    ∃ instant, pending.fit inner s now = { atTime := some instant, impossible := false } ∧
      instant ≤ time := by
  unfold Pending.fit readiness
  split
  · exact ⟨now, rfl, hnow⟩
  · obtain ⟨ready, hready, hle⟩ := quotaReadiness_first hnow hnow h.room
    rw [hready]
    simp only [h.free, Bool.false_eq_true, if_false]
    exact ⟨ready, rfl, hle⟩

/-- What a request that is ready at some instant from now on is told now. -/
theorem fit_of_readyAt (h : pending.readyAt inner s time = true) (hnow : now ≤ time) :
    ∃ instant, pending.fit inner s now = { atTime := some instant, impossible := false } ∧
      instant ≤ time := by
  cases henabled : inner.policy.enabled with
  | true => exact fit_of_clear (clear_of_readyAt henabled h) hnow
  | false => exact ⟨now, by simp [Pending.fit, readiness, henabled], hnow⟩

theorem readyAt_of_clear (h : pending.Clear inner s time) : pending.readyAt inner s time = true := by
  obtain ⟨instant, hfit, hle⟩ := fit_of_clear h (Nat.le_refl time)
  simp [Pending.readyAt, hfit, Fit.readyBy, hle]

/-- A limit's window is no longer than the one pruning goes by. -/
theorem window_le_maxWindow {policy : SchedulingPolicy} {limit : QuotaLimit} (h : limit ∈ policy.limits) :
    fromSecs limit.windowSeconds ≤ maxWindow policy := by
  have hle : ∀ (items : List Nat) (start item : Nat), item ∈ items ∨ item ≤ start →
      item ≤ items.foldl max start := by
    intro items
    induction items with
    | nil => exact fun start item h => h.resolve_left (by simp)
    | cons first items ih =>
      intro start item h
      refine ih (max start first) item ?_
      rcases h with h | h
      · rcases List.mem_cons.mp h with rfl | h
        · exact .inr (Nat.le_max_right _ _)
        · exact .inl h
      · exact .inr (Nat.le_trans h (Nat.le_max_left _ _))
  exact hle _ 0 _ (.inl (List.mem_map.mpr ⟨limit, h, rfl⟩))

theorem sum_le_of_sublist {items others : List Nat} (h : items.Sublist others) : items.sum ≤ others.sum :=
  h.sum_le_sum (fun _ _ => Nat.zero_le _)

end Policy
end Kaiion.Scheduling

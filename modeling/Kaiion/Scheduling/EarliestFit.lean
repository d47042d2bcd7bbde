import Kaiion.Scheduling.RollingQuota
import Mathlib.Order.Bounds.Basic

/-! The instant at which a limit lets a request through is the first one at which what has not expired
leaves room for it. -/
namespace Kaiion.Scheduling
open Foundation

variable {limit : QuotaLimit} {inputTokens outputTokens now time : Nat} {events : List UsageEvent}

/-- The reservations that have not left the window of the limit at `time`. -/
def QuotaLimit.unexpired (limit : QuotaLimit) (events : List UsageEvent) (time : Nat) : List UsageEvent :=
  events.filter (fun event => time < event.atTime + fromSecs limit.windowSeconds)

/-- The instants from `now` on at which the request fits beside the unexpired reservations. -/
def QuotaLimit.admissible (limit : QuotaLimit) (events : List UsageEvent)
    (inputTokens outputTokens now : Nat) : Set Nat :=
  {time | now ≤ time ∧ limit.Admits inputTokens outputTokens (limit.unexpired events time)}

theorem QuotaLimit.unexpired_sublist (limit : QuotaLimit) (events : List UsageEvent) (time : Nat) :
    (limit.unexpired events time).Sublist events :=
  List.filter_sublist

theorem inputSum_mono {fewer events : List UsageEvent} (h : fewer.Sublist events) :
    inputSum fewer ≤ inputSum events :=
  sum_le_of_sublist (h.map _)

theorem outputSum_mono {fewer events : List UsageEvent} (h : fewer.Sublist events) :
    outputSum fewer ≤ outputSum events :=
  sum_le_of_sublist (h.map _)

/-- Fewer reservations leave more room. -/
theorem QuotaLimit.Admits.sublist {fewer : List UsageEvent} (h : limit.Admits inputTokens outputTokens events)
    (hsub : fewer.Sublist events) : limit.Admits inputTokens outputTokens fewer := by
  have hlength := hsub.length_le
  have hinput := inputSum_mono hsub
  have houtput := outputSum_mono hsub
  refine ⟨fun cap hcap => ?_, fun rps hrps => ?_, fun cap hcap => ?_, fun cap hcap => ?_, fun cap hcap => ?_⟩
  · have hle := h.requests cap hcap
    omega
  · have hle := h.rps rps hrps
    omega
  · have hle := h.input cap hcap
    omega
  · have hle := h.output cap hcap
    omega
  · have hle := h.total cap hcap
    omega

/-- At `now` nothing has expired yet. -/
theorem QuotaLimit.unexpired_now (h : ∀ event ∈ events, now < event.atTime + fromSecs limit.windowSeconds) :
    limit.unexpired events now = events :=
  List.filter_eq_self.mpr fun event hevent => decide_eq_true (h event hevent)

/-- In the end everything has expired. -/
theorem QuotaLimit.unexpired_eventually (limit : QuotaLimit) (events : List UsageEvent) (now : Nat) :
    ∃ time, now ≤ time ∧ limit.unexpired events time = [] := by
  refine ⟨now + (events.map (fun event => event.atTime + fromSecs limit.windowSeconds)).sum,
    Nat.le_add_right _ _, List.filter_eq_nil_iff.mpr fun event hevent => ?_⟩
  have hle := List.le_sum_of_mem (List.mem_map_of_mem
    (f := fun event : UsageEvent => event.atTime + fromSecs limit.windowSeconds) hevent)
  simp only [decide_eq_true_eq]
  omega

private theorem sumU64_le_sum (values : List Nat) : sumU64 values ≤ values.sum :=
  Nat.mod_le _ _

private theorem sumU64_eq {values : List Nat} (h : values.sum ≤ maxU64) : sumU64 values = values.sum := by
  unfold maxU64 at h
  exact Nat.mod_eq_of_lt (by omega)

theorem releaseOrder_inputs (limit : QuotaLimit) (events : List UsageEvent) :
    ((releaseOrder limit events).map (fun entry => entry.2.1)).sum = inputSum events := by
  rw [((releaseOrder_perm limit events).map _).sum_nat, List.map_map]
  rfl

theorem releaseOrder_outputs (limit : QuotaLimit) (events : List UsageEvent) :
    ((releaseOrder limit events).map (fun entry => entry.2.2)).sum = outputSum events := by
  rw [((releaseOrder_perm limit events).map _).sum_nat, List.map_map]
  rfl

/-- The loop stops at an instant at which the entries still to be released leave room. -/
private theorem releaseFit_fits {order : List (Nat × Nat × Nat)} {instant : Nat}
    (hsorted : order.Pairwise (fun a b => a.1 ≤ b.1))
    (hinput : (order.map (fun entry => entry.2.1)).sum ≤ maxU64)
    (houtput : (order.map (fun entry => entry.2.2)).sum ≤ maxU64)
    (h : (releaseFit (capFit limit inputTokens outputTokens) order order.length
      (sumU64 (order.map (fun entry => entry.2.1)))
      (sumU64 (order.map (fun entry => entry.2.2)))).atTime = some instant) :
    capFit limit inputTokens outputTokens (order.filter (fun entry => instant < entry.1)).length
      (sumU64 ((order.filter (fun entry => instant < entry.1)).map (fun entry => entry.2.1)))
      (sumU64 ((order.filter (fun entry => instant < entry.1)).map (fun entry => entry.2.2))) = true := by
  obtain ⟨released, left, rfl, hreleased, hfits⟩ := releaseFit_stops hsorted h
  -- Only entries the loop left behind are released after the instant.
  have hnone : released.filter (fun entry => instant < entry.1) = [] := List.filter_eq_nil_iff.mpr
    fun entry hentry => by simpa using hreleased entry hentry
  rw [List.filter_append, hnone, List.nil_append]
  have hsub : (left.filter (fun entry => instant < entry.1)).Sublist left := List.filter_sublist
  rw [sumU64_eq hinput, sumU64_eq houtput, List.length_append, List.map_append, List.map_append,
    List.sum_append, List.sum_append, Nat.add_sub_cancel_left, Nat.add_sub_cancel_left,
    Nat.add_sub_cancel_left] at hfits
  exact capFit_mono hsub.length_le
    (Nat.le_trans (sumU64_le_sum _) (sum_le_of_sublist (hsub.map (fun entry => entry.2.1))))
    (Nat.le_trans (sumU64_le_sum _) (sum_le_of_sublist (hsub.map (fun entry => entry.2.2)))) hfits

/-- At the computed instant the request fits beside what has not expired by then. -/
private theorem rollingFit_fits (hunexpired : ∀ event ∈ events,
      now < event.atTime + fromSecs limit.windowSeconds)
    (hinput : inputSum events ≤ maxU64) (houtput : outputSum events ≤ maxU64) {instant : Nat}
    (h : (rollingFit limit events inputTokens outputTokens now).atTime = some instant) :
    now ≤ instant ∧ fitsAfter limit inputTokens outputTokens (limit.unexpired events instant) = true := by
  have hperm := releaseOrder_perm limit events
  unfold rollingFit at h
  split at h
  next huncapped =>
    obtain rfl := Option.some.inj h
    exact ⟨Nat.le_refl _, fitsAfter_of_uncapped huncapped _⟩
  dsimp only at h
  split at h
  next hfits =>
    obtain rfl := Option.some.inj h
    rw [capFit_of_perm hperm] at hfits
    rw [QuotaLimit.unexpired_now hunexpired]
    exact ⟨Nat.le_refl _, hfits⟩
  constructor
  · obtain ⟨entry, hentry, rfl⟩ := releaseFit_mem h
    obtain ⟨event, hevent, rfl⟩ := List.mem_map.mp (hperm.mem_iff.mp hentry)
    exact Nat.le_of_lt (hunexpired event hevent)
  · have hinputs := releaseOrder_inputs limit events
    have houtputs := releaseOrder_outputs limit events
    have hfits := releaseFit_fits (List.pairwise_insertionSort _ _) (hinputs ▸ hinput) (houtputs ▸ houtput) h
    exact (capFit_of_perm (releaseOrder_unexpired limit events instant)).symm.trans hfits

/-- `rolling_fit` finds the earliest admissible instant. Given the unexpired reservations of a limit of a
validated policy, in any order, no more than a slice can hold and with token totals that fit, it returns
the first instant from now on at which what has not expired by then leaves room for the request under
every cap, and it gives up exactly when the request exceeds a cap on its own. -/
theorem rolling_fit_is_earliest {policy : SchedulingPolicy} (hvalid : policy.validate = .ok ())
    (hlimit : limit ∈ policy.limits) (hlength : events.length ≤ maxI64) (hinput : inputSum events ≤ maxU64)
    (houtput : outputSum events ≤ maxU64)
    (hunexpired : ∀ event ∈ events, now < event.atTime + fromSecs limit.windowSeconds) :
    (limit.Admits inputTokens outputTokens [] →
      ∃ instant, rollingFit limit events inputTokens outputTokens now =
          { atTime := some instant, impossible := false } ∧
        IsLeast (limit.admissible events inputTokens outputTokens now) instant) ∧
    (¬ limit.Admits inputTokens outputTokens [] →
      rollingFit limit events inputTokens outputTokens now = { atTime := none, impossible := true }) := by
  have hlimit' := SchedulingPolicy.validate_limits hvalid limit hlimit
  -- At every instant the check the code makes is the exact one.
  have hexact : ∀ time, fitsAfter limit inputTokens outputTokens (limit.unexpired events time) = true ↔
      limit.Admits inputTokens outputTokens (limit.unexpired events time) := by
    intro time
    have hsub := limit.unexpired_sublist events time
    have hle := hsub.length_le
    have hin := inputSum_mono hsub
    have hout := outputSum_mono hsub
    unfold maxI64 at hlength
    unfold maxU64 at hinput houtput
    exact fitsAfter_iff hlimit' (by omega) (by omega) (by omega)
  have hlater : ∀ time ∈ limit.admissible events inputTokens outputTokens now,
      ∃ instant, rollingFit limit events inputTokens outputTokens now =
        { atTime := some instant, impossible := false } ∧ instant ≤ time := by
    rintro time ⟨hnow, hadmits⟩
    exact rollingFit_le hnow ((hexact time).mpr hadmits)
  have hadmitted : ∀ {instant}, (rollingFit limit events inputTokens outputTokens now).atTime = some instant →
      instant ∈ limit.admissible events inputTokens outputTokens now := by
    intro instant h
    obtain ⟨hnow, hfits⟩ := rollingFit_fits hunexpired hinput houtput h
    exact ⟨hnow, (hexact instant).mp hfits⟩
  constructor
  · intro halone
    obtain ⟨last, hlast, hempty⟩ := limit.unexpired_eventually events now
    obtain ⟨instant, hfit, -⟩ := hlater last ⟨hlast, hempty ▸ halone⟩
    refine ⟨instant, hfit, hadmitted (by rw [hfit]), ?_⟩
    intro time htime
    obtain ⟨other, hother, hle⟩ := hlater time htime
    rw [hfit] at hother
    obtain rfl := Option.some.inj (congrArg Fit.atTime hother)
    exact hle
  · intro hexceeds
    have himpossible : (rollingFit limit events inputTokens outputTokens now).impossible = true := by
      by_contra hpossible
      obtain ⟨instant, hinstant⟩ := Option.isSome_iff_exists.mp
        (rollingFit_atTime (Bool.eq_false_iff.mpr hpossible))
      exact hexceeds ((hadmitted hinstant).2.sublist (List.nil_sublist _))
    have hnone := rollingFit_impossible himpossible
    generalize rollingFit limit events inputTokens outputTokens now = fit at himpossible hnone ⊢
    obtain ⟨atTime, impossible⟩ := fit
    cases himpossible
    cases hnone
    rfl

section Witness

private def hundredOut : QuotaLimit :=
  { windowSeconds := 60, maxRequests := some 3, maxOutputTokens := some 100 }

private def spent (id second outputTokens : Nat) : UsageEvent :=
  { id, atTime := fromSecs second, provider := "openai", authScope := "key", model := "gpt"
    inputTokens := 0, outputTokens }

/-- The older of two reservations is listed last; the request has to wait for it alone. -/
theorem rolling_fit_is_earliest_waits :
    (∃ instant, rollingFit hundredOut [spent 2 5 40, spent 1 3 70] 8 50 (fromSecs 10) =
        { atTime := some instant, impossible := false } ∧
      IsLeast (hundredOut.admissible [spent 2 5 40, spent 1 3 70] 8 50 (fromSecs 10)) instant) ∧
    rollingFit hundredOut [spent 2 5 40, spent 1 3 70] 8 50 (fromSecs 10) =
      { atTime := some (fromSecs 63), impossible := false } := by
  have hvalid : ({ limits := [hundredOut] } : SchedulingPolicy).validate = .ok () := rfl
  have halone : hundredOut.Admits 8 50 [] := by
    constructor <;> simp [hundredOut, inputSum, outputSum]
  exact ⟨(rolling_fit_is_earliest hvalid (List.mem_singleton.mpr rfl) (by decide) (by decide) (by decide)
    (by decide)).1 halone, by decide⟩

end Witness
end Kaiion.Scheduling

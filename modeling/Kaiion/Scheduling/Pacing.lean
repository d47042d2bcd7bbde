import Kaiion.Scheduling.Dispatch

/-! The pacing table: a dispatch only pushes its instants back, and a replay of the ledger restores
the instants of every event in it. -/
namespace Kaiion.Scheduling

variable {inner : Inner} {pacing : PacingKey → Option Nat} {key other : PacingKey} {instant now : Nat}

/-- The table lets nothing through for this key before `instant`. -/
def PacedTo (pacing : PacingKey → Option Nat) (key : PacingKey) (instant : Nat) : Prop :=
  ∃ paced, pacing key = some paced ∧ instant ≤ paced

/-- One item of a fold brings about what no other item undoes. -/
private theorem foldl_reaches {σ α : Type} {f : σ → α → σ} {P : σ → Prop}
    (keeps : ∀ s item, P s → P (f s item)) {item : α} {items : List α} (h : item ∈ items)
    (reaches : ∀ s, P (f s item)) (s : σ) : P (items.foldl f s) := by
  obtain ⟨before, after, rfl⟩ := List.append_of_mem h
  rw [List.foldl_append, List.foldl_cons]
  exact List.foldlRecOn after f (reaches _) (fun s hs item _ => keeps s item hs)

theorem pace_keeps (duration : Nat) (h : PacedTo pacing key instant) :
    PacedTo (pace pacing other now duration) key instant := by
  obtain ⟨paced, hpaced, hle⟩ := h
  unfold PacedTo pace
  by_cases hkey : key = other
  · rw [if_pos hkey, ← hkey, hpaced]
    exact ⟨_, rfl, by rw [Option.getD_some]; omega⟩
  · rw [if_neg hkey]
    exact ⟨paced, hpaced, hle⟩

theorem pace_adds (pacing : PacingKey → Option Nat) (key : PacingKey) (now duration : Nat) :
    PacedTo (pace pacing key now duration) key (now + duration) :=
  ⟨_, if_pos rfl, by omega⟩

variable {index : Nat} {limit : QuotaLimit} {request : ScheduleRequest} {inputTokens outputTokens : Nat}

private theorem paceTokens_keeps (items : List (PaceMetric × Option Nat × Nat))
    (h : PacedTo pacing key instant) :
    PacedTo (items.foldl (fun pacing (metric, cap, tokens) =>
      match cap with
      | some cap => if 0 < tokens then
          pace pacing (pacingKey index limit request.provider request.authScope metric) now
            (inner.durationForTokens tokens limit.windowSeconds cap) else pacing
      | none => pacing) pacing) key instant := by
  refine List.foldlRecOn (motive := fun pacing => PacedTo pacing key instant) items _ h
    fun pacing hpaced item _ => ?_
  obtain ⟨metric, cap, tokens⟩ := item
  cases cap with
  | none => exact hpaced
  | some cap =>
    dsimp only
    split
    · exact pace_keeps _ hpaced
    · exact hpaced

theorem paceLimit_keeps (h : PacedTo pacing key instant) :
    PacedTo (paceLimit inner index limit request inputTokens outputTokens now pacing) key instant := by
  refine paceTokens_keeps _ ?_
  cases limit.maxRps with
  | none => exact h
  | some rps => exact pace_keeps _ h

theorem paceLimit_adds {rps : Nat} (hrps : limit.maxRps = some rps) (pacing : PacingKey → Option Nat) :
    PacedTo (paceLimit inner index limit request inputTokens outputTokens now pacing)
      (pacingKey index limit request.provider request.authScope .requests)
      (now + inner.durationForRate rps) := by
  refine paceTokens_keeps _ ?_
  rw [hrps]
  exact pace_adds _ _ _ _

private theorem paceMatching_keeps (pacing : PacingKey → Option Nat) (entry : QuotaLimit × Nat)
    (h : PacedTo pacing key instant) :
    PacedTo (if ruleMatches entry.1 request then
      paceLimit inner entry.2 entry.1 request inputTokens outputTokens now pacing else pacing) key instant := by
  split
  · exact paceLimit_keeps h
  · exact h

theorem updatePacing_keeps {s : State} (h : PacedTo s.pacing key instant) :
    PacedTo (updatePacing inner request inputTokens outputTokens now s).pacing key instant :=
  List.foldlRecOn (motive := fun pacing => PacedTo pacing key instant) _ _ h
    fun pacing hpaced entry _ => paceMatching_keeps pacing entry hpaced

/-- A dispatch moves its group past the pause that one request costs. -/
theorem updatePacing_adds (hlimit : (limit, index) ∈ inner.policy.limits.zipIdx) {rps : Nat}
    (hrps : limit.maxRps = some rps) (hmatches : ruleMatches limit request = true) (s : State) :
    PacedTo (updatePacing inner request inputTokens outputTokens now s).pacing
      (pacingKey index limit request.provider request.authScope .requests)
      (now + inner.durationForRate rps) := by
  refine foldl_reaches (fun pacing entry => paceMatching_keeps pacing entry) hlimit (fun pacing => ?_) s.pacing
  rw [if_pos hmatches]
  exact paceLimit_adds hrps pacing

/-- A rebuilt table has the pause of every event that is left. -/
theorem rebuildPacing_adds {s : State} {event : UsageEvent} (hevent : event ∈ s.events)
    (hlimit : (limit, index) ∈ inner.policy.limits.zipIdx) {rps : Nat} (hrps : limit.maxRps = some rps)
    (hmatches : ruleMatches limit event.request = true) :
    PacedTo (rebuildPacing inner s).pacing
      (pacingKey index limit event.provider event.authScope .requests)
      (event.atTime + inner.durationForRate rps) := by
  have keeps : ∀ (s : State) (other : UsageEvent),
      PacedTo s.pacing (pacingKey index limit event.provider event.authScope .requests)
        (event.atTime + inner.durationForRate rps) →
      PacedTo (updatePacing inner other.request other.inputTokens other.outputTokens other.atTime s).pacing
        (pacingKey index limit event.provider event.authScope .requests)
        (event.atTime + inner.durationForRate rps) := fun s other h => updatePacing_keeps h
  exact foldl_reaches keeps hevent (fun s => updatePacing_adds hlimit hrps hmatches s) _

end Kaiion.Scheduling

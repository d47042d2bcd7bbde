import Mathlib.Data.List.Basic

/-! Guarded transition systems, the states their runs reach and the invariants of those runs. -/
namespace Kaiion.Foundation

structure Machine (σ α : Type) where
  initial : σ
  enabled : σ → α → Prop
  next : σ → α → σ

namespace Machine
variable {σ α : Type} {m : Machine σ α} {allowed : σ → α → Prop} {s : σ}

/-- The states of the runs all of whose steps are allowed. -/
inductive Run (m : Machine σ α) (allowed : σ → α → Prop) : σ → Prop where
  | initial : Run m allowed m.initial
  | step {s : σ} (a : α) (run : Run m allowed s) (enabled : m.enabled s a) (ok : allowed s a) :
      Run m allowed (m.next s a)

/-- Induction rule, for an assertion about one state. -/
theorem Run.invariant {I : σ → Prop} (h : m.Run allowed s) (initial : I m.initial)
    (step : ∀ s a, I s → m.enabled s a → allowed s a → I (m.next s a)) : I s := by
  induction h with
  | initial => exact initial
  | step a _ enabled ok ih => exact step _ a ih enabled ok

/-- Allowed steps lead from one state to another. -/
inductive Leads (m : Machine σ α) (allowed : σ → α → Prop) (s : σ) : σ → Prop where
  | refl : Leads m allowed s s
  | step {t : σ} (a : α) (first : Leads m allowed s t) (enabled : m.enabled t a) (ok : allowed t a) :
      Leads m allowed s (m.next t a)

theorem Leads.trans {t u : σ} (h : m.Leads allowed s t) (h' : m.Leads allowed t u) : m.Leads allowed s u := by
  induction h' with
  | refl => exact h
  | step a _ enabled ok ih => exact .step a ih enabled ok

theorem Run.leads {t : σ} (h : m.Run allowed s) (hleads : m.Leads allowed s t) : m.Run allowed t := by
  induction hleads with
  | refl => exact h
  | step a _ enabled ok ih => exact .step a ih enabled ok

/-- The machine that also keeps what its steps emit. -/
def recording {β : Type} (m : Machine σ α) (emits : σ → α → List β) : Machine (σ × List β) α :=
  { initial := (m.initial, [])
    enabled := fun s a => m.enabled s.1 a
    next := fun s a => (m.next s.1 a, s.2 ++ emits s.1 a) }

instance recording.decidable {β : Type} (emits : σ → α → List β) [∀ s a, Decidable (m.enabled s a)] :
    ∀ s a, Decidable ((m.recording emits).enabled s a) :=
  fun s a => inferInstanceAs (Decidable (m.enabled s.1 a))

/-- The record changes no run. -/
theorem Run.unrecorded {β : Type} {emits : σ → α → List β} {s : σ × List β}
    (h : (m.recording emits).Run (fun s a => allowed s.1 a) s) : m.Run allowed s.1 := by
  induction h with
  | initial => exact .initial
  | step a _ enabled ok ih => exact .step a ih enabled ok

/-- The state a list of steps leads to. -/
def replay (m : Machine σ α) (s : σ) (steps : List α) : σ := steps.foldl m.next s

/-- Every step of the list is possible and allowed when its turn comes. -/
def Follows (m : Machine σ α) (allowed : σ → α → Prop) : σ → List α → Prop
  | _, [] => True
  | s, a :: steps => m.enabled s a ∧ allowed s a ∧ Follows m allowed (m.next s a) steps

instance Follows.decidable [∀ s a, Decidable (m.enabled s a)] [∀ s a, Decidable (allowed s a)] :
    ∀ (s : σ) (steps : List α), Decidable (m.Follows allowed s steps)
  | _, [] => .isTrue trivial
  | s, a :: steps =>
    have := Follows.decidable (m.next s a) steps
    inferInstanceAs (Decidable (_ ∧ _ ∧ _))

theorem Run.replay {steps : List α} (h : m.Run allowed s) (hsteps : m.Follows allowed s steps) :
    m.Run allowed (m.replay s steps) := by
  induction steps generalizing s with
  | nil => exact h
  | cons a steps ih => exact ih (.step a h hsteps.1 hsteps.2.1) hsteps.2.2

theorem Leads.replay {t : σ} {steps : List α} (h : m.Leads allowed s t) (hsteps : m.Follows allowed t steps) :
    m.Leads allowed s (m.replay t steps) := by
  induction steps generalizing t with
  | nil => exact h
  | cons a steps ih => exact ih (.step a h hsteps.1 hsteps.2.1) hsteps.2.2

end Machine
end Kaiion.Foundation

import Mathlib.Data.List.Basic

/-! Agents that share a state and see a part of it. Where an agent's operations read and write its own
part only, what it observes does not depend on what the others do. -/
namespace Kaiion.Foundation

/-- Operations of agents on a shared state; `admits` is what an agent may do in a state. -/
structure Shared (σ agent op reply : Type) where
  step : agent → op → σ → σ × reply
  admits : agent → op → σ → Prop

variable {σ agent op reply view : Type}

/-- Every operation of the run is admitted where it happens. -/
def Shared.Admissible (m : Shared σ agent op reply) : σ → List (agent × op) → Prop
  | _, [] => True
  | s, (b, o) :: rest => m.admits b o s ∧ m.Admissible (m.step b o s).1 rest

section
variable [DecidableEq agent]

/-- The replies an agent gets in a run. -/
def Shared.observed (m : Shared σ agent op reply) (a : agent) : σ → List (agent × op) → List reply
  | _, [] => []
  | s, (b, o) :: rest =>
    if b = a then (m.step b o s).2 :: m.observed a (m.step b o s).1 rest
    else m.observed a (m.step b o s).1 rest

/-- An agent's part of a run. -/
def operationsOf (a : agent) (run : List (agent × op)) : List (agent × op) := run.filter (fun step => step.1 = a)

/-- The agent's replies and its part of the state depend on its part of the state, which the others
leave alone. -/
structure Shared.Confines (m : Shared σ agent op reply) (inv : σ → Prop) (a : agent) (part : σ → view) : Prop where
  keeps : ∀ b o s, inv s → m.admits b o s → inv (m.step b o s).1
  own : ∀ o s s', inv s → inv s' → m.admits a o s → m.admits a o s' → part s = part s' →
    (m.step a o s).2 = (m.step a o s').2 ∧ part (m.step a o s).1 = part (m.step a o s').1
  others : ∀ b o s, inv s → m.admits b o s → b ≠ a → part (m.step b o s).1 = part s

variable {m : Shared σ agent op reply} {inv : σ → Prop} {a : agent} {part : σ → view}

/-- Operations of others before a run show in nothing the agent observes. -/
theorem Shared.Confines.skip (h : m.Confines inv a part) {s : σ} (others rest : List (agent × op))
    (hothers : ∀ step ∈ others, step.1 ≠ a) (hinv : inv s) (hrun : m.Admissible s (others ++ rest)) :
    ∃ t, inv t ∧ part t = part s ∧ m.Admissible t rest ∧ m.observed a s (others ++ rest) = m.observed a t rest := by
  induction others generalizing s with
  | nil => exact ⟨s, hinv, rfl, hrun, rfl⟩
  | cons step others ih =>
    obtain ⟨b, o⟩ := step
    obtain ⟨hadmits, hrest⟩ := hrun
    have hb : b ≠ a := hothers (b, o) List.mem_cons_self
    obtain ⟨t, ht, hpart, hadmissible, hobserved⟩ :=
      ih (fun step hstep => hothers step (List.mem_cons_of_mem _ hstep)) (h.keeps b o s hinv hadmits) hrest
    refine ⟨t, ht, hpart.trans (h.others b o s hinv hadmits hb), hadmissible, ?_⟩
    rw [← hobserved, List.cons_append, Shared.observed, if_neg hb]

/-- Two runs with the same operations by the agent, from states that show it the same part, give it
the same replies. -/
theorem Shared.Confines.observed_eq (h : m.Confines inv a part) {s s' : σ} (hinv : inv s) (hinv' : inv s')
    (hpart : part s = part s') {run run' : List (agent × op)} (hrun : m.Admissible s run)
    (hrun' : m.Admissible s' run') (hsame : operationsOf a run = operationsOf a run') :
    m.observed a s run = m.observed a s' run' := by
  induction run generalizing s s' run' with
  | nil =>
    have hothers : ∀ step ∈ run', step.1 ≠ a := fun step hstep => by
      simpa using List.filter_eq_nil_iff.mp hsame.symm step hstep
    obtain ⟨t, -, -, -, hobserved⟩ := h.skip run' [] hothers hinv' ((List.append_nil run').symm ▸ hrun')
    rw [List.append_nil] at hobserved
    rw [hobserved]
    rfl
  | cons step run ih =>
    obtain ⟨b, o⟩ := step
    obtain ⟨hadmits, hrest⟩ := hrun
    by_cases hb : b = a
    · subst hb
      have hsplit : operationsOf b run' = (b, o) :: operationsOf b run := by rw [← hsame]; simp [operationsOf]
      obtain ⟨others, rest', rfl, hothers, -, hrest'⟩ := List.filter_eq_cons_iff.mp hsplit
      obtain ⟨t, ht, hpartt, hadmissible, hobserved⟩ := h.skip others ((b, o) :: rest')
        (fun step hstep => by simpa using hothers step hstep) hinv' hrun'
      obtain ⟨hadmits', htail⟩ := hadmissible
      obtain ⟨hreply, hnext⟩ := h.own o s t hinv ht hadmits hadmits' (hpart.trans hpartt.symm)
      rw [hobserved, Shared.observed, Shared.observed, if_pos rfl, if_pos rfl, hreply,
        ih (h.keeps b o s hinv hadmits) (h.keeps b o t ht hadmits') hnext hrest htail hrest'.symm]
    · have hskip : operationsOf a ((b, o) :: run) = operationsOf a run := by simp [operationsOf, hb]
      rw [Shared.observed, if_neg hb]
      exact ih (h.keeps b o s hinv hadmits) hinv' ((h.others b o s hinv hadmits hb).trans hpart) hrest hrun'
        (hskip.symm.trans hsame)

end

end Kaiion.Foundation

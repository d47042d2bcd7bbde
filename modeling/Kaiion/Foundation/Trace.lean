import Kaiion.Foundation.Resumption

/-! The runs of a sequential program as lists of operations with their replies, and monitors that
judge them step by step. -/
namespace Kaiion.Foundation.Prog
variable {Op : Type} {Reply : Op → Type} {α β σ : Type}

/-- An operation with the reply it got. -/
abbrev Event (Reply : Op → Type) := Sigma Reply

/-- The program can perform these operations, each with an allowed reply, and return this value. -/
inductive Runs (allowed : (op : Op) → Reply op → Prop) : Prog Reply α → List (Event Reply) → α → Prop where
  | ret (value : α) : Runs allowed (.ret value) [] value
  | call {op : Op} {next : Reply op → Prog Reply α} {events : List (Event Reply)} {value : α} (reply : Reply op)
      (ok : allowed op reply) (rest : Runs allowed (next reply) events value) :
      Runs allowed (.call op next) (⟨op, reply⟩ :: events) value

theorem Runs.perform {allowed : (op : Op) → Reply op → Prop} (op : Op) {f : Reply op → Prog Reply α}
    {events : List (Event Reply)} {value : α} (reply : Reply op) (ok : allowed op reply)
    (rest : Runs allowed (f reply) events value) :
    Runs allowed (Prog.perform op >>= f) (⟨op, reply⟩ :: events) value := .call reply ok rest

theorem Runs.of_perform {allowed : (op : Op) → Reply op → Prop} {op : Op} {f : Reply op → Prog Reply α}
    {events : List (Event Reply)} {value : α} (h : Runs allowed (Prog.perform op >>= f) events value) :
    ∃ reply rest, events = ⟨op, reply⟩ :: rest ∧ allowed op reply ∧ Runs allowed (f reply) rest value := by
  cases h with
  | call reply ok rest => exact ⟨reply, _, rfl, ok, rest⟩

theorem Runs.of_ret {allowed : (op : Op) → Reply op → Prop} {events : List (Event Reply)} {value result : α}
    (h : Runs allowed (.ret value) events result) : events = [] ∧ result = value := by
  cases h
  exact ⟨rfl, rfl⟩

/-- The monitor accepts every run of the program, and what it returns meets `post` in the monitor's
last state. -/
def Judged (allowed : (op : Op) → Reply op → Prop) (step : σ → Event Reply → Option σ) :
    Prog Reply α → (α → σ → Prop) → σ → Prop
  | ret value, post, s => post value s
  | call op next, post, s => ∀ reply, allowed op reply →
      ∃ s', step s ⟨op, reply⟩ = some s' ∧ Judged allowed step (next reply) post s'

variable {allowed : (op : Op) → Reply op → Prop} {step : σ → Event Reply → Option σ}
  {post post' : α → σ → Prop} {s : σ}

/-- What was judged holds of every run. -/
theorem Judged.run {p : Prog Reply α} {events : List (Event Reply)} {value : α}
    (hrun : Runs allowed p events value) (h : Judged allowed step p post s) :
    ∃ s', events.foldlM step s = some s' ∧ post value s' := by
  induction hrun generalizing s with
  | ret value => exact ⟨s, rfl, h⟩
  | call reply ok _ ih =>
    obtain ⟨t, hstep, hnext⟩ := h reply ok
    obtain ⟨s', hfold, hpost⟩ := ih hnext
    exact ⟨s', by rw [List.foldlM_cons, hstep]; exact hfold, hpost⟩

/-- Sequencing rule. -/
theorem Judged.bind {f : α → Prog Reply β} {goal : β → σ → Prop} {p : Prog Reply α}
    (h : Judged allowed step p (fun value t => Judged allowed step (f value) goal t) s) :
    Judged allowed step (p >>= f) goal s := by
  induction p generalizing s with
  | ret value => exact h
  | call op next ih =>
    intro reply ok
    obtain ⟨t, hstep, hnext⟩ := h reply ok
    exact ⟨t, hstep, ih reply hnext⟩

/-- Call rule. -/
theorem Judged.perform {op : Op} {f : Reply op → Prog Reply α}
    (h : ∀ reply, allowed op reply → ∃ s', step s ⟨op, reply⟩ = some s' ∧ Judged allowed step (f reply) post s') :
    Judged allowed step (Prog.perform op >>= f) post s := h

/-- Call rule for an operation the monitor ignores. -/
theorem Judged.ignore {op : Op} {f : Reply op → Prog Reply α} (hstep : ∀ reply, step s ⟨op, reply⟩ = some s)
    (h : ∀ reply, allowed op reply → Judged allowed step (f reply) post s) :
    Judged allowed step (Prog.perform op >>= f) post s :=
  fun reply ok => ⟨s, hstep reply, h reply ok⟩

end Kaiion.Foundation.Prog

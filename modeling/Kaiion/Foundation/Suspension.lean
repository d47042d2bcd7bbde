import Kaiion.Foundation.Trace

/-! Programs seen in the middle: whoever drives a program may stop at any of its operations, and a loop
that goes on for as long as its turns say so has no end of its own. -/
namespace Kaiion.Foundation.Prog
variable {Op : Type} {Reply : Op → Type} {α β σ : Type}

/-- After these operations the program stands here. -/
inductive Stands (allowed : (op : Op) → Reply op → Prop) : Prog Reply α → List (Event Reply) → Prog Reply α → Prop where
  | here (p : Prog Reply α) : Stands allowed p [] p
  | call {op : Op} {next : Reply op → Prog Reply α} {events : List (Event Reply)} {rest : Prog Reply α}
      (reply : Reply op) (ok : allowed op reply) (later : Stands allowed (next reply) events rest) :
      Stands allowed (.call op next) (⟨op, reply⟩ :: events) rest

/-- The operation the program waits for. -/
def pending : Prog Reply α → Option Op
  | ret _ => none
  | call op _ => some op

/-- After these operations the loop stands here; a turn returns the state of the next one, and no loop
stands between two turns. -/
inductive Loops (allowed : (op : Op) → Reply op → Prop) (turn : σ → Prog Reply (Option σ)) :
    σ → List (Event Reply) → Prog Reply (Option σ) → Prop where
  | within {s : σ} {events : List (Event Reply)} {rest : Prog Reply (Option σ)}
      (stands : Stands allowed (turn s) events rest) (inside : ∀ s', rest ≠ .ret (some s')) :
      Loops allowed turn s events rest
  | again {s s' : σ} {events events' : List (Event Reply)} {rest : Prog Reply (Option σ)}
      (turned : Runs allowed (turn s) events (some s')) (later : Loops allowed turn s' events' rest) :
      Loops allowed turn s (events ++ events') rest

variable {allowed : (op : Op) → Reply op → Prop}

theorem Stands.of_perform {op : Op} {f : Reply op → Prog Reply α} {events : List (Event Reply)} {rest : Prog Reply α}
    (h : Stands allowed (Prog.perform op >>= f) events rest) :
    (events = [] ∧ rest.pending = some op) ∨
      ∃ reply later, events = ⟨op, reply⟩ :: later ∧ allowed op reply ∧ Stands allowed (f reply) later rest := by
  cases h with
  | here => exact .inl ⟨rfl, rfl⟩
  | call reply ok later => exact .inr ⟨reply, _, rfl, ok, later⟩

theorem Stands.of_ret {value : α} {events : List (Event Reply)} {rest : Prog Reply α}
    (h : Stands allowed (.ret value) events rest) : events = [] ∧ rest = .ret value := by
  cases h
  exact ⟨rfl, rfl⟩

/-- Loop rule: what every full turn keeps, of the state and of all that was done so far, is there
wherever the loop stands in its last turn. -/
theorem Loops.keeps {turn : σ → Prog Reply (Option σ)} {I : σ → List (Event Reply) → Prop}
    {Q : List (Event Reply) → Prog Reply (Option σ) → Prop}
    (hturn : ∀ s past events s', I s past → Runs allowed (turn s) events (some s') → I s' (past ++ events))
    (hstands : ∀ s past events rest, I s past → Stands allowed (turn s) events rest → (∀ s', rest ≠ .ret (some s')) →
      Q (past ++ events) rest)
    {s : σ} {past events : List (Event Reply)} {rest : Prog Reply (Option σ)} (hI : I s past)
    (h : Loops allowed turn s events rest) : Q (past ++ events) rest := by
  induction h generalizing past with
  | within stands inside => exact hstands _ past _ _ hI stands inside
  | again turned _ ih =>
    rw [← List.append_assoc]
    exact ih (hturn _ past _ _ hI turned)

end Kaiion.Foundation.Prog

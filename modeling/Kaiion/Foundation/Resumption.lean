import Mathlib.Logic.Relation

/-! Sequential programs as trees of operations, and a rely-guarantee reading of them.
A program names the operation it performs next and continues from whatever reply it receives;
what an operation does to the shared state is fixed by a separate handler. -/
namespace Kaiion.Foundation

/-- A program over operations `Op`, whose operation `op` is answered by a `Reply op`. -/
inductive Prog {Op : Type} (Reply : Op → Type) (α : Type) : Type where
  | ret (value : α)
  | call (op : Op) (next : Reply op → Prog Reply α)

namespace Prog
variable {Op : Type} {Reply : Op → Type} {α β σ : Type}

def bind : Prog Reply α → (α → Prog Reply β) → Prog Reply β
  | ret value, f => f value
  | call op next, f => call op (fun reply => (next reply).bind f)

instance : Monad (Prog Reply) where
  pure := ret
  bind := bind

/-- The program that performs one operation and returns its reply. -/
def perform (op : Op) : Prog Reply (Reply op) := call op ret

/-- `Safe` holds of a program in a state when every step it can take from there, interleaved with
any steps of its environment allowed by `rely`, meets `guarantee`, and every value it returns
meets `post`. -/
def Safe (rely guarantee : σ → σ → Prop) (handle : (op : Op) → σ → Reply op → σ → Prop) :
    Prog Reply α → (α → σ → Prop) → σ → Prop
  | ret value, post, s => ∀ s', rely s s' → post value s'
  | call op next, post, s => ∀ s', rely s s' → ∀ reply s'', handle op s' reply s'' →
      guarantee s' s'' ∧ Safe rely guarantee handle (next reply) post s''

section Rules
variable {rely guarantee : σ → σ → Prop} {handle : (op : Op) → σ → Reply op → σ → Prop}
variable {post : α → σ → Prop} {s s' : σ}

/-- Environment steps never invalidate safety. -/
theorem Safe.of_rely (htrans : ∀ a b c, rely a b → rely b c → rely a c) {p : Prog Reply α}
    (h : Safe rely guarantee handle p post s) (hr : rely s s') :
    Safe rely guarantee handle p post s' := by
  cases p with
  | ret value => exact fun t ht => h t (htrans _ _ _ hr ht)
  | call op next => exact fun t ht => h t (htrans _ _ _ hr ht)

/-- One step of a safe program meets its guarantee and leaves a safe program. -/
theorem Safe.step (hrefl : ∀ a, rely a a) {op : Op} {next : Reply op → Prog Reply α} {reply : Reply op}
    (h : Safe rely guarantee handle (call op next) post s) (hs : handle op s reply s') :
    guarantee s s' ∧ Safe rely guarantee handle (next reply) post s' :=
  h s (hrefl s) reply s' hs

theorem Safe.result (hrefl : ∀ a, rely a a) {value : α}
    (h : Safe rely guarantee handle (ret value) post s) : post value s :=
  h s (hrefl s)

/-- Call rule: a stable precondition, under which every reply meets the guarantee and
leaves a safe rest. -/
theorem Safe.call (P : σ → Prop) (hP : P s) (stable : ∀ a b, P a → rely a b → P b) {op : Op}
    {next : Reply op → Prog Reply α}
    (hnext : ∀ a reply b, P a → handle op a reply b →
      guarantee a b ∧ Safe rely guarantee handle (next reply) post b) :
    Safe rely guarantee handle (.call op next) post s :=
  fun t ht reply u hu => hnext t reply u (stable s t hP ht) hu

end Rules
end Prog
end Kaiion.Foundation

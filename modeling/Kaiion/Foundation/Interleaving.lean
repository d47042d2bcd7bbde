import Kaiion.Foundation.Composition
import Mathlib.Logic.Function.Basic

/-! Programs among steps of an environment, and side by side with other programs over the same state. -/
namespace Kaiion.Foundation.Prog
variable {Op : Type} {Reply : Op → Type} {ε α β σ : Type}
variable {rely guarantee : σ → σ → Prop} {handle : (op : Op) → σ → Reply op → σ → Prop}

/-- From the first state the program, with steps of its environment before each of its own and at the
end, returns the value in the last. -/
inductive Executes (rely : σ → σ → Prop) (handle : (op : Op) → σ → Reply op → σ → Prop) :
    Prog Reply α → σ → α → σ → Prop where
  | ret (value : α) {s t : σ} (env : rely s t) : Executes rely handle (.ret value) s value t
  | call {op : Op} {next : Reply op → Prog Reply α} {value : α} {s t u v : σ} (reply : Reply op) (env : rely s t)
      (takes : handle op t reply u) (rest : Executes rely handle (next reply) u value v) :
      Executes rely handle (.call op next) s value v

/-- What was shown safe holds at the end of every run. -/
theorem Safe.executes {post : α → σ → Prop} {p : Prog Reply α} {s t : σ} {value : α}
    (h : Safe rely guarantee handle p post s) (hrun : Executes rely handle p s value t) : post value t := by
  induction hrun with
  | ret value env => exact h _ env
  | call reply env takes _ ih => exact ih (h _ env reply _ takes).2

/-- Where a run leads. -/
theorem Executes.leads {R : σ → σ → Prop} (htrans : ∀ a b c, R a b → R b c → R a c) (hrely : ∀ a b, rely a b → R a b)
    (hhandle : ∀ op a reply b, handle op a reply b → R a b) {p : Prog Reply α} {s t : σ} {value : α}
    (h : Executes rely handle p s value t) : R s t := by
  induction h with
  | ret value env => exact hrely _ _ env
  | call reply env takes _ ih => exact htrans _ _ _ (hrely _ _ env) (htrans _ _ _ (hhandle _ _ _ _ takes) ih)

theorem Executes.of_ret {value result : α} {s t : σ} (h : Executes rely handle (.ret value) s result t) :
    result = value ∧ rely s t := by
  cases h with
  | ret _ env => exact ⟨rfl, env⟩

theorem Executes.of_perform {op : Op} {reply : Reply op} {s u : σ}
    (h : Executes rely handle (Prog.perform op) s reply u) : ∃ t t', rely s t ∧ handle op t reply t' ∧ rely t' u := by
  cases h with
  | call other env takes rest =>
    obtain ⟨rfl, henv⟩ := Executes.of_ret rest
    exact ⟨_, _, env, takes, henv⟩

theorem Executes.of_call {op : Op} {f : Reply op → Prog Reply α} {result : α} {s u : σ}
    (h : Executes rely handle (Prog.perform op >>= f) s result u) :
    ∃ t reply t', rely s t ∧ handle op t reply t' ∧ Executes rely handle (f reply) t' result u := by
  cases h with
  | call reply env takes rest => exact ⟨_, reply, _, env, takes, rest⟩

theorem Executes.of_bind (hrefl : ∀ a, rely a a) {p : Prog Reply α} {f : α → Prog Reply β} {result : β} {s u : σ}
    (h : Executes rely handle (p >>= f) s result u) :
    ∃ value t, Executes rely handle p s value t ∧ Executes rely handle (f value) t result u := by
  induction p generalizing s with
  | ret value => exact ⟨value, s, .ret value (hrefl s), h⟩
  | call op next ih =>
    cases h with
    | call reply env takes rest =>
      obtain ⟨value, t, hfirst, hlater⟩ := ih reply rest
      exact ⟨value, t, .call reply env takes hfirst, hlater⟩

theorem Executes.of_andThen (hrefl : ∀ a, rely a a) {p : Fallible Reply ε α} {f : α → Fallible Reply ε β}
    {result : Except ε β} {s u : σ} (h : Executes rely handle (p >>= f).run s result u) :
    (∃ error, result = .error error) ∨
      ∃ value t, Executes rely handle p.run s (.ok value) t ∧ Executes rely handle (f value).run t result u := by
  obtain ⟨value, t, hfirst, hlater⟩ := Executes.of_bind hrefl (f := ExceptT.bindCont f) h
  cases value with
  | ok value => exact .inr ⟨value, t, hfirst, hlater⟩
  | error error => exact .inl ⟨error, (Executes.of_ret hlater).1⟩

/-- What the operations of one kind may do, a program of that kind may do. -/
theorem Uses.executes {kind : Op → Prop} {handle' : (op : Op) → σ → Reply op → σ → Prop} {p : Prog Reply α} {s t : σ}
    {value : α} (h : Uses kind p) (hhandle : ∀ op a reply b, kind op → handle op a reply b → handle' op a reply b)
    (hrun : Executes rely handle p s value t) : Executes rely handle' p s value t := by
  induction hrun with
  | ret value env => exact .ret value env
  | call reply env takes _ ih => exact .call reply env (hhandle _ _ _ _ h.1 takes) (ih (h.2 reply))

/-- Among some steps of its environment and some replies the program returns such a value in such a state. -/
def May (rely : σ → σ → Prop) (handle : (op : Op) → σ → Reply op → σ → Prop) (p : Prog Reply α)
    (post : α → σ → Prop) (s : σ) : Prop := ∃ value t, Executes rely handle p s value t ∧ post value t

section May
variable {s : σ}

theorem May.ret (hrefl : ∀ a, rely a a) {value : α} {post : α → σ → Prop} (h : post value s) :
    May rely handle (.ret value) post s := ⟨value, s, .ret value (hrefl s), h⟩

theorem May.call {op : Op} {next : Reply op → Prog Reply α} {post : α → σ → Prop} {t u : σ} (reply : Reply op)
    (env : rely s t) (takes : handle op t reply u) (h : May rely handle (next reply) post u) :
    May rely handle (.call op next) post s := by
  obtain ⟨value, v, hrun, hpost⟩ := h
  exact ⟨value, v, .call reply env takes hrun, hpost⟩

theorem Executes.env (htrans : ∀ a b c, rely a b → rely b c → rely a c) {p : Prog Reply α} {value : α} {t u : σ}
    (hst : rely s t) (h : Executes rely handle p t value u) : Executes rely handle p s value u := by
  cases h with
  | ret value env => exact .ret value (htrans _ _ _ hst env)
  | call reply env takes rest => exact .call reply (htrans _ _ _ hst env) takes rest

theorem May.bind (htrans : ∀ a b c, rely a b → rely b c → rely a c) {p : Prog Reply α} {f : α → Prog Reply β}
    {post : β → σ → Prop} (h : May rely handle p (fun value t => May rely handle (f value) post t) s) :
    May rely handle (p >>= f) post s := by
  obtain ⟨value, t, hrun, result, u, hrest, hpost⟩ := h
  refine ⟨result, u, ?_, hpost⟩
  clear hpost
  induction hrun with
  | ret value env => exact hrest.env htrans env
  | call reply env takes _ ih => exact .call reply env takes (ih hrest)

theorem May.mono {p : Prog Reply α} {post post' : α → σ → Prop} (h : May rely handle p post s)
    (hpost : ∀ value t, post value t → post' value t) : May rely handle p post' s := by
  obtain ⟨value, t, hrun, hv⟩ := h
  exact ⟨value, t, hrun, hpost value t hv⟩

theorem May.andThen (htrans : ∀ a b c, rely a b → rely b c → rely a c) {p : Fallible Reply ε α}
    {f : α → Fallible Reply ε β} {post : Except ε β → σ → Prop}
    (h : May rely handle p.run (fun result t => ∃ value, result = .ok value ∧ May rely handle (f value).run post t) s) :
    May rely handle (p >>= f).run post s := by
  refine May.bind htrans (May.mono h fun result t ht => ?_)
  obtain ⟨value, rfl, hnext⟩ := ht
  exact hnext

theorem May.lifted (hrefl : ∀ a, rely a a) (htrans : ∀ a b c, rely a b → rely b c → rely a c) {p : Prog Reply α}
    {post : Except ε α → σ → Prop} (h : May rely handle p (fun value t => post (.ok value) t) s) :
    May rely handle (ExceptT.lift p : Fallible Reply ε α).run post s :=
  May.bind htrans (May.mono h fun _ _ ht => May.ret hrefl ht)

end May

/-- Programs over one state; a program that was killed is no longer there. -/
structure Pool (ι : Type) (Reply : Op → Type) (α σ : Type) where
  state : σ
  programs : ι → Option (Prog Reply α)

section Pool
variable {ι : Type} [DecidableEq ι]

/-- One program takes one step, or is killed between two of its steps. -/
inductive Pool.Step (handle : ι → (op : Op) → σ → Reply op → σ → Prop) :
    Pool ι Reply α σ → Pool ι Reply α σ → Prop where
  | takes {pool : Pool ι Reply α σ} (i : ι) {op : Op} {next : Reply op → Prog Reply α} (reply : Reply op)
      {state : σ} (found : pool.programs i = some (.call op next)) (takes : handle i op pool.state reply state) :
      Step handle pool ⟨state, Function.update pool.programs i (some (next reply))⟩
  | killed {pool : Pool ι Reply α σ} (i : ι) : Step handle pool ⟨pool.state, Function.update pool.programs i none⟩

/-- Every program of the pool is safe with what it relies on. -/
def Pool.Safe (rely guarantee : ι → σ → σ → Prop) (handle : ι → (op : Op) → σ → Reply op → σ → Prop)
    (post : ι → α → σ → Prop) (pool : Pool ι Reply α σ) : Prop :=
  ∀ i program, pool.programs i = some program →
    Prog.Safe (rely i) (guarantee i) (handle i) program (post i) pool.state

variable {rely guarantee : ι → σ → σ → Prop} {handle : ι → (op : Op) → σ → Reply op → σ → Prop}
  {post : ι → α → σ → Prop} {pool pool' : Pool ι Reply α σ}

/-- Parallel rule: what each program guarantees is what the others rely on. -/
theorem Pool.Safe.step (hrefl : ∀ i a, rely i a a) (htrans : ∀ i a b c, rely i a b → rely i b c → rely i a c)
    (hothers : ∀ i j a b, i ≠ j → guarantee i a b → rely j a b) (h : pool.Safe rely guarantee handle post)
    (hstep : Pool.Step handle pool pool') : pool'.Safe rely guarantee handle post ∧
      (pool'.state = pool.state ∨ ∃ i, guarantee i pool.state pool'.state) := by
  cases hstep with
  | takes i reply found takes =>
    obtain ⟨hg, hnext⟩ := Prog.Safe.step (hrefl i) (h i _ found) takes
    refine ⟨fun j program hfound => ?_, .inr ⟨i, hg⟩⟩
    dsimp only at hfound
    by_cases hji : j = i
    · subst hji
      rw [Function.update_self] at hfound
      cases hfound
      exact hnext
    · rw [Function.update_of_ne hji] at hfound
      exact Prog.Safe.of_rely (htrans j) (h j program hfound) (hothers i j _ _ (Ne.symm hji) hg)
  | killed i =>
    refine ⟨fun j program hfound => ?_, .inl rfl⟩
    dsimp only at hfound
    by_cases hji : j = i
    · subst hji
      rw [Function.update_self] at hfound
      cases hfound
    · rw [Function.update_of_ne hji] at hfound
      exact h j program hfound

/-- Whatever all guarantees keep holds throughout every run of a safe pool. -/
theorem Pool.Safe.run {I : σ → Prop} (hrefl : ∀ i a, rely i a a)
    (htrans : ∀ i a b c, rely i a b → rely i b c → rely i a c)
    (hothers : ∀ i j a b, i ≠ j → guarantee i a b → rely j a b) (hkeep : ∀ i a b, I a → guarantee i a b → I b)
    (h : pool.Safe rely guarantee handle post) (hI : I pool.state)
    (hrun : Relation.ReflTransGen (Pool.Step handle) pool pool') :
    pool'.Safe rely guarantee handle post ∧ I pool'.state := by
  induction hrun with
  | refl => exact ⟨h, hI⟩
  | tail _ hstep ih =>
    obtain ⟨hsafe, hchange⟩ := Pool.Safe.step hrefl htrans hothers ih.1 hstep
    refine ⟨hsafe, ?_⟩
    rcases hchange with heq | ⟨i, hg⟩
    · rw [heq]
      exact ih.2
    · exact hkeep i _ _ ih.2 hg

variable (handle) in
/-- A program may run to its end while the others wait. -/
theorem Executes.alone {i : ι} {p : Prog Reply α} {s t : σ} {value : α}
    (hrun : Executes (fun a b => b = a) (handle i) p s value t) (hstate : pool.state = s)
    (hfound : pool.programs i = some p) : ∃ final, Relation.ReflTransGen (Pool.Step handle) pool final ∧
      final.programs i = some (.ret value) ∧ final.state = t := by
  induction hrun generalizing pool with
  | ret value env => exact ⟨pool, .refl, hfound, by rw [env, hstate]⟩
  | call reply env takes _ ih =>
    subst env hstate
    obtain ⟨final, hrest, hdone⟩ := @ih ⟨_, Function.update pool.programs i (some _)⟩ rfl (Function.update_self ..)
    exact ⟨final, .head (.takes i reply hfound takes) hrest, hdone⟩

end Pool
end Kaiion.Foundation.Prog

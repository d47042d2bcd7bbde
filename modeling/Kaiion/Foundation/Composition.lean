import Kaiion.Foundation.Trace

/-! Composing programs: in sequence, behind a failure, and of operations of some kinds only. -/
namespace Kaiion.Foundation.Prog
variable {Op : Type} {Reply : Op → Type} {ε α β σ : Type}
variable {rely guarantee : σ → σ → Prop} {handle : (op : Op) → σ → Reply op → σ → Prop}

section Sequence
variable {post post' : α → σ → Prop} {s : σ}

theorem Safe.mono {p : Prog Reply α} (h : Safe rely guarantee handle p post s)
    (hpost : ∀ value t, post value t → post' value t) : Safe rely guarantee handle p post' s := by
  induction p generalizing s with
  | ret value => exact fun t ht => hpost value t (h t ht)
  | call op next ih =>
    intro t ht reply u hu
    obtain ⟨hg, hnext⟩ := h t ht reply u hu
    exact ⟨hg, ih reply hnext⟩

theorem Safe.bind (hrefl : ∀ a, rely a a) {f : α → Prog Reply β} {goal : β → σ → Prop} {p : Prog Reply α}
    (h : Safe rely guarantee handle p (fun value t => Safe rely guarantee handle (f value) goal t) s) :
    Safe rely guarantee handle (p >>= f) goal s := by
  induction p generalizing s with
  | ret value => exact h s (hrefl s)
  | call op next ih =>
    intro t ht reply u hu
    obtain ⟨hg, hnext⟩ := h t ht reply u hu
    exact ⟨hg, ih reply hnext⟩

/-- Frame rule: what neither the program nor its environment touches is there at the end. -/
theorem Safe.frame {I : σ → Prop} {p : Prog Reply α} (h : Safe rely guarantee handle p post s)
    (env : ∀ a b, I a → rely a b → I b) (own : ∀ a b, I a → guarantee a b → I b) (hs : I s) :
    Safe rely guarantee handle p (fun value t => post value t ∧ I t) s := by
  induction p generalizing s with
  | ret value => exact fun t ht => ⟨h t ht, env s t hs ht⟩
  | call op next ih =>
    intro t ht reply u hu
    obtain ⟨hg, hnext⟩ := h t ht reply u hu
    exact ⟨hg, ih reply hnext (own t u (env s t hs ht) hg)⟩

/-- Call rule for an operation on its own. -/
theorem Safe.performed (P : σ → Prop) (hP : P s) (stable : ∀ a b, P a → rely a b → P b) {op : Op}
    {result : Reply op → σ → Prop} (hresult : ∀ reply a b, result reply a → rely a b → result reply b)
    (h : ∀ a reply b, P a → handle op a reply b → guarantee a b ∧ result reply b) :
    Safe rely guarantee handle (Prog.perform op) result s :=
  Safe.call P hP stable fun a reply b ha hb =>
    ⟨(h a reply b ha hb).1, fun t ht => hresult reply b t (h a reply b ha hb).2 ht⟩

end Sequence

/-- Every operation the program can perform is of this kind. -/
def Uses (kind : Op → Prop) : Prog Reply α → Prop
  | ret _ => True
  | call op next => kind op ∧ ∀ reply, Uses kind (next reply)

section Uses
variable {kind : Op → Prop}

theorem Uses.performs (op : Op) (h : kind op) : Uses kind (Prog.perform op : Prog Reply (Reply op)) :=
  ⟨h, fun _ => trivial⟩

theorem Uses.mono {kind' : Op → Prop} {p : Prog Reply α} (h : Uses kind p) (hkind : ∀ op, kind op → kind' op) :
    Uses kind' p := by
  induction p with
  | ret value => exact trivial
  | call op next ih => exact ⟨hkind op h.1, fun reply => ih reply (h.2 reply)⟩

/-- A run performs nothing else. -/
theorem Uses.runs {allowed : (op : Op) → Reply op → Prop} {p : Prog Reply α} {events : List (Event Reply)} {value : α}
    (h : Uses kind p) (hrun : Runs allowed p events value) : ∀ event ∈ events, kind event.1 := by
  induction hrun with
  | ret value => exact fun _ he => nomatch he
  | call reply ok rest ih =>
    intro event he
    rcases List.mem_cons.mp he with rfl | he
    · exact h.1
    · exact ih (h.2 reply) event he

theorem Uses.bind {p : Prog Reply α} {f : α → Prog Reply β} (h : Uses kind p) (hf : ∀ value, Uses kind (f value)) :
    Uses kind (p >>= f) := by
  induction p with
  | ret value => exact hf value
  | call op next ih => exact ⟨h.1, fun reply => ih reply (h.2 reply)⟩

/-- Operations that change only what the environment may change keep what is stable. -/
theorem Uses.safe {P : σ → Prop} {p : Prog Reply α} {s : σ} (h : Uses kind p)
    (quiet : ∀ op a reply b, kind op → handle op a reply b → guarantee a b ∧ rely a b)
    (stable : ∀ a b, P a → rely a b → P b) (hs : P s) : Safe rely guarantee handle p (fun _ => P) s := by
  induction p generalizing s with
  | ret value => exact fun t ht => stable s t hs ht
  | call op next ih =>
    intro t ht reply u hu
    obtain ⟨hg, hr⟩ := quiet op t reply u h.1 hu
    exact ⟨hg, ih reply (h.2 reply) (stable t u (stable s t hs ht) hr)⟩

end Uses

/-- What a program returns, whatever the replies. -/
def Returns (post : α → Prop) : Prog Reply α → Prop
  | ret value => post value
  | call _ next => ∀ reply, Returns post (next reply)

section Returns
variable {post : α → Prop}

theorem Returns.bind {f : α → Prog Reply β} {goal : β → Prop} {p : Prog Reply α}
    (h : Returns (fun value => Returns goal (f value)) p) : Returns goal (p >>= f) := by
  induction p with
  | ret value => exact h
  | call op next ih => exact fun reply => ih reply (h reply)

theorem Returns.performs {op : Op} {f : Reply op → Prog Reply α} (h : ∀ reply, Returns post (f reply)) :
    Returns post (Prog.perform op >>= f) := h

/-- What follows is safe whatever comes before. -/
theorem Returns.after {f : β → Prog Reply α} {p : Prog Reply β} (h : ∀ value, Returns post (f value)) :
    Returns post (p >>= f) := by
  induction p with
  | ret value => exact h value
  | call op next ih => exact fun reply => ih reply

theorem Returns.safe {p : Prog Reply α} {s : σ} (h : Returns post p)
    (hguarantee : ∀ op a reply b, handle op a reply b → guarantee a b) :
    Safe rely guarantee handle p (fun value _ => post value) s := by
  induction p generalizing s with
  | ret value => exact fun _ _ => h
  | call op next ih => exact fun t _ reply u takes => ⟨hguarantee op t reply u takes, ih reply (h reply)⟩

theorem Returns.runs {allowed : (op : Op) → Reply op → Prop} {p : Prog Reply α} {events : List (Event Reply)} {value : α}
    (h : Returns post p) (hrun : Runs allowed p events value) : post value := by
  induction hrun with
  | ret value => exact h
  | call reply ok rest ih => exact ih (h reply)

end Returns

theorem Runs.of_bind {allowed : (op : Op) → Reply op → Prop} {p : Prog Reply α} {f : α → Prog Reply β}
    {events : List (Event Reply)} {result : β} (h : Runs allowed (p >>= f) events result) :
    ∃ value first later, events = first ++ later ∧ Runs allowed p first value ∧ Runs allowed (f value) later result := by
  induction p generalizing events with
  | ret value => exact ⟨value, [], events, rfl, .ret value, h⟩
  | call op next ih =>
    obtain ⟨reply, rest, rfl, ok, hrest⟩ := Runs.of_perform (f := fun reply => next reply >>= f) h
    obtain ⟨value, first, later, rfl, hfirst, hlater⟩ := ih reply hrest
    exact ⟨value, ⟨op, reply⟩ :: first, later, rfl, .call reply ok hfirst, hlater⟩

theorem Runs.of_performed {allowed : (op : Op) → Reply op → Prop} {op : Op} {reply : Reply op}
    {events : List (Event Reply)} (h : Runs allowed (Prog.perform op) events reply) : events = [⟨op, reply⟩] := by
  cases h with
  | call reply ok rest =>
    obtain ⟨rfl, rfl⟩ := Runs.of_ret rest
    rfl

/-- What a program returns when equal operations get equal replies. -/
def eval (replies : (op : Op) → Reply op) : Prog Reply α → α
  | ret value => value
  | call op next => eval replies (next (replies op))

theorem eval_bind (replies : (op : Op) → Reply op) (p : Prog Reply α) (f : α → Prog Reply β) :
    (p >>= f).eval replies = (f (p.eval replies)).eval replies := by
  induction p with
  | ret value => rfl
  | call op next ih => exact ih (replies op)

theorem eval_runs (replies : (op : Op) → Reply op) (p : Prog Reply α) :
    ∃ events, Runs (fun op reply => reply = replies op) p events (p.eval replies) := by
  induction p with
  | ret value => exact ⟨[], .ret value⟩
  | call op next ih =>
    obtain ⟨events, hrun⟩ := ih (replies op)
    exact ⟨_, .call (replies op) rfl hrun⟩

/-- A program that returns a value or fails. -/
abbrev Fallible (Reply : Op → Type) (ε α : Type) := ExceptT ε (Prog Reply) α

/-- What holds after a step of a fallible program, given what its success needs. -/
def Then (post : Except ε β → σ → Prop) (next : α → σ → Prop) : Except ε α → σ → Prop
  | .ok value, t => next value t
  | .error error, t => post (.error error) t

section Fallible
variable {post : Except ε β → σ → Prop} {s : σ}

theorem Safe.andThen (hrefl : ∀ a, rely a a) (hpost : ∀ r a b, post r a → rely a b → post r b)
    {f : α → Fallible Reply ε β} {p : Fallible Reply ε α}
    (h : Safe rely guarantee handle p.run
      (Then post fun value t => Safe rely guarantee handle (f value).run post t) s) :
    Safe rely guarantee handle (p >>= f).run post s := by
  refine Safe.bind hrefl (Safe.mono h fun result t ht => ?_)
  cases result with
  | ok value => exact ht
  | error error => exact fun u hu => hpost _ t u ht hu

/-- A step that cannot fail. -/
theorem Safe.lifted (hrefl : ∀ a, rely a a) (htrans : ∀ a b c, rely a b → rely b c → rely a c)
    {f : α → Fallible Reply ε β} {p : Prog Reply α}
    (h : Safe rely guarantee handle p (fun value t => Safe rely guarantee handle (f value).run post t) s) :
    Safe rely guarantee handle ((ExceptT.lift p : Fallible Reply ε α) >>= f).run post s := by
  have hmapped : Safe rely guarantee handle (p >>= fun value => (Prog.ret (.ok value) : Prog Reply (Except ε α)))
      (fun result t => ∃ value, result = .ok value ∧ Safe rely guarantee handle (f value).run post t) s :=
    Safe.bind hrefl (Safe.mono h fun value t ht u hu => ⟨value, rfl, Safe.of_rely htrans ht hu⟩)
  refine Safe.bind hrefl (Safe.mono hmapped fun result t ht => ?_)
  obtain ⟨value, rfl, hnext⟩ := ht
  exact hnext

theorem Uses.andThen {kind : Op → Prop} {p : Fallible Reply ε α} {f : α → Fallible Reply ε β} (h : Uses kind p.run)
    (hf : ∀ value, Uses kind (f value).run) : Uses kind (p >>= f).run := by
  refine Uses.bind h fun result => ?_
  cases result with
  | ok value => exact hf value
  | error error => exact trivial

theorem Uses.lifted {kind : Op → Prop} {p : Prog Reply α} (h : Uses kind p) :
    Uses kind (ExceptT.lift p : Fallible Reply ε α).run := Uses.bind h fun _ => trivial

theorem Runs.of_andThen {allowed : (op : Op) → Reply op → Prop} {p : Fallible Reply ε α} {f : α → Fallible Reply ε β}
    {events : List (Event Reply)} {result : Except ε β} (h : Runs allowed (p >>= f).run events result) :
    (∃ error, result = .error error ∧ Runs allowed p.run events (.error error)) ∨
      ∃ value first later, events = first ++ later ∧ Runs allowed p.run first (.ok value) ∧
        Runs allowed (f value).run later result := by
  obtain ⟨reply, first, later, rfl, hfirst, hlater⟩ := Runs.of_bind h
  cases reply with
  | ok value => exact .inr ⟨value, first, later, rfl, hfirst, hlater⟩
  | error error =>
    obtain ⟨rfl, rfl⟩ := Runs.of_ret hlater
    exact .inl ⟨error, rfl, by rwa [List.append_nil]⟩

theorem Runs.of_lift {allowed : (op : Op) → Reply op → Prop} {p : Prog Reply α} {events : List (Event Reply)}
    {result : Except ε α} (h : Runs allowed (ExceptT.lift p : Fallible Reply ε α).run events result) :
    ∃ value, result = .ok value ∧ Runs allowed p events value := by
  obtain ⟨value, first, later, rfl, hfirst, hlater⟩ := Runs.of_bind h
  obtain ⟨rfl, rfl⟩ := Runs.of_ret hlater
  exact ⟨value, rfl, by rwa [List.append_nil]⟩

theorem eval_andThen (replies : (op : Op) → Reply op) (p : Fallible Reply ε α) (f : α → Fallible Reply ε β) :
    (p >>= f).run.eval replies = (p.run.eval replies).bind fun value => (f value).run.eval replies := by
  refine (eval_bind replies p.run _).trans ?_
  cases p.run.eval replies <;> rfl

end Fallible

end Kaiion.Foundation.Prog

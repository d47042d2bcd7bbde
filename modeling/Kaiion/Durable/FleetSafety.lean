import Kaiion.Durable.DriverSafety

/-! The invariant of the fleet: every worker keeps its contract whatever the others do. -/
namespace Kaiion.Durable
open Foundation

/-- Every operation was allowed when it was performed, and every worker started on a fresh channel
from a committed copy. -/
def Lawful (c : Codec) : List Event → Prop
  | [] => True
  | .stored _ :: earlier => Lawful c earlier
  | .subscribed w job :: earlier =>
    published w earlier = [] ∧ Committed c job.id job.state earlier ∧ Lawful c earlier
  | .performed w op _ _ :: earlier => (∃ id, op.Allowed c w id earlier) ∧ Lawful c earlier

theorem Lawful.suffix {c : Codec} {earlier : List Event} (later : List Event)
    (h : Lawful c (later ++ earlier)) : Lawful c earlier := by
  induction later with
  | nil => exact h
  | cons event later ih =>
    cases event with
    | stored after => exact ih h
    | subscribed w job => exact ih h.2.2
    | performed w op reply after => exact ih h.2

/-- A worker in the middle of a turn that keeps the contract from here on. -/
def Worker.Sound (c : Codec) (w : Nat) (worker : Worker) (s : World) : Prop :=
  worker.job.state.isTerminal = false ∧
  match worker.phase with
  | .advancing rest => Upholds c w worker.job.id rest (Advanced c w worker.job) s
  | .settling rest => Upholds c w worker.job.id rest (Settled c w worker.job.id) s

structure Fleet.Sound (c : Codec) (fleet : Fleet) : Prop where
  wellFormed : fleet.world.db.WellFormed
  current : ∃ event ∈ fleet.world.log, event.after = some fleet.world.db
  lawful : Lawful c fleet.world.log
  copies : ∀ job ∈ fleet.copies, Reached c job.id job.state fleet.world
  fresh : ∀ event ∈ fleet.world.log, ∀ w, event.worker = some w → w < fleet.nextWorker
  workers : ∀ w worker, fleet.workers w = some worker →
    w < fleet.nextWorker ∧ worker.Sound c w fleet.world

theorem Worker.Sound.rely {c : Codec} {w : Nat} {worker : Worker} {s s' : World}
    (h : worker.Sound c w s) (hr : Rely w s s') : worker.Sound c w s' := by
  have htrans : ∀ a b d, Rely w a b → Rely w b d → Rely w a d := fun _ _ _ => Rely.trans
  obtain ⟨live, h⟩ := h
  refine ⟨live, ?_⟩
  generalize worker.phase = phase at h
  cases phase with
  | advancing rest => exact Prog.Safe.of_rely htrans h hr
  | settling rest => exact Prog.Safe.of_rely htrans h hr

/-- A worker's next operation is allowed and leaves the worker sound. -/
theorem Worker.Sound.perform {c : Codec} {w : Nat} {worker : Worker} {op : Op} {reply : Op.Reply op}
    {phase : Phase} {s s' : World} (h : worker.Sound c w s) (ht : worker.phase.Takes op reply phase)
    (hp : World.Performs c w op s reply s') :
    Guarantee c w worker.job.id s s' ∧ Worker.Sound c w { worker with phase } s' := by
  obtain ⟨live, h⟩ := h
  generalize worker.phase = old at h ht
  cases ht with
  | advancing =>
    obtain ⟨hg, hn⟩ := Prog.Safe.step (Rely.refl w) h hp
    exact ⟨hg, live, hn⟩
  | settling =>
    obtain ⟨hg, hn⟩ := Prog.Safe.step (Rely.refl w) h hp
    exact ⟨hg, live, hn⟩

/-- The top of the loop. -/
theorem Worker.Sound.turn {c : Codec} {w : Nat} {job : Job} {s : World} (h : Holding c w job s)
    (live : job.state.isTerminal = false) (auth : UpstreamAuth) (requestBody : Value) :
    (Worker.turn c auth requestBody job).Sound c w s :=
  ⟨live, advance_upholds h live auth requestBody⟩

/-- An event decides its own operation. -/
theorem Guarantee.allowed {c : Codec} {w : Nat} {id : JobId} {op : Op} {reply : Op.Reply op} {s s' : World}
    (hg : Guarantee c w id s s') (hp : World.Performs c w op s reply s') : op.Allowed c w id s.log := by
  obtain ⟨op', reply', hp', ha⟩ := hg
  have he := hp.2.symm.trans hp'.2
  simp only [List.cons.injEq, Event.performed.injEq] at he
  obtain ⟨⟨-, rfl, -⟩, -⟩ := he
  exact ha

theorem World.Performs.rely {c : Codec} {w other : Nat} {id : JobId} {op : Op} {reply : Op.Reply op} {s s' : World}
    (h : World.Performs c w op s reply s') (hw : s.db.WellFormed) (ha : op.Allowed c w id s.log)
    (hne : w ≠ other) : Rely other s s' := by
  refine ⟨h.forward hw ha, h.wellFormed, [_], h.2, fun event hevent => ?_⟩
  rw [List.mem_singleton.mp hevent]
  simpa [Event.worker] using hne

private theorem published_fresh {w : Nat} {log : List Event}
    (h : ∀ event ∈ log, ∀ other, event.worker = some other → other < w) : published w log = [] := by
  refine List.filterMap_eq_nil_iff.mpr fun event hevent => if_neg fun he => ?_
  have := h event hevent w he
  omega

private theorem createdBy_fresh {w : Nat} {log : List Event} (id : JobId)
    (h : ∀ event ∈ log, ∀ other, event.worker = some other → other < w) : createdBy w id log = 0 := by
  refine List.countP_eq_zero.mpr fun event hevent he => ?_
  simp only [Bool.and_eq_true, decide_eq_true_eq] at he
  have := h event hevent w he.1
  omega

/-- A new worker starts out holding the copy it was given. -/
private theorem subscribe_holding {c : Codec} {fleet : Fleet} (h : fleet.Sound c) {job : Job}
    (held : job ∈ fleet.copies) :
    Holding c fleet.nextWorker job
      ⟨fleet.world.db, .subscribed fleet.nextWorker job :: fleet.world.log⟩ := by
  refine ⟨h.wellFormed, ?_, (h.copies job held).mono (.refl _) ⟨[_], rfl⟩, ?_⟩
  · simp [published, Event.shownBy, Event.worker, Event.shown]
  · rw [createdBy_cons, createdBy_fresh job.id h.fresh]
    simp [Event.creates]

section Steps
variable {c : Codec} {fleet fleet' : Fleet}

/-- The tables move forward in every step. -/
theorem Fleet.Step.forward (h : Fleet.Step c fleet fleet') (hs : fleet.Sound c) :
    fleet.world.db.Forward fleet'.world.db := by
  cases h with
  | enqueue uuid authHash provider request fault fresh db committed =>
    rw [← committed]
    rcases fault.apply_fst ProxyError.database fleet.world.db
      (fleet.world.db.enqueue c uuid authHash provider request) with hf | hf
    · rw [hf]
      exact .refl _
    · rw [hf]
      exact fun id row hrow =>
        ⟨row, Database.enqueue_row? c hrow uuid authHash provider request, Or.inl rfl⟩
  | perform w worker op reply phase db found takes answers =>
    have performs : World.Performs c w op fleet.world reply
        ⟨db, .performed w op reply db :: fleet.world.log⟩ := ⟨answers, rfl⟩
    have hg := ((hs.workers w worker found).2.perform takes performs).1
    exact performs.forward hs.wellFormed (hg.allowed performs)
  | _ => exact .refl _

private theorem sound_setWorker (h : fleet.Sound c) {w : Nat} {worker : Worker}
    (hlt : w < fleet.nextWorker) (hw : worker.Sound c w fleet.world) :
    Fleet.Sound c { fleet with workers := fleet.setWorker w (some worker) } := by
  refine ⟨h.wellFormed, h.current, h.lawful, h.copies, h.fresh, fun other found hfound => ?_⟩
  simp only [Fleet.setWorker] at hfound
  split at hfound
  next he =>
    subst he
    cases hfound
    exact ⟨hlt, hw⟩
  · exact h.workers other found hfound

/-- Every step keeps the invariant. -/
theorem Fleet.Step.sound (h : Fleet.Step c fleet fleet') (hs : fleet.Sound c) : fleet'.Sound c := by
  have hforward := h.forward hs
  cases h with
  | enqueue uuid authHash provider request fault fresh db committed =>
    have hw : db.WellFormed :=
      (StoreStep.spec (committed ▸ StoreStep.enqueue _ uuid authHash provider request fault fresh)
        hs.wellFormed).1
    have hrely : ∀ w, Rely w fleet.world ⟨db, .stored db :: fleet.world.log⟩ := fun w =>
      ⟨hforward, fun _ => hw, [_], rfl, fun event hevent => by
        rw [List.mem_singleton.mp hevent]; simp [Event.worker]⟩
    refine ⟨hw, ⟨_, List.mem_cons_self, rfl⟩, hs.lawful, ?_, ?_, ?_⟩
    · exact fun job hjob => (hs.copies job hjob).mono hforward ⟨[_], rfl⟩
    · intro event hevent w hworker
      rcases List.mem_cons.mp hevent with rfl | hevent
      · cases hworker
      · exact hs.fresh event hevent w hworker
    · exact fun w worker found =>
        ⟨(hs.workers w worker found).1, (hs.workers w worker found).2.rely (hrely w)⟩
  | read id job found =>
    obtain ⟨event, hevent, hafter⟩ := hs.current
    have hid : job.id = id := by
      obtain ⟨row, hrow, htry⟩ := (reached_of_get found ⟨event, hevent, hafter⟩).2
      rw [(JobRow.tryFrom_ok htry).1, Database.row?_id hrow]
    refine ⟨hs.wellFormed, hs.current, hs.lawful, ?_, hs.fresh, hs.workers⟩
    intro copy hcopy
    rcases List.mem_cons.mp hcopy with rfl | hcopy
    · exact hid ▸ (reached_of_get found ⟨event, hevent, hafter⟩).1
    · exact hs.copies copy hcopy
  | subscribe auth requestBody job held live =>
    obtain ⟨event, hevent, hafter⟩ := hs.current
    refine ⟨hs.wellFormed, ⟨event, List.mem_cons_of_mem _ hevent, hafter⟩, ?_, ?_, ?_, ?_⟩
    · exact ⟨published_fresh hs.fresh, (hs.copies job held).committed, hs.lawful⟩
    · exact fun copy hcopy => (hs.copies copy hcopy).mono hforward ⟨[_], rfl⟩
    · intro event hevent w hworker
      rcases List.mem_cons.mp hevent with rfl | hevent
      · cases hworker
        exact Nat.lt_succ_self _
      · exact Nat.lt_succ_of_lt (hs.fresh event hevent w hworker)
    · intro w worker found
      simp only [Fleet.setWorker] at found
      split at found
      next he =>
        subst he
        cases found
        exact ⟨Nat.lt_succ_self _, Worker.Sound.turn (subscribe_holding hs held) live auth requestBody⟩
      next hne =>
        obtain ⟨hlt, hworker⟩ := hs.workers w worker found
        refine ⟨Nat.lt_succ_of_lt hlt, hworker.rely ⟨hforward, id, [_], rfl, fun event hevent he => ?_⟩⟩
        rw [List.mem_singleton.mp hevent] at he
        exact hne (Option.some.inj he).symm
  | perform w worker op reply phase db found takes answers =>
    have performs : World.Performs c w op fleet.world reply
        ⟨db, .performed w op reply db :: fleet.world.log⟩ := ⟨answers, rfl⟩
    obtain ⟨hlt, hsound⟩ := hs.workers w worker found
    obtain ⟨hg, hworker⟩ := hsound.perform takes performs
    have ha := hg.allowed performs
    refine ⟨performs.wellFormed hs.wellFormed, ⟨_, List.mem_cons_self, rfl⟩, ⟨⟨_, ha⟩, hs.lawful⟩, ?_, ?_, ?_⟩
    · exact fun job hjob => (hs.copies job hjob).mono hforward ⟨[_], rfl⟩
    · intro event hevent other hother
      rcases List.mem_cons.mp hevent with rfl | hevent
      · cases hother
        exact hlt
      · exact hs.fresh event hevent other hother
    · intro other otherWorker hfound
      simp only [Fleet.setWorker] at hfound
      split at hfound
      next he =>
        subst he
        cases hfound
        exact ⟨hlt, hworker⟩
      next hne =>
        obtain ⟨hlt', hother⟩ := hs.workers other otherWorker hfound
        exact ⟨hlt', hother.rely (performs.rely hs.wellFormed ha (fun he => hne he.symm))⟩
  | advanced w worker result found done =>
    obtain ⟨hlt, live, h⟩ := hs.workers w worker found
    rw [done] at h
    exact sound_setWorker hs hlt ⟨live, settle_upholds (Prog.Safe.result (Rely.refl w) h) live⟩
  | looped w worker job found done =>
    obtain ⟨hlt, -, h⟩ := hs.workers w worker found
    rw [done] at h
    obtain ⟨-, live, hheld⟩ := Prog.Safe.result (Rely.refl w) h
    exact sound_setWorker hs hlt (Worker.Sound.turn hheld live _ _)
  | stopped w worker found done =>
    refine ⟨hs.wellFormed, hs.current, hs.lawful, hs.copies, hs.fresh, fun other rest hfound => ?_⟩
    simp only [Fleet.setWorker] at hfound
    split at hfound
    · cases hfound
    · exact hs.workers other rest hfound
  | crash =>
    exact ⟨hs.wellFormed, hs.current, hs.lawful, fun _ hjob => absurd hjob List.not_mem_nil, hs.fresh,
      fun _ _ found => by cases found⟩

end Steps

theorem Fleet.Initial.sound {c : Codec} {start : Fleet} (h : start.Initial) : start.Sound c := by
  refine ⟨h.wellFormed, ⟨_, h.log ▸ List.mem_singleton_self _, rfl⟩, ?_, ?_, ?_, ?_⟩
  · rw [h.log]
    trivial
  · rw [h.copies]
    exact fun _ hjob => nomatch hjob
  · rw [h.log]
    intro event hevent w hworker
    rw [List.mem_singleton.mp hevent] at hworker
    cases hworker
  · rw [h.workers]
    exact fun _ _ found => nomatch found

/-- A whole run keeps the invariant and moves the tables forward. -/
theorem Fleet.Run.sound {c : Codec} {fleet fleet' : Fleet} (h : Fleet.Run c fleet fleet')
    (hs : fleet.Sound c) : fleet'.Sound c ∧ fleet.world.db.Forward fleet'.world.db := by
  induction h with
  | refl => exact ⟨hs, .refl _⟩
  | tail _ hstep ih => exact ⟨hstep.sound ih.1, ih.2.trans (hstep.forward ih.1)⟩

end Kaiion.Durable

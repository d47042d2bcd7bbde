import Kaiion.Durable.FleetSafety
import Kaiion.Json.Print

/-! Rows only move forward, and watch channels only announce what was committed. -/
namespace Kaiion.Durable
open Foundation

/-- What the watch channels and the finished workers of a fleet promise: an announced state was
committed before, one worker never announces an earlier stage, and a worker that returns leaves a
terminal row equal to its last announcement. -/
structure Fleet.Announced (c : Codec) (fleet : Fleet) : Prop where
  committed : ∀ later event earlier id state, fleet.world.log = later ++ event :: earlier →
    event.shown = some (id, state) → Committed c id state earlier
  forward : ∀ w, (published w fleet.world.log).Pairwise (fun later earlier => earlier.stage ≤ later.stage)
  returned : ∀ w worker, fleet.workers w = some worker → worker.phase = .settling (.ret .stop) →
    Finished c w worker.job.id fleet.world

/-- The event at the head of a lawful log announces only what was committed. -/
theorem Lawful.head_committed {c : Codec} {event : Event} {earlier : List Event} {id : JobId}
    {state : JobState} (h : Lawful c (event :: earlier)) (hshown : event.shown = some (id, state)) :
    Committed c id state earlier := by
  cases event with
  | stored after => cases hshown
  | subscribed w job =>
    cases hshown
    exact h.2.1
  | performed w op reply after =>
    cases op with
    | publish job shown =>
      cases hshown
      obtain ⟨⟨_, rfl, hcommitted, -⟩, -⟩ := h
      exact hcommitted
    | _ => cases hshown

private theorem published_cons (w : Nat) (event : Event) (log : List Event) :
    published w (event :: log) = (event.shownBy w).toList ++ published w log := by
  unfold published
  cases h : event.shownBy w with
  | none => rw [List.filterMap_cons_none h]; rfl
  | some state => rw [List.filterMap_cons_some h]; rfl

/-- One more event: a worker announces nothing, its first state, or a state no earlier than its
last one. -/
private theorem Lawful.shownBy_head {c : Codec} {event : Event} {log : List Event} {w : Nat}
    {state : JobState} (h : Lawful c (event :: log)) (hshown : event.shownBy w = some state) :
    ∀ previous, (published w log).head? = some previous → previous.stage ≤ state.stage := by
  unfold Event.shownBy at hshown
  split at hshown
  next hworker =>
    cases event with
    | stored after => cases hshown
    | subscribed other job =>
      cases hworker
      rw [h.1]
      exact fun _ he => nomatch he
    | performed other op reply after =>
      cases hworker
      cases op with
      | publish id shown =>
        cases hshown
        obtain ⟨⟨_, -, -, hforward⟩, -⟩ := h
        exact hforward
      | _ => cases hshown
  · cases hshown

/-- The announcements of one worker never go back. -/
theorem Lawful.published_forward {c : Codec} {log : List Event} (h : Lawful c log) (w : Nat) :
    (published w log).Pairwise (fun later earlier => earlier.stage ≤ later.stage) := by
  induction log with
  | nil => exact List.Pairwise.nil
  | cons event log ih =>
    have hp := ih (Lawful.suffix [event] h)
    rw [published_cons]
    cases hshown : event.shownBy w with
    | none => exact hp
    | some state =>
      have hhead := h.shownBy_head hshown
      generalize published w log = states at hp hhead
      refine List.pairwise_cons.mpr ⟨fun earlier hearlier => ?_, hp⟩
      cases states with
      | nil => cases hearlier
      | cons last states =>
        have hlast := hhead last rfl
        rcases List.mem_cons.mp hearlier with rfl | hearlier
        · exact hlast
        · exact Nat.le_trans ((List.pairwise_cons.mp hp).1 earlier hearlier) hlast

theorem Fleet.Sound.announced {c : Codec} {fleet : Fleet} (h : fleet.Sound c) : fleet.Announced c := by
  refine ⟨?_, h.lawful.published_forward, ?_⟩
  · intro later event earlier id state hlog hshown
    exact (Lawful.suffix later (hlog ▸ h.lawful)).head_committed hshown
  · intro w worker found done
    obtain ⟨-, -, hsettled⟩ := h.workers w worker found
    rw [done] at hsettled
    have hfinished : Settled c w worker.job.id .stop fleet.world := Prog.Safe.result (Rely.refl w) hsettled
    exact hfinished

/-- In every run of any number of workers, clients and restarts, from any state reached: a row is
kept or moves to a later stage, a terminal row keeps every column, and the channels announce only
committed states, in order, up to the stored terminal outcome. -/
theorem progress_is_forward_and_committed {c : Codec} {start fleet later : Fleet} (hi : start.Initial)
    (h : Fleet.Run c start fleet) (h' : Fleet.Run c fleet later) :
    (∀ id row, fleet.world.db.row? id = some row → ∃ row', later.world.db.row? id = some row' ∧
      row.Forward row' ∧ (row.status.stage = 5 → row' = row)) ∧
    later.Announced c := by
  obtain ⟨hs, -⟩ := Fleet.Run.sound h hi.sound
  obtain ⟨hs', hf⟩ := Fleet.Run.sound h' hs
  refine ⟨fun id row hrow => ?_, hs'.announced⟩
  obtain ⟨row', hrow', hfw⟩ := hf id row hrow
  exact ⟨row', hrow', hfw, hfw.eq_of_terminal⟩

/-- A store with one uploaded job, and a worker that has just been given a copy of it. -/
theorem progress_of_uploaded_job :
    let c : Codec := Json.compact
    let row : JobRow := { JobRow.queued "job" "auth" "request" "model" with
      status := .uploaded, inputFileId := some "file" }
    let job : Job := ⟨⟨"job"⟩, "model", .uploaded ⟨"file"⟩⟩
    let start : Fleet := ⟨⟨⟨[row], []⟩, [.stored ⟨[row], []⟩]⟩, [], fun _ => none, 0⟩
    ∀ later, Fleet.Run c { start with
        world := ⟨⟨[row], []⟩, [.subscribed 0 job, .stored ⟨[row], []⟩]⟩
        copies := [job]
        workers := start.setWorker 0 (some (.turn c ⟨"key", none, none⟩ .null job))
        nextWorker := 1 } later →
      (∃ row', later.world.db.row? ⟨"job"⟩ = some row' ∧ row.Forward row') ∧ later.Announced c := by
  intro c row job start later hlater
  have hi : start.Initial := by
    refine ⟨⟨?_, ?_, ?_, ?_, ?_⟩, rfl, rfl, rfl⟩ <;> simp [start, Database.UniqueIds]
  have hrun := (Relation.ReflTransGen.single (Fleet.Step.read (c := c) start ⟨"job"⟩ job rfl)).tail
    (.subscribe _ ⟨"key", none, none⟩ .null job List.mem_cons_self rfl)
  obtain ⟨hforward, hannounced⟩ := progress_is_forward_and_committed hi hrun hlater
  obtain ⟨row', hrow', hf, -⟩ := hforward ⟨"job"⟩ row rfl
  exact ⟨⟨row', hrow', hf⟩, hannounced⟩

end Kaiion.Durable

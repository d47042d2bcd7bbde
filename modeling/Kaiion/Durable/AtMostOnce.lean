import Kaiion.Durable.FleetSafety
import Kaiion.Json.Print

/-! A batch is created at most once for each durable identity. The submission update is the only
way to a create_batch call, and it takes effect at most once for a row. -/
namespace Kaiion.Durable
open Foundation

/-- A create_batch call for the job registered under a credential hash and a request hash. -/
def Event.createsFor (db : Database) (authHash requestHash : String) : Event → Bool
  | .performed _ (.createBatch _ _ id) _ _ =>
      (db.row? id).any (fun row => row.authHash = authHash && row.requestHash = requestHash)
  | _ => false

/-- The job's submission was acknowledged at most once, and its row shows it. -/
def SubmittedOnce (id : JobId) (s : World) : Prop :=
  s.log.countP (Event.begins id) ≤ 1 ∧
  (1 ≤ s.log.countP (Event.begins id) → ∃ row, s.db.row? id = some row ∧ 2 ≤ row.status.stage)

/-- An acknowledged submission found the row uploaded and left it submitting. -/
private theorem begins_cases {c : Codec} {w : Nat} {op : Op} {reply : Op.Reply op} {s s' : World}
    {id : JobId} (h : World.Performs c w op s reply s') (hw : s.db.WellFormed)
    (hb : (Event.performed w op reply s'.db).begins id = true) :
    (∃ row, s.db.row? id = some row ∧ row.status.stage = 1) ∧
      ∃ row, s'.db.row? id = some row ∧ row.status.stage = 2 := by
  unfold Event.begins at hb
  split at hb
  next other job inputFileId state after he =>
    cases he
    cases of_decide_eq_true hb
    obtain ⟨now, row, -, hrow, ha, hrow', -, -⟩ := h.transition_row hw
    exact ⟨⟨row, hrow, congrArg Status.stage (Transition.affects_status ha)⟩, _, hrow',
      congrArg Status.stage (Transition.set_status c now row _)⟩
  · cases hb

private theorem submittedOnce_kept {id : JobId} {s s' : World} (h : SubmittedOnce id s)
    (hf : s.db.Forward s'.db) (hc : s'.log.countP (Event.begins id) = s.log.countP (Event.begins id)) :
    SubmittedOnce id s' := by
  refine ⟨hc ▸ h.1, fun hpos => ?_⟩
  obtain ⟨row, hrow, hle⟩ := h.2 (hc ▸ hpos)
  obtain ⟨row', hrow', hfw⟩ := hf id row hrow
  exact ⟨row', hrow', Nat.le_trans hle hfw.stage_le⟩

theorem Fleet.Step.submittedOnce {c : Codec} {fleet fleet' : Fleet} (h : Fleet.Step c fleet fleet')
    (hs : fleet.Sound c) {id : JobId} (ho : SubmittedOnce id fleet.world) :
    SubmittedOnce id fleet'.world := by
  have hforward := h.forward hs
  cases h with
  | perform w worker op reply phase db found takes answers =>
    have performs : World.Performs c w op fleet.world reply
        ⟨db, .performed w op reply db :: fleet.world.log⟩ := ⟨answers, rfl⟩
    cases hb : (Event.performed w op reply db).begins id with
    | false => exact submittedOnce_kept ho hforward (by rw [List.countP_cons, hb]; rfl)
    | true =>
      obtain ⟨⟨row, hrow, hone⟩, row', hrow', htwo⟩ := begins_cases performs hs.wellFormed hb
      have hzero : fleet.world.log.countP (Event.begins id) = 0 := by
        by_contra hne
        obtain ⟨row₂, hrow₂, hle⟩ := ho.2 (Nat.one_le_iff_ne_zero.mpr hne)
        rw [hrow] at hrow₂
        cases hrow₂
        omega
      refine ⟨?_, fun _ => ⟨row', hrow', Nat.le_of_eq htwo.symm⟩⟩
      rw [List.countP_cons, hb, hzero]
      simp
  | enqueue | subscribe => exact submittedOnce_kept ho hforward (by rw [List.countP_cons]; rfl)
  | _ => exact ho

theorem Fleet.Run.submittedOnce {c : Codec} {start fleet : Fleet} (h : Fleet.Run c start fleet)
    (hi : start.Initial) (id : JobId) : SubmittedOnce id fleet.world := by
  induction h with
  | refl =>
    have hzero : start.world.log.countP (Event.begins id) = 0 := by
      rw [hi.log]
      rfl
    exact ⟨by omega, fun hpos => by omega⟩
  | tail hrun hstep ih => exact hstep.submittedOnce (Fleet.Run.sound hrun hi.sound).1 ih

/-- Two workers' submissions are different events. -/
private theorem begunBy_add (id : JobId) {w other : Nat} (hne : w ≠ other) (log : List Event) :
    begunBy w id log + begunBy other id log ≤ log.countP (Event.begins id) := by
  induction log with
  | nil => exact Nat.le_refl 0
  | cons event log ih =>
    rw [begunBy_cons, begunBy_cons, List.countP_cons]
    by_cases hw : event.worker = some w
    · simp [hw, hne]
      omega
    · by_cases ho : event.worker = some other
      · simp [ho, hne.symm]
        omega
      · simp [hw, ho]
        omega

private theorem begunBy_le (w : Nat) (id : JobId) (log : List Event) :
    begunBy w id log ≤ log.countP (Event.begins id) :=
  List.countP_mono_left fun event _ h => by
    simp only [Bool.and_eq_true] at h
    exact h.2

theorem Lawful.createdBy_le {c : Codec} {log : List Event} (h : Lawful c log) (w : Nat) (id : JobId) :
    createdBy w id log ≤ begunBy w id log := by
  induction log with
  | nil => exact Nat.le_refl 0
  | cons event log ih =>
    cases event with
    | stored after => simpa [createdBy_cons, begunBy_cons, Event.worker] using ih h
    | subscribed other job =>
      simpa [createdBy_cons, begunBy_cons, Event.creates, Event.begins] using ih h.2.2
    | performed other op reply after =>
      by_cases hw : other = w
      · obtain ⟨⟨_, ha⟩, h⟩ := h
        exact hw ▸ ha.balance reply after (hw ▸ ih h)
      · simpa [createdBy_cons, begunBy_cons, Event.worker, hw] using ih h.2

/-- Every call has a submission of its own worker behind it. -/
private theorem creates_begun {log : List Event} {id : JobId}
    (hpos : 1 ≤ log.countP (Event.creates id)) : ∃ w, 1 ≤ createdBy w id log := by
  obtain ⟨event, hevent, hcreates⟩ := List.countP_pos_iff.mp hpos
  cases event with
  | performed w op reply after =>
    refine ⟨w, List.countP_pos_iff.mpr ⟨_, hevent, ?_⟩⟩
    simp [Event.worker, hcreates]
  | _ => cases hcreates

/-- While a job's submission is acknowledged at most once, create_batch is called at most once. -/
theorem Lawful.creates_le_one {c : Codec} {log : List Event} {id : JobId} (h : Lawful c log)
    (ho : log.countP (Event.begins id) ≤ 1) : log.countP (Event.creates id) ≤ 1 := by
  induction log with
  | nil => exact Nat.zero_le 1
  | cons event log ih =>
    have hle : log.countP (Event.begins id) ≤ 1 := by
      rw [List.countP_cons] at ho
      omega
    have hrest := ih (Lawful.suffix [event] h) hle
    rw [List.countP_cons]
    cases hc : event.creates id with
    | false => simpa [hc] using hrest
    | true =>
      suffices hzero : log.countP (Event.creates id) = 0 by simp [hzero]
      by_contra hne
      obtain ⟨other, hother⟩ := creates_begun (Nat.one_le_iff_ne_zero.mpr hne)
      have hbegun := (Lawful.suffix [event] h).createdBy_le other id
      unfold Event.creates at hc
      split at hc
      next w auth inputFileId job reply after =>
        cases of_decide_eq_true hc
        obtain ⟨⟨_, rfl, hallowed⟩, -⟩ := h
        by_cases hw : w = other
        · subst hw
          have := begunBy_le w id log
          omega
        · have := begunBy_add id hw log
          omega
      · cases hc

private theorem createsFor_le {db : Database} {log : List Event} {authHash requestHash : String}
    (id : JobId) (h : ∀ row ∈ db.jobs, row.authHash = authHash → row.requestHash = requestHash →
      row.id = id.text) :
    log.countP (Event.createsFor db authHash requestHash) ≤ log.countP (Event.creates id) := by
  refine List.countP_mono_left fun event _ hfor => ?_
  unfold Event.createsFor at hfor
  split at hfor
  next w auth inputFileId job reply after =>
    obtain ⟨row, hrow, hkey⟩ := Option.any_eq_true _ _ |>.mp hfor
    simp only [Bool.and_eq_true, decide_eq_true_eq] at hkey
    have hid := h row (Database.row?_mem hrow) hkey.1 hkey.2
    rw [Database.row?_id hrow] at hid
    exact decide_eq_true (congrArg JobId.mk hid)
  · cases hfor

/-- Over the whole history of a store, through any interleaving of clients, workers, provider
replies, store failures and restarts, the driver calls create_batch only for registered jobs and
at most once for each (auth_hash, request_hash). -/
theorem create_batch_at_most_once {c : Codec} {start fleet : Fleet} (hi : start.Initial)
    (h : Fleet.Run c start fleet) :
    (∀ authHash requestHash,
      fleet.world.log.countP (Event.createsFor fleet.world.db authHash requestHash) ≤ 1) ∧
    ∀ event ∈ fleet.world.log, ∀ id, event.creates id = true → (fleet.world.db.row? id).isSome = true := by
  obtain ⟨hs, -⟩ := Fleet.Run.sound h hi.sound
  constructor
  · intro authHash requestHash
    by_cases hrow : ∃ row ∈ fleet.world.db.jobs, row.authHash = authHash ∧ row.requestHash = requestHash
    · obtain ⟨row, hrow, hauth, hrequest⟩ := hrow
      refine Nat.le_trans (createsFor_le ⟨row.id⟩ fun other hother ha hr => ?_)
        (hs.lawful.creates_le_one (Fleet.Run.submittedOnce h hi ⟨row.id⟩).1)
      rw [hs.wellFormed.id_unique hother hrow (ha.trans hauth.symm) (hr.trans hrequest.symm)]
    · refine Nat.le_trans (createsFor_le ⟨""⟩ fun other hother ha hr => ?_)
        (hs.lawful.creates_le_one (Fleet.Run.submittedOnce h hi ⟨""⟩).1)
      exact (hrow ⟨other, hother, ha, hr⟩).elim
  · intro event hevent id hcreates
    obtain ⟨w, hw⟩ := creates_begun (List.countP_pos_iff.mpr ⟨event, hevent, hcreates⟩)
    have hbegun := hs.lawful.createdBy_le w id
    have hle := begunBy_le w id fleet.world.log
    obtain ⟨row, hrow, -⟩ := (Fleet.Run.submittedOnce h hi id).2 (by omega)
    rw [hrow]
    rfl

/-- A job whose row starts out past its upload is never submitted. -/
theorem Fleet.Run.never_created {c : Codec} {start fleet : Fleet} (h : Fleet.Run c start fleet)
    (hi : start.Initial) {id : JobId} {row : JobRow} (hrow : start.world.db.row? id = some row)
    (hpast : 2 ≤ row.status.stage) : ∀ event ∈ fleet.world.log, event.creates id = false := by
  have hnone : fleet.world.log.countP (Event.begins id) = 0 ∧
      ∃ row, fleet.world.db.row? id = some row ∧ 2 ≤ row.status.stage := by
    induction h with
    | refl =>
      rw [hi.log]
      exact ⟨rfl, row, hrow, hpast⟩
    | @tail before after hrun hstep ih =>
      obtain ⟨hzero, row', hrow', hpast'⟩ := ih
      have hsound := (Fleet.Run.sound hrun hi.sound).1
      obtain ⟨next, hnext, hforward⟩ := hstep.forward hsound id row' hrow'
      refine ⟨?_, next, hnext, Nat.le_trans hpast' hforward.stage_le⟩
      cases hstep with
      | perform w worker op reply phase db found takes answers =>
        have performs : World.Performs c w op before.world reply
            ⟨db, .performed w op reply db :: before.world.log⟩ := ⟨answers, rfl⟩
        cases hb : (Event.performed w op reply db).begins id with
        | false => rw [List.countP_cons, hb, hzero]; rfl
        | true =>
          -- A submission needs the row uploaded.
          obtain ⟨⟨uploaded, huploaded, hone⟩, -⟩ := begins_cases performs hsound.wellFormed hb
          rw [hrow'] at huploaded
          cases huploaded
          omega
      | enqueue | subscribe => rw [List.countP_cons, hzero]; rfl
      | _ => exact hzero
  intro event hevent
  by_contra hcreates
  rw [Bool.not_eq_false] at hcreates
  obtain ⟨w, hw⟩ := creates_begun (List.countP_pos_iff.mpr ⟨event, hevent, hcreates⟩)
  have hbegun := (Fleet.Run.sound h hi.sound).1.lawful.createdBy_le w id
  have hle := begunBy_le w id fleet.world.log
  omega

/-- A worker on an uploaded job that has called create_batch and lost the reply. -/
theorem lost_create_reply_is_not_repeated :
    let c : Codec := Json.compact
    let row : JobRow := { JobRow.queued "job" "auth" "request" "model" with
      status := .uploaded, inputFileId := some "file" }
    let submitting : JobRow := { row with status := .submitting, submissionStartedAt := some "now" }
    let job : Job := ⟨⟨"job"⟩, "model", .uploaded ⟨"file"⟩⟩
    let auth : UpstreamAuth := ⟨"key", none, none⟩
    ∀ fleet, Fleet.Run c ⟨⟨⟨[submitting], []⟩,
        [.performed 0 (.createBatch auth ⟨"file"⟩ ⟨"job"⟩) (.error (.transport "reset")) ⟨[submitting], []⟩,
          .performed 0 (.transition (.beginSubmission ⟨"job"⟩ ⟨"file"⟩)) (.ok (.submitting ⟨"file"⟩ ⟨"now"⟩))
            ⟨[submitting], []⟩,
          .subscribed 0 job, .stored ⟨[row], []⟩]⟩, [], fun _ => none, 1⟩ fleet →
      fleet.world.log.countP (Event.createsFor fleet.world.db "auth" "request") ≤ 1 := by
  intro c row submitting job auth fleet hfleet
  let start : Fleet := ⟨⟨⟨[row], []⟩, [.stored ⟨[row], []⟩]⟩, [], fun _ => none, 0⟩
  have hi : start.Initial := by
    refine ⟨⟨?_, ?_, ?_, ?_, ?_⟩, rfl, rfl, rfl⟩ <;> simp [start, Database.UniqueIds]
  have hrun : Fleet.Run c start fleet := by
    refine Relation.ReflTransGen.trans ?_ hfleet
    exact (((((Relation.ReflTransGen.single (.read start ⟨"job"⟩ job rfl)).tail
      (.subscribe _ auth .null job List.mem_cons_self rfl)).tail
      (.perform _ 0 _ (.transition (.beginSubmission ⟨"job"⟩ ⟨"file"⟩))
        (Except.ok (.submitting ⟨"file"⟩ ⟨"now"⟩)) _ ⟨[submitting], []⟩ rfl (.advancing _)
        ⟨⟨"now"⟩, .none, rfl⟩)).tail
      (.perform _ 0 _ (.createBatch auth ⟨"file"⟩ ⟨"job"⟩) (Except.error (.transport "reset")) _
        ⟨[submitting], []⟩ rfl (.advancing _) rfl)).tail (.crash _))
  exact (create_batch_at_most_once hi hrun).1 "auth" "request"

end Kaiion.Durable

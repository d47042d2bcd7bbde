import Kaiion.Durable.Domain
import Kaiion.Foundation.Result
import Mathlib.Data.List.Basic
import Mathlib.Data.List.Nodup

/-! The two tables of the durable store and the statements that change a job row.
Rows hold raw columns; a typed job is decoded from a row on every read. -/
namespace Kaiion.Durable
open Foundation

inductive PersistenceError where
  | database (message : String)
  | invalidJob (jobId reason : String)
  | transitionConflict (jobId expected : String)
  | notFound (jobId : String)
  deriving DecidableEq, Repr

def PersistenceError.isConflict : PersistenceError → Bool
  | .transitionConflict _ _ => true
  | _ => false

def PersistenceError.message : PersistenceError → String
  | .database message => "database error: " ++ message
  | .invalidJob jobId reason => "invalid persisted job " ++ jobId ++ ": " ++ reason
  | .transitionConflict jobId expected =>
      "job " ++ jobId ++ " transition conflict; expected " ++ expected
  | .notFound jobId => "job " ++ jobId ++ " not found"

/-- A row of `jobs`, without the two bookkeeping timestamps nothing below reads. -/
structure JobRow where
  id : String
  authHash : String
  requestHash : String
  model : String
  status : Status
  inputFileId : Option String
  batchId : Option String
  submissionStartedAt : Option String
  outcomeJson : Option String
  deriving DecidableEq, Repr

/-- A row of `job_requests`. -/
structure RequestRow where
  jobId : String
  provider : String
  authHash : String
  idempotencyHash : Option String
  bodyJson : String
  deriving DecidableEq, Repr

structure Database where
  jobs : List JobRow
  jobRequests : List RequestRow
  deriving DecidableEq, Repr

/-- The CHECK clause that ties the optional columns of a job row to its status. -/
def JobRow.check (c : Codec) (row : JobRow) : Bool :=
  match row.status with
  | .queued => row.inputFileId.isNone && row.batchId.isNone && row.submissionStartedAt.isNone &&
      row.outcomeJson.isNone
  | .uploaded => row.inputFileId.isSome && row.batchId.isNone && row.submissionStartedAt.isNone &&
      row.outcomeJson.isNone
  | .submitting | .submissionUncertain => row.inputFileId.isSome && row.batchId.isNone &&
      row.submissionStartedAt.isSome && row.outcomeJson.isNone
  | .submitted => row.inputFileId.isNone && row.batchId.isSome && row.submissionStartedAt.isNone &&
      row.outcomeJson.isNone
  | .completed | .failed | .incomplete | .expired | .cancelled =>
      row.inputFileId.isNone && row.batchId.isNone && row.submissionStartedAt.isNone &&
      row.outcomeJson.any c.jsonValid

def JobRow.reject (row : JobRow) (present : Bool) (column : String) : Except PersistenceError Unit :=
  if present then .error (.invalidJob row.id ("unexpected " ++ column)) else .ok ()

def JobRow.require (row : JobRow) (value : Option String) (column : String) :
    Except PersistenceError String :=
  match value with
  | some text => .ok text
  | none => .error (.invalidJob row.id ("missing " ++ column))

/-- The outcome a terminal row holds. -/
def JobRow.outcome (c : Codec) (row : JobRow) (wrap : Value → StoredOutcome) :
    Except PersistenceError JobState := do
  row.reject row.inputFileId.isSome "input_file_id"
  row.reject row.batchId.isSome "batch_id"
  row.reject row.submissionStartedAt.isSome "submission_started_at"
  let encoded ← row.require row.outcomeJson "outcome_json"
  match c.parse encoded with
  | .ok value => return .terminal (wrap value)
  | .error error => .error (.invalidJob row.id ("invalid outcome_json: " ++ error))

/-- `TryFrom<RawJob> for Job`; the status column admits no text outside the ten. -/
def JobRow.tryFrom (c : Codec) (row : JobRow) : Except PersistenceError Job := do
  let state ← (match row.status with
    | .queued => do
      row.reject row.inputFileId.isSome "input_file_id"
      row.reject row.batchId.isSome "batch_id"
      row.reject row.submissionStartedAt.isSome "submission_started_at"
      row.reject row.outcomeJson.isSome "outcome_json"
      return .queued
    | .uploaded => do
      row.reject row.batchId.isSome "batch_id"
      row.reject row.submissionStartedAt.isSome "submission_started_at"
      row.reject row.outcomeJson.isSome "outcome_json"
      let inputFileId ← row.require row.inputFileId "input_file_id"
      return .uploaded ⟨inputFileId⟩
    | .submitting => do
      row.reject row.batchId.isSome "batch_id"
      row.reject row.outcomeJson.isSome "outcome_json"
      let inputFileId ← row.require row.inputFileId "input_file_id"
      let startedAt ← row.require row.submissionStartedAt "submission_started_at"
      return .submitting ⟨inputFileId⟩ ⟨startedAt⟩
    | .submissionUncertain => do
      row.reject row.batchId.isSome "batch_id"
      row.reject row.outcomeJson.isSome "outcome_json"
      let inputFileId ← row.require row.inputFileId "input_file_id"
      let startedAt ← row.require row.submissionStartedAt "submission_started_at"
      return .submissionUncertain ⟨inputFileId⟩ ⟨startedAt⟩
    | .submitted => do
      row.reject row.inputFileId.isSome "input_file_id"
      row.reject row.submissionStartedAt.isSome "submission_started_at"
      row.reject row.outcomeJson.isSome "outcome_json"
      let batchId ← row.require row.batchId "batch_id"
      return .submitted ⟨batchId⟩
    | .completed => row.outcome c .completed
    | .failed => row.outcome c .failed
    | .incomplete => row.outcome c .incomplete
    | .expired => row.outcome c .expired
    | .cancelled => row.outcome c .cancelled)
  return { id := ⟨row.id⟩, model := row.model, state }

def Database.row? (db : Database) (id : JobId) : Option JobRow :=
  db.jobs.find? (fun row => row.id = id.text)

def Database.get (c : Codec) (db : Database) (id : JobId) : Except PersistenceError Job :=
  match db.row? id with
  | some row => row.tryFrom c
  | none => .error (.notFound id.text)

def Database.find (c : Codec) (db : Database) (authHash requestHash : String) :
    Except PersistenceError (Option Job) :=
  match db.jobs.find? (fun row => row.authHash = authHash ∧ row.requestHash = requestHash) with
  | some row => (row.tryFrom c).map some
  | none => .ok none

/-- `UPDATE jobs SET .. WHERE .. RETURNING ..`: no affected row is a conflict, a violated CHECK
fails the whole statement, and otherwise the first affected row is decoded. -/
def Database.transition (c : Codec) (db : Database) (affected : JobRow → Bool)
    (set : JobRow → JobRow) (id : JobId) (expected : Status) :
    Database × Except PersistenceError JobState :=
  match db.jobs.find? affected with
  | none => (db, .error (.transitionConflict id.text expected.text))
  | some row =>
    if (db.jobs.filter affected).all (fun row => (set row).check c) then
      ({ db with jobs := db.jobs.map (fun row => if affected row then set row else row) },
        ((set row).tryFrom c).map Job.state)
    else (db, .error (.database "CHECK constraint failed: jobs"))

def Database.markUploaded (c : Codec) (db : Database) (id : JobId) (inputFileId : FileId) :
    Database × Except PersistenceError JobState :=
  db.transition c (fun row => row.id = id.text && row.status = .queued)
    (fun row => { row with status := .uploaded, inputFileId := some inputFileId.text })
    id .queued

def Database.beginSubmission (c : Codec) (db : Database) (now : Timestamp) (id : JobId)
    (inputFileId : FileId) : Database × Except PersistenceError JobState :=
  db.transition c
    (fun row => row.id = id.text && (row.status = .uploaded && row.inputFileId = some inputFileId.text))
    (fun row => { row with status := .submitting, submissionStartedAt := some now.text })
    id .uploaded

def Database.markSubmissionUncertain (c : Codec) (db : Database) (id : JobId) :
    Database × Except PersistenceError JobState :=
  db.transition c (fun row => row.id = id.text && row.status = .submitting)
    (fun row => { row with status := .submissionUncertain })
    id .submitting

def Database.markSubmitted (c : Codec) (db : Database) (id : JobId) (expected : JobState)
    (batchId : BatchId) : Database × Except PersistenceError JobState :=
  db.transition c (fun row => row.id = id.text && row.status = statusOf expected)
    (fun row => { row with
      status := .submitted, inputFileId := none, submissionStartedAt := none
      batchId := some batchId.text })
    id (statusOf expected)

def Database.storeOutcome (c : Codec) (db : Database) (id : JobId) (expected : JobState)
    (outcome : StoredOutcome) : Database × Except PersistenceError JobState :=
  db.transition c (fun row => row.id = id.text && row.status = statusOf expected)
    (fun row => { row with
      status := (encodeOutcome outcome).1, inputFileId := none, batchId := none
      submissionStartedAt := none, outcomeJson := some (c.print (encodeOutcome outcome).2) })
    id (statusOf expected)

theorem JobRow.outcome_ok {c : Codec} {row : JobRow} {wrap : Value → StoredOutcome} {state : JobState}
    (h : row.outcome c wrap = .ok state) : ∃ value, state = .terminal (wrap value) := by
  unfold JobRow.outcome at h
  obtain ⟨_, -, h⟩ := bind_ok h
  obtain ⟨_, -, h⟩ := bind_ok h
  obtain ⟨_, -, h⟩ := bind_ok h
  obtain ⟨encoded, -, h⟩ := bind_ok h
  cases hp : c.parse encoded with
  | ok value =>
    rw [hp] at h
    exact ⟨value, (Except.ok.inj h).symm⟩
  | error e =>
    rw [hp] at h
    cases h

theorem JobRow.tryFrom_ok {c : Codec} {row : JobRow} {job : Job} (h : row.tryFrom c = .ok job) :
    job.id = ⟨row.id⟩ ∧ job.model = row.model ∧ statusOf job.state = row.status := by
  unfold JobRow.tryFrom at h
  obtain ⟨state, hstate, h⟩ := bind_ok h
  cases Except.ok.inj h
  refine ⟨rfl, rfl, ?_⟩
  cases hs : row.status <;> simp only [hs] at hstate
  case completed | failed | incomplete | expired | cancelled =>
    obtain ⟨value, rfl⟩ := JobRow.outcome_ok hstate
    rfl
  case queued | uploaded | submitting | submissionUncertain | submitted =>
    obtain ⟨_, -, hstate⟩ := bind_ok hstate
    obtain ⟨_, -, hstate⟩ := bind_ok hstate
    obtain ⟨_, -, hstate⟩ := bind_ok hstate
    obtain ⟨_, -, hstate⟩ := bind_ok hstate
    cases Except.ok.inj hstate
    rfl

/-- The five transitions as one family. -/
inductive Transition where
  | markUploaded (id : JobId) (inputFileId : FileId)
  | beginSubmission (id : JobId) (inputFileId : FileId)
  | markSubmissionUncertain (id : JobId)
  | markSubmitted (id : JobId) (expected : JobState) (batchId : BatchId)
  | storeOutcome (id : JobId) (expected : JobState) (outcome : StoredOutcome)
  deriving DecidableEq

namespace Transition

/-- Run the statement; `now` is the database clock it stamps. -/
def run (c : Codec) (now : Timestamp) (db : Database) :
    Transition → Database × Except PersistenceError JobState
  | markUploaded id inputFileId => db.markUploaded c id inputFileId
  | beginSubmission id inputFileId => db.beginSubmission c now id inputFileId
  | markSubmissionUncertain id => db.markSubmissionUncertain c id
  | markSubmitted id expected batchId => db.markSubmitted c id expected batchId
  | storeOutcome id expected outcome => db.storeOutcome c id expected outcome

def id : Transition → JobId
  | markUploaded id _ | beginSubmission id _ | markSubmissionUncertain id
  | markSubmitted id _ _ | storeOutcome id _ _ => id

/-- The status the statement expects. -/
def expected : Transition → Status
  | markUploaded _ _ => .queued
  | beginSubmission _ _ => .uploaded
  | markSubmissionUncertain _ => .submitting
  | markSubmitted _ expected _ | storeOutcome _ expected _ => statusOf expected

/-- The status the statement writes. -/
def target : Transition → Status
  | markUploaded _ _ => .uploaded
  | beginSubmission _ _ => .submitting
  | markSubmissionUncertain _ => .submissionUncertain
  | markSubmitted _ _ _ => .submitted
  | storeOutcome _ _ outcome => (encodeOutcome outcome).1

/-- The WHERE clause, without the job id. -/
def affects (t : Transition) (row : JobRow) : Bool :=
  match t with
  | beginSubmission _ inputFileId =>
      row.status = .uploaded && row.inputFileId = some inputFileId.text
  | t => row.status = t.expected

def set (c : Codec) (now : Timestamp) (row : JobRow) : Transition → JobRow
  | markUploaded _ inputFileId => { row with status := .uploaded, inputFileId := some inputFileId.text }
  | beginSubmission _ _ => { row with status := .submitting, submissionStartedAt := some now.text }
  | markSubmissionUncertain _ => { row with status := .submissionUncertain }
  | markSubmitted _ _ batchId => { row with
      status := .submitted, inputFileId := none, submissionStartedAt := none
      batchId := some batchId.text }
  | storeOutcome _ _ outcome => { row with
      status := (encodeOutcome outcome).1, inputFileId := none, batchId := none
      submissionStartedAt := none, outcomeJson := some (c.print (encodeOutcome outcome).2) }

theorem run_eq (c : Codec) (now : Timestamp) (db : Database) (t : Transition) :
    t.run c now db = db.transition c (fun row => row.id = t.id.text && t.affects row)
      (fun row => t.set c now row) t.id t.expected := by
  cases t <;> rfl

theorem set_id (c : Codec) (now : Timestamp) (row : JobRow) (t : Transition) :
    (t.set c now row).id = row.id := by cases t <;> rfl

theorem set_identity (c : Codec) (now : Timestamp) (row : JobRow) (t : Transition) :
    (t.set c now row).authHash = row.authHash ∧ (t.set c now row).requestHash = row.requestHash ∧
      (t.set c now row).model = row.model := by cases t <;> exact ⟨rfl, rfl, rfl⟩

theorem set_status (c : Codec) (now : Timestamp) (row : JobRow) (t : Transition) :
    (t.set c now row).status = t.target := by cases t <;> rfl

theorem affects_status {t : Transition} {row : JobRow} (h : t.affects row = true) :
    row.status = t.expected := by
  cases t with
  | beginSubmission id inputFileId =>
    simp only [affects, Bool.and_eq_true, decide_eq_true_eq] at h
    exact h.1
  | _ => exact of_decide_eq_true h

end Transition

def Database.UniqueIds (db : Database) : Prop := (db.jobs.map JobRow.id).Nodup

/-- Overwrite the row of one job. -/
def Database.replace (db : Database) (id : JobId) (row' : JobRow) : Database :=
  { db with jobs := db.jobs.map (fun row => if row.id = id.text then row' else row) }

theorem Database.row?_id {db : Database} {id : JobId} {row : JobRow} (h : db.row? id = some row) :
    row.id = id.text := by
  simpa using List.find?_some h

theorem Database.row?_mem {db : Database} {id : JobId} {row : JobRow} (h : db.row? id = some row) :
    row ∈ db.jobs := List.mem_of_find?_eq_some h

theorem Database.UniqueIds.eq_of_id {db : Database} (hu : db.UniqueIds) {a b : JobRow}
    (ha : a ∈ db.jobs) (hb : b ∈ db.jobs) (h : a.id = b.id) : a = b :=
  List.inj_on_of_nodup_map hu ha hb h

/-- Every row is found by its id. -/
theorem Database.UniqueIds.row?_of_mem {db : Database} (hu : db.UniqueIds) {row : JobRow} (h : row ∈ db.jobs) :
    db.row? ⟨row.id⟩ = some row := by
  cases hfind : db.row? ⟨row.id⟩ with
  | none => exact absurd (decide_eq_true rfl) (List.find?_eq_none.mp hfind row h)
  | some found => rw [hu.eq_of_id (Database.row?_mem hfind) h (Database.row?_id hfind)]

theorem Database.replace_row? {db : Database} {id : JobId} {row row' : JobRow}
    (h : db.row? id = some row) (hid : row'.id = id.text) :
    (db.replace id row').row? id = some row' := by
  unfold Database.row? Database.replace at *
  generalize db.jobs = jobs at h ⊢
  induction jobs with
  | nil => simp at h
  | cons a jobs ih =>
    by_cases ha : a.id = id.text
    · simp [ha, hid]
    · simp only [List.find?_cons, ha, decide_false] at h
      simpa [ha] using ih h

theorem Database.replace_row?_ne {db : Database} {id other : JobId} {row' : JobRow}
    (hid : row'.id = id.text) (h : other ≠ id) : (db.replace id row').row? other = db.row? other := by
  have hne : id.text ≠ other.text := by
    intro he
    cases id; cases other
    simp_all
  unfold Database.row? Database.replace
  generalize db.jobs = jobs
  induction jobs with
  | nil => rfl
  | cons a jobs ih =>
    by_cases ha : a.id = id.text
    · simpa [ha, hid, hne] using ih
    · by_cases hb : a.id = other.text
      · simp [hb, hne.symm]
      · simpa [ha, hb] using ih

/-- A statement on a missing job is a conflict. -/
theorem Transition.run_of_none (c : Codec) (now : Timestamp) {db : Database} (t : Transition)
    (hrow : db.row? t.id = none) :
    t.run c now db = (db, .error (.transitionConflict t.id.text t.expected.text)) := by
  have hnone : db.jobs.find? (fun row => row.id = t.id.text && t.affects row) = none := by
    refine List.find?_eq_none.mpr fun row hmem h => ?_
    rw [Bool.and_eq_true] at h
    exact List.find?_eq_none.mp hrow row hmem h.1
  rw [Transition.run_eq]
  unfold Database.transition
  rw [hnone]

/-- A statement on the row of its job: refused by its WHERE clause, refused by the CHECK, or done. -/
theorem Transition.run_of_row (c : Codec) (now : Timestamp) {db : Database} (hu : db.UniqueIds)
    (t : Transition) {row : JobRow} (hrow : db.row? t.id = some row) :
    t.run c now db =
      if t.affects row then
        if (t.set c now row).check c then
          (db.replace t.id (t.set c now row), ((t.set c now row).tryFrom c).map Job.state)
        else (db, .error (.database "CHECK constraint failed: jobs"))
      else (db, .error (.transitionConflict t.id.text t.expected.text)) := by
  have hmem := Database.row?_mem hrow
  have hid := Database.row?_id hrow
  -- The id selects this row and no other.
  have honly : ∀ other ∈ db.jobs, other.id = t.id.text → other = row := fun other hother h =>
    hu.eq_of_id hother hmem (h.trans hid.symm)
  rw [Transition.run_eq]
  unfold Database.transition
  cases ha : t.affects row with
  | false =>
    have hnone : db.jobs.find? (fun row => row.id = t.id.text && t.affects row) = none := by
      refine List.find?_eq_none.mpr fun other hother h => ?_
      obtain ⟨hother', haffects⟩ : other.id = t.id.text ∧ t.affects other = true := by simpa using h
      rw [honly other hother hother', ha] at haffects
      cases haffects
    rw [hnone]
    rfl
  | true =>
    have hfind : db.jobs.find? (fun row => row.id = t.id.text && t.affects row) = some row := by
      cases hf : db.jobs.find? (fun row => row.id = t.id.text && t.affects row) with
      | none => simpa [hid, ha] using List.find?_eq_none.mp hf row hmem
      | some found =>
        have hfound : found.id = t.id.text ∧ t.affects found = true := by simpa using List.find?_some hf
        rw [honly found (List.mem_of_find?_eq_some hf) hfound.1]
    have hall : (db.jobs.filter (fun row => row.id = t.id.text && t.affects row)).all
        (fun row => (t.set c now row).check c) = (t.set c now row).check c := by
      have hsome : row ∈ db.jobs.filter (fun row => row.id = t.id.text && t.affects row) :=
        List.mem_filter.mpr ⟨hmem, by simp [hid, ha]⟩
      refine Bool.eq_iff_iff.mpr ⟨fun h => List.all_eq_true.mp h row hsome, fun h => ?_⟩
      refine List.all_eq_true.mpr fun other hother => ?_
      obtain ⟨hother, hmatch⟩ := List.mem_filter.mp hother
      have hmatch : other.id = t.id.text ∧ t.affects other = true := by simpa using hmatch
      rw [honly other hother hmatch.1, h]
    rw [hfind]
    dsimp only
    rw [hall, if_pos rfl]
    split
    · congr 1
      unfold Database.replace
      congr 1
      refine List.map_congr_left fun other hother => ?_
      by_cases h : other.id = t.id.text
      · rw [honly other hother h]
        simp [hid, ha]
      · simp [h]
    · rfl

/-- What one transition can do: report an error and change nothing, because no row matches its
WHERE clause or the new row violates the CHECK, or rewrite the one matching row and decode it. -/
theorem Transition.run_cases (c : Codec) (now : Timestamp) {db : Database} (hu : db.UniqueIds)
    (t : Transition) :
    (∃ error, t.run c now db = (db, .error error) ∧ ∀ row, db.row? t.id = some row →
      t.affects row = true → (t.set c now row).check c = false) ∨
    (∃ row, db.row? t.id = some row ∧ t.affects row = true ∧ (t.set c now row).check c = true ∧
      t.run c now db = (db.replace t.id (t.set c now row),
        ((t.set c now row).tryFrom c).map Job.state)) := by
  cases hrow : db.row? t.id with
  | none => exact Or.inl ⟨_, t.run_of_none c now hrow, fun row h => by cases h⟩
  | some row =>
    have hrun := t.run_of_row c now hu hrow
    cases ha : t.affects row with
    | false =>
      rw [ha, if_neg Bool.false_ne_true] at hrun
      refine Or.inl ⟨_, hrun, fun other hother haffects => ?_⟩
      cases hother
      rw [ha] at haffects
      cases haffects
    | true =>
      rw [ha, if_pos rfl] at hrun
      cases hc : (t.set c now row).check c with
      | false =>
        rw [hc, if_neg Bool.false_ne_true] at hrun
        refine Or.inl ⟨_, hrun, fun other hother _ => ?_⟩
        cases hother
        exact hc
      | true =>
        rw [hc, if_pos rfl] at hrun
        exact Or.inr ⟨row, rfl, ha, hc, hrun⟩

/-- How a statement of the store goes wrong: it is rolled back, or it takes effect and only its
reply is lost. -/
inductive Fault where
  | none
  | failed (message : String)
  | unacknowledged (message : String)

/-- The store and the reply after a statement that would have ended with `result`; `wrap` is
the caller's error for a database message. -/
def Fault.apply {ε α : Type} (wrap : String → ε) (db : Database) (result : Database × Except ε α) :
    Fault → Database × Except ε α
  | .none => result
  | .failed message => (db, .error (wrap message))
  | .unacknowledged message => (result.1, .error (wrap message))

theorem Fault.apply_fst {ε α : Type} (wrap : String → ε) (db : Database)
    (result : Database × Except ε α) (fault : Fault) :
    (fault.apply wrap db result).1 = db ∨ (fault.apply wrap db result).1 = result.1 := by
  cases fault with
  | failed message => exact Or.inl rfl
  | _ => exact Or.inr rfl

/-- Only a statement that went through replies with a value. -/
theorem Fault.apply_ok {ε α : Type} {wrap : String → ε} {db db' : Database}
    {result : Database × Except ε α} {fault : Fault} {value : α}
    (h : fault.apply wrap db result = (db', .ok value)) : result = (db', .ok value) := by
  cases fault with
  | none => exact h
  | _ => cases h

/-- A row is untouched, or keeps its identity and reaches a later stage. -/
def JobRow.Forward (row row' : JobRow) : Prop :=
  row' = row ∨ row'.id = row.id ∧ row'.authHash = row.authHash ∧ row'.requestHash = row.requestHash ∧
    row'.model = row.model ∧ row.status.stage < row'.status.stage

theorem JobRow.Forward.trans {a b d : JobRow} (h : a.Forward b) (h' : b.Forward d) : a.Forward d := by
  rcases h with rfl | ⟨hi, ha, hr, hm, hs⟩
  · exact h'
  · rcases h' with rfl | ⟨hi', ha', hr', hm', hs'⟩
    · exact Or.inr ⟨hi, ha, hr, hm, hs⟩
    · exact Or.inr ⟨hi'.trans hi, ha'.trans ha, hr'.trans hr, hm'.trans hm, Nat.lt_trans hs hs'⟩

theorem JobRow.Forward.stage_le {row row' : JobRow} (h : row.Forward row') :
    row.status.stage ≤ row'.status.stage := by
  rcases h with rfl | ⟨_, _, _, _, hs⟩
  · exact Nat.le_refl _
  · exact Nat.le_of_lt hs

/-- Nothing lies beyond the last stage, so a terminal row keeps every column. -/
theorem JobRow.Forward.eq_of_terminal {row row' : JobRow} (h : row.Forward row')
    (ht : row.status.stage = 5) : row' = row := by
  rcases h with rfl | ⟨_, _, _, _, hs⟩
  · rfl
  · have := row'.status.stage_le
    omega

/-- Every row of the first database is still there, at the same or a later stage. -/
def Database.Forward (db db' : Database) : Prop :=
  ∀ id row, db.row? id = some row → ∃ row', db'.row? id = some row' ∧ row.Forward row'

theorem Database.Forward.refl (db : Database) : db.Forward db := fun _ row h => ⟨row, h, Or.inl rfl⟩

theorem Database.Forward.trans {a b d : Database} (h : a.Forward b) (h' : b.Forward d) :
    a.Forward d := by
  intro id row hrow
  obtain ⟨row', hrow', hf⟩ := h id row hrow
  obtain ⟨row'', hrow'', hf'⟩ := h' id row' hrow'
  exact ⟨row'', hrow'', hf.trans hf'⟩

/-- The transition writes a later stage than the one it expects. -/
def Transition.Advances (t : Transition) : Prop := t.expected.stage < t.target.stage

theorem Transition.run_row?_ne (c : Codec) (now : Timestamp) {db : Database} (hu : db.UniqueIds)
    (t : Transition) {id : JobId} (hne : id ≠ t.id) : (t.run c now db).1.row? id = db.row? id := by
  rcases t.run_cases c now hu with ⟨error, h, -⟩ | ⟨row, hrow, -, -, h⟩
  · rw [h]
  · rw [h]
    exact Database.replace_row?_ne ((t.set_id c now row).trans (Database.row?_id hrow)) hne

theorem Transition.run_forward (c : Codec) (now : Timestamp) {db : Database} (hu : db.UniqueIds)
    {t : Transition} (ht : t.Advances) : db.Forward (t.run c now db).1 := by
  rcases t.run_cases c now hu with ⟨error, h, -⟩ | ⟨row, hrow, ha, -, h⟩
  · rw [h]
    exact .refl db
  · rw [h]
    have hid : (t.set c now row).id = t.id.text := (t.set_id c now row).trans (Database.row?_id hrow)
    intro id old hold
    by_cases hi : id = t.id
    · subst hi
      rw [hrow] at hold
      cases hold
      obtain ⟨h1, h2, h3⟩ := t.set_identity c now row
      refine ⟨_, Database.replace_row? hrow hid, Or.inr ⟨t.set_id c now row, h1, h2, h3, ?_⟩⟩
      rw [t.set_status, Transition.affects_status ha]
      exact ht
    · exact ⟨old, (Database.replace_row?_ne hid hi).trans hold, Or.inl rfl⟩

end Kaiion.Durable

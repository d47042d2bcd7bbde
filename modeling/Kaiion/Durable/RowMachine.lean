import Kaiion.Durable.Database
import Kaiion.Json.Print

/-! The typed job state machine, and that the rows of the table refine it: a row is the encoding of
one typed state, and a statement takes it to the encoding of the next. -/
namespace Kaiion.Durable
open Foundation

def JobState.inputFileId : JobState → Option String
  | .uploaded inputFileId | .submitting inputFileId _ | .submissionUncertain inputFileId _ => some inputFileId.text
  | _ => none

def JobState.submissionStartedAt : JobState → Option String
  | .submitting _ startedAt | .submissionUncertain _ startedAt => some startedAt.text
  | _ => none

def JobState.batchId : JobState → Option String
  | .submitted batchId => some batchId.text
  | _ => none

/-- The outcome column holds a valid text of the outcome, and is null before there is one. -/
def JobState.OutcomeIn (c : Codec) (outcomeJson : Option String) : JobState → Prop
  | .terminal outcome => ∃ text, outcomeJson = some text ∧ c.jsonValid text = true ∧
      c.parse text = .ok (encodeOutcome outcome).2
  | _ => outcomeJson = none

/-- The row encodes the typed state. -/
structure JobRow.Encodes (c : Codec) (row : JobRow) (state : JobState) : Prop where
  status : row.status = statusOf state
  inputFileId : row.inputFileId = state.inputFileId
  batchId : row.batchId = state.batchId
  submissionStartedAt : row.submissionStartedAt = state.submissionStartedAt
  outcome : state.OutcomeIn c row.outcomeJson

/-- The typed state meets the WHERE clause of the statement. -/
def Transition.accepts (state : JobState) : Transition → Bool
  | .beginSubmission _ inputFileId => state = .uploaded inputFileId
  | t => statusOf state = t.expected

/-- The typed state an accepted statement leads to; a stored outcome cannot be kept beside a batch. -/
def Transition.successor (now : Timestamp) (state : JobState) : Transition → Option JobState
  | .markUploaded _ inputFileId => some (.uploaded inputFileId)
  | .beginSubmission _ inputFileId => some (.submitting inputFileId now)
  | .markSubmissionUncertain _ =>
    match state with
    | .submitting inputFileId startedAt => some (.submissionUncertain inputFileId startedAt)
    | _ => none
  | .markSubmitted _ _ batchId => if state.isTerminal then none else some (.submitted batchId)
  | .storeOutcome _ _ outcome => some (.terminal outcome)

/-- The outcome the statement prints, if it prints one, survives its column. -/
def Transition.Keeps (c : Codec) : Transition → Prop
  | .storeOutcome _ _ outcome => c.RoundTrips (encodeOutcome outcome).2
  | _ => True

variable {c : Codec} {row : JobRow} {state : JobState}

/-- A row that encodes a typed state passes the CHECK. -/
theorem JobRow.Encodes.check (h : row.Encodes c state) : row.check c = true := by
  obtain ⟨hstatus, hfile, hbatch, hstarted, houtcome⟩ := h
  unfold JobRow.check
  cases state with
  | terminal outcome =>
    obtain ⟨text, htext, hvalid, -⟩ := houtcome
    cases outcome <;> simp [hstatus, hfile, hbatch, hstarted, htext, hvalid, statusOf,
      JobState.inputFileId, JobState.batchId, JobState.submissionStartedAt]
  | _ =>
    have houtcome : row.outcomeJson = none := houtcome
    simp [hstatus, hfile, hbatch, hstarted, houtcome, statusOf,
      JobState.inputFileId, JobState.batchId, JobState.submissionStartedAt]

/-- A row that encodes a typed state is decoded to it. -/
theorem JobRow.Encodes.tryFrom (h : row.Encodes c state) :
    row.tryFrom c = .ok { id := ⟨row.id⟩, model := row.model, state } := by
  obtain ⟨hstatus, hfile, hbatch, hstarted, houtcome⟩ := h
  unfold JobRow.tryFrom
  cases state with
  | terminal outcome =>
    obtain ⟨text, htext, -, hparse⟩ := houtcome
    cases outcome <;> simp_all [statusOf, JobRow.outcome, JobRow.reject, JobRow.require, encodeOutcome,
      JobState.inputFileId, JobState.batchId, JobState.submissionStartedAt, bind, Except.bind, pure, Except.pure]
  | _ =>
    have houtcome : row.outcomeJson = none := houtcome
    simp [hstatus, hfile, hbatch, hstarted, houtcome, statusOf, JobRow.reject, JobRow.require,
      JobState.inputFileId, JobState.batchId, JobState.submissionStartedAt, bind, Except.bind, pure, Except.pure]

private theorem JobRow.encodes_terminal (wrap : Value → StoredOutcome)
    (hwrap : ∀ value, encodeOutcome (wrap value) = (row.status, value))
    (h : ((row.inputFileId = none ∧ row.batchId = none) ∧ row.submissionStartedAt = none) ∧
      row.outcomeJson.any c.jsonValid = true)
    (hparse : ∀ text, row.outcomeJson = some text → ∃ value, c.parse text = .ok value) :
    ∃ state, row.Encodes c state := by
  obtain ⟨⟨⟨hfile, hbatch⟩, hstarted⟩, houtcome⟩ := h
  obtain ⟨text, htext⟩ : ∃ text, row.outcomeJson = some text := by
    refine Option.ne_none_iff_exists'.mp fun hnone => ?_
    rw [hnone] at houtcome
    cases houtcome
  rw [htext] at houtcome
  obtain ⟨value, hvalue⟩ := hparse text htext
  refine ⟨.terminal (wrap value), ?_, hfile, hbatch, hstarted, text, htext, houtcome, ?_⟩
  · rw [statusOf_terminal, hwrap]
  · rw [hwrap, hvalue]

/-- A row that passes the CHECK encodes a typed state, once its outcome text parses. -/
theorem JobRow.encodes_of_check (h : row.check c = true)
    (hparse : ∀ text, row.outcomeJson = some text → ∃ value, c.parse text = .ok value) :
    ∃ state, row.Encodes c state := by
  unfold JobRow.check at h
  cases hstatus : row.status
  all_goals simp only [hstatus, Bool.and_eq_true, Option.isNone_iff_eq_none, Option.isSome_iff_exists] at h
  case queued =>
    obtain ⟨⟨⟨hfile, hbatch⟩, hstarted⟩, houtcome⟩ := h
    exact ⟨.queued, hstatus, hfile, hbatch, hstarted, houtcome⟩
  case uploaded =>
    obtain ⟨⟨⟨⟨file, hfile⟩, hbatch⟩, hstarted⟩, houtcome⟩ := h
    exact ⟨.uploaded ⟨file⟩, hstatus, hfile, hbatch, hstarted, houtcome⟩
  case submitting =>
    obtain ⟨⟨⟨⟨file, hfile⟩, hbatch⟩, ⟨started, hstarted⟩⟩, houtcome⟩ := h
    exact ⟨.submitting ⟨file⟩ ⟨started⟩, hstatus, hfile, hbatch, hstarted, houtcome⟩
  case submissionUncertain =>
    obtain ⟨⟨⟨⟨file, hfile⟩, hbatch⟩, ⟨started, hstarted⟩⟩, houtcome⟩ := h
    exact ⟨.submissionUncertain ⟨file⟩ ⟨started⟩, hstatus, hfile, hbatch, hstarted, houtcome⟩
  case submitted =>
    obtain ⟨⟨⟨hfile, ⟨batch, hbatch⟩⟩, hstarted⟩, houtcome⟩ := h
    exact ⟨.submitted ⟨batch⟩, hstatus, hfile, hbatch, hstarted, houtcome⟩
  case completed => exact JobRow.encodes_terminal .completed (fun _ => by rw [hstatus]; rfl) h hparse
  case failed => exact JobRow.encodes_terminal .failed (fun _ => by rw [hstatus]; rfl) h hparse
  case incomplete => exact JobRow.encodes_terminal .incomplete (fun _ => by rw [hstatus]; rfl) h hparse
  case expired => exact JobRow.encodes_terminal .expired (fun _ => by rw [hstatus]; rfl) h hparse
  case cancelled => exact JobRow.encodes_terminal .cancelled (fun _ => by rw [hstatus]; rfl) h hparse

private theorem JobRow.outcome_parses {wrap : Value → StoredOutcome} (h : row.outcome c wrap = .ok state) :
    ∀ text, row.outcomeJson = some text → ∃ value, c.parse text = .ok value := by
  intro text htext
  unfold JobRow.outcome at h
  obtain ⟨_, -, h⟩ := bind_ok h
  obtain ⟨_, -, h⟩ := bind_ok h
  obtain ⟨_, -, h⟩ := bind_ok h
  obtain ⟨encoded, hencoded, h⟩ := bind_ok h
  rw [htext] at hencoded
  cases hencoded
  cases hvalue : c.parse text with
  | ok value => exact ⟨value, rfl⟩
  | error error =>
    rw [hvalue] at h
    cases h

/-- A row that passes the CHECK is decoded exactly when its outcome text, if any, parses. -/
theorem JobRow.tryFrom_iff (h : row.check c = true) : (∃ job, row.tryFrom c = .ok job) ↔
    ∀ text, row.outcomeJson = some text → ∃ value, c.parse text = .ok value := by
  constructor
  · rintro ⟨job, hjob⟩ text htext
    unfold JobRow.check at h
    unfold JobRow.tryFrom at hjob
    obtain ⟨state, hstate, -⟩ := bind_ok hjob
    cases hstatus : row.status
    all_goals simp only [hstatus, htext, Option.isNone_some, Bool.and_false, Bool.false_eq_true] at h hstate
    all_goals exact JobRow.outcome_parses hstate text htext
  · intro hparse
    obtain ⟨state, hstate⟩ := JobRow.encodes_of_check h hparse
    exact ⟨_, hstate.tryFrom⟩

/-- What a row that passes the CHECK is decoded to is what it encodes. -/
theorem JobRow.encodes_of_tryFrom {job : Job} (h : row.check c = true) (hjob : row.tryFrom c = .ok job) :
    row.Encodes c job.state ∧ job = { id := ⟨row.id⟩, model := row.model, state := job.state } := by
  obtain ⟨state, hstate⟩ := JobRow.encodes_of_check h ((JobRow.tryFrom_iff h).mp ⟨job, hjob⟩)
  cases hstate.tryFrom.symm.trans hjob
  exact ⟨hstate, rfl⟩

/-- The WHERE clause asks for the same on the row and on its typed state. -/
theorem Transition.affects_eq (t : Transition) (h : row.Encodes c state) :
    t.affects row = t.accepts state := by
  cases t with
  | beginSubmission id inputFileId =>
    have hcolumn : (row.status = .uploaded ∧ row.inputFileId = some inputFileId.text) ↔
        state = .uploaded inputFileId := by
      rw [h.status, h.inputFileId]
      constructor
      · rintro ⟨hstatus, hfile⟩
        cases state with
        | uploaded file =>
          cases file
          cases inputFileId
          cases hfile
          rfl
        | terminal outcome => cases outcome <;> cases hstatus
        | _ => cases hstatus
      · rintro rfl
        exact ⟨rfl, rfl⟩
    simp [Transition.affects, Transition.accepts, ← hcolumn]
  | _ => simp [Transition.affects, Transition.accepts, h.status]

/-- An accepted statement writes the encoding of the next state, or violates the CHECK. -/
theorem Transition.set_encodes (now : Timestamp) {t : Transition} (hkeeps : t.Keeps c)
    (h : row.Encodes c state) (haccepts : t.accepts state = true) :
    match t.successor now state with
    | some next => (t.set c now row).Encodes c next
    | none => (t.set c now row).check c = false := by
  obtain ⟨-, hfile, hbatch, hstarted, houtcome⟩ := h
  cases t with
  | markUploaded id inputFileId =>
    have hqueued : state = .queued := by
      have hstatus : statusOf state = .queued := of_decide_eq_true haccepts
      cases state with
      | queued => rfl
      | terminal outcome => cases outcome <;> cases hstatus
      | _ => cases hstatus
    subst hqueued
    exact ⟨rfl, rfl, hbatch, hstarted, houtcome⟩
  | beginSubmission id inputFileId =>
    have huploaded : state = .uploaded inputFileId := of_decide_eq_true haccepts
    subst huploaded
    exact ⟨rfl, hfile, hbatch, rfl, houtcome⟩
  | markSubmissionUncertain id =>
    have hstatus : statusOf state = .submitting := of_decide_eq_true haccepts
    cases state with
    | submitting inputFileId startedAt => exact ⟨rfl, hfile, hbatch, hstarted, houtcome⟩
    | terminal outcome => cases outcome <;> cases hstatus
    | _ => cases hstatus
  | markSubmitted id expected batchId =>
    cases state with
    | terminal outcome =>
      -- The outcome column is not cleared, and a submitted row has none.
      obtain ⟨text, htext, -⟩ := houtcome
      simp [Transition.successor, JobState.isTerminal, Transition.set, JobRow.check, htext]
    | _ => exact ⟨rfl, rfl, rfl, rfl, houtcome⟩
  | storeOutcome id expected outcome =>
    obtain ⟨hparse, hvalid⟩ := hkeeps
    exact ⟨(statusOf_terminal outcome).symm, rfl, rfl, rfl, _, rfl, hvalid, hparse⟩

/-- An outcome is stored over the state that its row encodes. -/
theorem storeOutcome_run {db : Database} (hu : db.UniqueIds) {id : JobId} (hrow : db.row? id = some row)
    (h : row.Encodes c state) {outcome : StoredOutcome} (hkeeps : c.RoundTrips (encodeOutcome outcome).2)
    (now : Timestamp) :
    ((Transition.storeOutcome id state outcome).set c now row).Encodes c (.terminal outcome) ∧
      (Transition.storeOutcome id state outcome).run c now db =
        (db.replace id ((Transition.storeOutcome id state outcome).set c now row), .ok (.terminal outcome)) := by
  have haccepts : (Transition.storeOutcome id state outcome).accepts state = true := decide_eq_true rfl
  have hset : ((Transition.storeOutcome id state outcome).set c now row).Encodes c (.terminal outcome) :=
    @Transition.set_encodes _ _ _ now (.storeOutcome id state outcome) hkeeps h haccepts
  refine ⟨hset, ?_⟩
  rw [Transition.run_of_row c now hu (.storeOutcome id state outcome) hrow, Transition.affects_eq _ h, haccepts,
    if_pos rfl, if_pos hset.check, hset.tryFrom]
  rfl

/-- What a statement may do to a job in this typed state: conflict and violation change nothing, and
a success stores the encoding of the next state. -/
inductive Transition.Refines (c : Codec) (now : Timestamp) (db : Database) (job : Job) (t : Transition) :
    Database × Except PersistenceError JobState → Prop where
  | conflict (refused : t.accepts job.state = false) :
      Refines c now db job t (db, .error (.transitionConflict t.id.text t.expected.text))
  | violation (accepted : t.accepts job.state = true) (kept : t.successor now job.state = none) :
      Refines c now db job t (db, .error (.database "CHECK constraint failed: jobs"))
  | stored (accepted : t.accepts job.state = true) (next : JobState) (leads : t.successor now job.state = some next)
      (row : JobRow) (check : row.check c = true) (decodes : row.tryFrom c = .ok { job with state := next }) :
      Refines c now db job t (db.replace t.id row, .ok next)

/-- Rows that pass the CHECK are decoded exactly when their outcome text, if any, parses, and every
statement whose outcome, if any, survives its column does to such a row what the typed state machine does
to its state. -/
theorem rows_refine_states (c : Codec) :
    (∀ row : JobRow, row.check c = true → ((∃ job, row.tryFrom c = .ok job) ↔
      ∀ text, row.outcomeJson = some text → ∃ value, c.parse text = .ok value)) ∧
    ∀ db : Database, db.UniqueIds → ∀ (t : Transition) (now : Timestamp) (row : JobRow) (job : Job),
      db.row? t.id = some row → row.check c = true → row.tryFrom c = .ok job → t.Keeps c →
      t.Refines c now db job (t.run c now db) := by
  refine ⟨fun row => JobRow.tryFrom_iff, fun db hu t now row job hrow hcheck hjob hkeeps => ?_⟩
  obtain ⟨hencodes, hsame⟩ := JobRow.encodes_of_tryFrom hcheck hjob
  rw [t.run_of_row c now hu hrow, t.affects_eq hencodes]
  cases haccepts : t.accepts job.state with
  | false => exact .conflict haccepts
  | true =>
    have hset := Transition.set_encodes now hkeeps hencodes haccepts
    rw [if_pos rfl]
    cases hnext : t.successor now job.state with
    | none =>
      rw [hnext] at hset
      rw [if_neg (Bool.eq_false_iff.mp hset)]
      exact .violation haccepts hnext
    | some next =>
      rw [hnext] at hset
      have hdecodes : (t.set c now row).tryFrom c = .ok { job with state := next } := by
        rw [hset.tryFrom, t.set_id, (t.set_identity c now row).2.2, hsame]
      rw [if_pos hset.check, hdecodes]
      exact .stored haccepts next hnext _ hset.check hdecodes

section Witness

/-- The row of a job whose batch has been submitted. -/
private def submittedRow : JobRow := ⟨"job", "auth", "request", "model", .submitted, none, some "batch", none, none⟩

private def report : Transition :=
  .storeOutcome ⟨"job"⟩ (.submitted ⟨"batch"⟩) (.completed (.object [("output", .array [])]))

/-- The outcome of a submitted job is stored. -/
theorem rows_refine_states_completed : report.Refines Json.compact ⟨"now"⟩ ⟨[submittedRow], []⟩
    ⟨⟨"job"⟩, "model", .submitted ⟨"batch"⟩⟩ (report.run Json.compact ⟨"now"⟩ ⟨[submittedRow], []⟩) :=
  (rows_refine_states Json.compact).2 ⟨[submittedRow], []⟩ (List.nodup_singleton _) report ⟨"now"⟩ submittedRow
    ⟨⟨"job"⟩, "model", .submitted ⟨"batch"⟩⟩ (by decide) rfl rfl (Json.compact_roundTrips _)

/-- A stored outcome the database takes for JSON and serde_json does not: the number is too large
for a double. The row passes the CHECK and is not decoded. -/
theorem unparsable_outcome_is_not_decoded :
    let row : JobRow := ⟨"legacy", "auth", "request", "model", .failed, none, none, none, some "1e999"⟩
    ∃ c : Codec, (∀ value, c.RoundTrips value) ∧ c.jsonValid "1e999" = true ∧
      c.parse "1e999" = .error "number out of range at line 1 column 5" ∧ row.check c = true ∧
      row.tryFrom c = .error (.invalidJob "legacy" "invalid outcome_json: number out of range at line 1 column 5") := by
  have hparse : Json.compact.parse "1e999" = .error "number out of range at line 1 column 5" := by
    refine dif_neg ?_
    rintro ⟨value, hvalue⟩
    -- Only a number starts with a digit, and no number is printed with an exponent and no point.
    obtain ⟨n, -, hn⟩ := @Json.number_of_print Json.pointed value '1' ['e', '9', '9', '9'] rfl
      Json.pointed_prints hvalue
    exact Json.pointed_exponent n (hn ▸ by decide)
  refine ⟨Json.compact, Json.compact_roundTrips, rfl, hparse, rfl, ?_⟩
  simp [JobRow.tryFrom, JobRow.outcome, JobRow.reject, JobRow.require, bind, Except.bind, hparse]

end Witness
end Kaiion.Durable

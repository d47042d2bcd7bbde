import Kaiion.Durable.RowMachine

/-! The migration that rebuilds the jobs table of version 2 with typed states. Five columns are rewritten,
each by an expression of its own; the CHECK of the new table ties them together. -/
namespace Kaiion.Durable
open Foundation

/-- The status column of version 2; its CHECK admits these eight texts only. -/
inductive LegacyStatus where
  | queued | fileUploaded | submitting | submitted | completed | failed | expired | cancelled
  deriving DecidableEq, Repr

def LegacyStatus.text : LegacyStatus → String
  | queued => "queued"
  | fileUploaded => "file_uploaded"
  | submitting => "submitting"
  | submitted => "submitted"
  | completed => "completed"
  | failed => "failed"
  | expired => "expired"
  | cancelled => "cancelled"

/-- A row of `jobs` at version 2, without the columns the migration drops or copies unread. -/
structure LegacyRow where
  id : String
  authHash : String
  requestHash : String
  model : String
  status : LegacyStatus
  inputFileId : Option String
  batchId : Option String
  resultJson : Option String
  errorJson : Option String
  updatedAt : String
  deriving DecidableEq, Repr

/-- A table the version-2 schema admits. -/
structure LegacyTable where
  rows : List LegacyRow
  uniqueIds : (rows.map LegacyRow.id).Nodup
  uniqueIdentities : (rows.map (fun row => (row.authHash, row.requestHash))).Nodup

namespace LegacyRow

def typedStatus (row : LegacyRow) : Status :=
  match row.status with
  | .fileUploaded => .uploaded
  | .submitting => .submissionUncertain
  | .queued => .queued
  | .submitted => .submitted
  | .completed => .completed
  | .failed => .failed
  | .expired => .expired
  | .cancelled => .cancelled

def typedInputFileId (row : LegacyRow) : Option String :=
  if row.status = .fileUploaded ∨ row.status = .submitting then row.inputFileId else none

def typedBatchId (row : LegacyRow) : Option String :=
  if row.status = .submitted then row.batchId else none

def typedSubmissionStartedAt (row : LegacyRow) : Option String :=
  if row.status = .submitting then some row.updatedAt else none

/-- A stored text that is JSON is kept, any other one is quoted with `json_quote`, and a missing one is replaced. -/
def keptJson (c : Codec) (quote : String → String) (stored : Option String) (missing : String) : String :=
  if stored.any c.jsonValid then stored.getD missing else quote (stored.getD missing)

def typedOutcomeJson (c : Codec) (quote : String → String) (row : LegacyRow) : Option String :=
  if row.status = .completed then some (keptJson c quote row.resultJson "missing stored response")
  else if row.status = .failed ∨ row.status = .expired ∨ row.status = .cancelled then
    some (keptJson c quote row.errorJson "batch request failed")
  else none

/-- The row the SELECT yields. -/
def typed (c : Codec) (quote : String → String) (row : LegacyRow) : JobRow :=
  { id := row.id, authHash := row.authHash, requestHash := row.requestHash, model := row.model
    status := row.typedStatus, inputFileId := row.typedInputFileId, batchId := row.typedBatchId
    submissionStartedAt := row.typedSubmissionStartedAt, outcomeJson := row.typedOutcomeJson c quote }

end LegacyRow

/-- One row of `INSERT INTO jobs_typed`, under the constraints of the new table. -/
def insertTyped (c : Codec) (rows : List JobRow) (row : JobRow) : Except PersistenceError (List JobRow) :=
  if row.check c = false then .error (.database "CHECK constraint failed: jobs_typed")
  else if row.id ∈ rows.map JobRow.id then .error (.database "UNIQUE constraint failed: jobs_typed.id")
  else if (row.authHash, row.requestHash) ∈ rows.map (fun row => (row.authHash, row.requestHash)) then
    .error (.database "UNIQUE constraint failed: jobs_typed.auth_hash, jobs_typed.request_hash")
  else .ok (rows ++ [row])

/-- The migration, up to the renamed table; a refused row aborts it, and with it the start of the service. -/
def LegacyTable.migrate (c : Codec) (quote : String → String) (table : LegacyTable) :
    Except PersistenceError (List JobRow) :=
  (table.rows.map (LegacyRow.typed c quote)).foldlM (insertTyped c) []

variable {c : Codec} {quote : String → String}

theorem insertTyped_ok {rows after : List JobRow} {row : JobRow} (h : insertTyped c rows row = .ok after) :
    row.check c = true ∧ after = rows ++ [row] := by
  unfold insertTyped at h
  split at h
  · cases h
  next hcheck =>
    split at h
    · cases h
    · split at h
      · cases h
      · exact ⟨by simpa using hcheck, (Except.ok.inj h).symm⟩

/-- Rows that satisfy the CHECK and repeat no key are all inserted. -/
private theorem insertTyped_all {rows before : List JobRow} (hchecks : ∀ row ∈ rows, row.check c = true)
    (hids : ((before ++ rows).map JobRow.id).Nodup)
    (hidentities : ((before ++ rows).map (fun row => (row.authHash, row.requestHash))).Nodup) :
    rows.foldlM (insertTyped c) before = .ok (before ++ rows) := by
  induction rows generalizing before with
  | nil => rw [List.append_nil]; rfl
  | cons row rows ih =>
    have hinsert : insertTyped c before row = .ok (before ++ [row]) := by
      have fresh : ∀ {β : Type} (f : JobRow → β), ((before ++ row :: rows).map f).Nodup → f row ∉ before.map f := by
        intro β f hnodup hmem
        rw [List.map_append, List.map_cons] at hnodup
        exact (List.disjoint_of_nodup_append hnodup) hmem List.mem_cons_self
      unfold insertTyped
      rw [if_neg (by simp [hchecks row List.mem_cons_self]), if_neg (fresh _ hids),
        if_neg (fresh (fun row => (row.authHash, row.requestHash)) hidentities)]
    rw [List.append_cons] at hids hidentities ⊢
    rw [List.foldlM_cons, hinsert]
    exact ih (fun row hrow => hchecks row (List.mem_cons_of_mem _ hrow)) hids hidentities

private theorem foldlM_insertTyped_ok {rows before after : List JobRow}
    (h : rows.foldlM (insertTyped c) before = .ok after) :
    (∀ row ∈ rows, row.check c = true) ∧ after = before ++ rows := by
  induction rows generalizing before with
  | nil => exact ⟨fun _ hrow => (nomatch hrow), by rw [List.append_nil]; exact (Except.ok.inj h).symm⟩
  | cons row rows ih =>
    rw [List.foldlM_cons] at h
    obtain ⟨inserted, hinsert, h⟩ := bind_ok h
    obtain ⟨hcheck, rfl⟩ := insertTyped_ok hinsert
    obtain ⟨hchecks, rfl⟩ := ih h
    refine ⟨fun other hother => ?_, (List.append_cons _ _ _).symm⟩
    rcases List.mem_cons.mp hother with rfl | hother
    · exact hcheck
    · exact hchecks other hother

/-- The migration completes exactly when every new row satisfies the CHECK, and then with all of them. -/
theorem LegacyTable.migrate_ok_iff {table : LegacyTable} {rows : List JobRow} :
    table.migrate c quote = .ok rows ↔
      (∀ row ∈ table.rows, (row.typed c quote).check c = true) ∧ rows = table.rows.map (LegacyRow.typed c quote) := by
  unfold LegacyTable.migrate
  constructor
  · intro h
    obtain ⟨hchecks, rfl⟩ := foldlM_insertTyped_ok h
    exact ⟨fun row hrow => hchecks _ (List.mem_map_of_mem hrow), List.nil_append _⟩
  · rintro ⟨hchecks, rfl⟩
    refine insertTyped_all (fun row hrow => ?_) ?_ ?_
    · obtain ⟨legacy, hlegacy, rfl⟩ := List.mem_map.mp hrow
      exact hchecks legacy hlegacy
    · rw [List.nil_append, List.map_map]
      exact table.uniqueIds
    · rw [List.nil_append, List.map_map]
      exact table.uniqueIdentities

namespace LegacyRow

/-- The column a terminal status stores its outcome in. -/
def storedJson (row : LegacyRow) : Option String :=
  if row.status = .completed then row.resultJson else row.errorJson

def isTerminal (row : LegacyRow) : Prop :=
  row.status = .completed ∨ row.status = .failed ∨ row.status = .expired ∨ row.status = .cancelled

instance (row : LegacyRow) : Decidable row.isTerminal := inferInstanceAs (Decidable (_ ∨ _ ∨ _ ∨ _))

/-- `json_quote` of a text is that text as JSON. -/
def Quotes (c : Codec) (quote : String → String) : Prop :=
  ∀ text, c.parse (quote text) = .ok (.string text) ∧ c.jsonValid (quote text) = true

/-- The columns the status of the row needs are there, and stored JSON is JSON for both of its readers. -/
structure Complete (c : Codec) (row : LegacyRow) : Prop where
  inputFile : row.status = .fileUploaded ∨ row.status = .submitting → row.inputFileId.isSome = true
  batch : row.status = .submitted → row.batchId.isSome = true
  outcome : row.isTerminal → ∀ text, row.storedJson = some text → c.jsonValid text = true →
    ∃ value, c.parse text = .ok value

/-- What becomes of a row: it keeps who it is, it is a row of the new table and reads back as a job, and
what it knew of its batch is still there. -/
structure Keeps (c : Codec) (row : LegacyRow) (job : JobRow) : Prop where
  identity : job.id = row.id ∧ job.authHash = row.authHash ∧ job.requestHash = row.requestHash ∧
    job.model = row.model
  check : job.check c = true
  decodes : ∃ value, job.tryFrom c = .ok value
  terminal : row.isTerminal → job.status.text = row.status.text ∧ job.status.stage = 5 ∧
    ∀ text, row.storedJson = some text → c.jsonValid text = true → job.outcomeJson = some text
  submitted : row.status = .submitted → job.status = .submitted ∧ job.batchId = row.batchId
  submitting : row.status = .submitting → job.status = .submissionUncertain

private theorem keptJson_jsonValid (hquotes : Quotes c quote) (stored : Option String) (missing : String) :
    c.jsonValid (keptJson c quote stored missing) = true := by
  unfold keptJson
  split
  next hvalid =>
    obtain ⟨text, rfl, hvalid⟩ := (Option.any_eq_true _ _).mp hvalid
    exact hvalid
  · exact (hquotes _).2

private theorem keptJson_of_valid {stored : Option String} {text : String} (hstored : stored = some text)
    (hvalid : c.jsonValid text = true) (missing : String) : keptJson c quote stored missing = text := by
  subst hstored
  unfold keptJson
  rw [Option.any_some, if_pos hvalid]
  rfl

private theorem keptJson_parses (hquotes : Quotes c quote) {stored : Option String}
    (hparses : ∀ text, stored = some text → c.jsonValid text = true → ∃ value, c.parse text = .ok value)
    (missing : String) : ∃ value, c.parse (keptJson c quote stored missing) = .ok value := by
  unfold keptJson
  split
  next hvalid =>
    obtain ⟨text, rfl, hvalid⟩ := (Option.any_eq_true _ _).mp hvalid
    exact hparses text rfl hvalid
  · exact ⟨_, (hquotes _).1⟩

/-- A terminal row, and no other, gets an outcome: what is kept of its stored one. -/
theorem typedOutcomeJson_eq (c : Codec) (quote : String → String) (row : LegacyRow) :
    (row.isTerminal ∧ ∃ missing, row.typedOutcomeJson c quote = some (keptJson c quote row.storedJson missing)) ∨
      ¬ row.isTerminal ∧ row.typedOutcomeJson c quote = none := by
  unfold typedOutcomeJson isTerminal storedJson
  cases row.status <;> simp

/-- The CHECK of the new table comes down to two columns of the old row. -/
theorem typed_check (hquotes : Quotes c quote) (row : LegacyRow) : (row.typed c quote).check c = true ↔
    (row.status = .fileUploaded ∨ row.status = .submitting → row.inputFileId.isSome = true) ∧
      (row.status = .submitted → row.batchId.isSome = true) := by
  have hvalid := keptJson_jsonValid hquotes
  unfold typed JobRow.check typedStatus typedInputFileId typedBatchId typedSubmissionStartedAt typedOutcomeJson
  cases row.status <;> simp [hvalid]

/-- Exactly the complete rows survive. -/
theorem keeps_iff (hquotes : Quotes c quote) (row : LegacyRow) :
    row.Keeps c (row.typed c quote) ↔ row.Complete c := by
  constructor
  · intro h
    obtain ⟨hfile, hbatch⟩ := (typed_check hquotes row).mp h.check
    refine ⟨hfile, hbatch, fun hterminal text hstored hvalid => ?_⟩
    have houtcome := (h.terminal hterminal).2.2 text hstored hvalid
    exact (JobRow.tryFrom_iff h.check).mp h.decodes text houtcome
  · intro h
    have hcheck := (typed_check hquotes row).mpr ⟨h.inputFile, h.batch⟩
    refine ⟨⟨rfl, rfl, rfl, rfl⟩, hcheck, (JobRow.tryFrom_iff hcheck).mpr fun text htext => ?_, fun hterminal => ?_,
      fun hstatus => ?_, fun hstatus => ?_⟩
    · rcases row.typedOutcomeJson_eq c quote with ⟨hterminal, missing, houtcome⟩ | ⟨-, hnone⟩
      · obtain rfl := Option.some.inj (houtcome.symm.trans htext)
        exact keptJson_parses hquotes (h.outcome hterminal) missing
      · cases hnone.symm.trans htext
    · refine ⟨?_, ?_, fun text hstored hvalid => ?_⟩
      · rcases hterminal with hstatus | hstatus | hstatus | hstatus
        all_goals simp [typed, typedStatus, hstatus, Status.text, LegacyStatus.text]
      · rcases hterminal with hstatus | hstatus | hstatus | hstatus
        all_goals simp [typed, typedStatus, hstatus, Status.stage]
      · rcases row.typedOutcomeJson_eq c quote with ⟨-, missing, houtcome⟩ | ⟨hlive, -⟩
        · exact houtcome.trans (congrArg some (keptJson_of_valid hstored hvalid missing))
        · exact absurd hterminal hlive
    · simp [typed, typedStatus, typedBatchId, hstatus]
    · simp [typed, typedStatus, hstatus]

end LegacyRow

end Kaiion.Durable

import Kaiion.Durable.AtMostOnce
import Kaiion.Durable.TypedMigration

/-! The jobs of a migrated table in the service that opens it: which of them can still come to a
create_batch call, and which tables migrate safely. -/
namespace Kaiion.Durable
open Foundation

variable {c : Codec} {quote : String → String}

private def writtenAt : Timestamp := ⟨"now"⟩

private def resumer : UpstreamAuth := ⟨"key", none, none⟩

private def uploadedFile : FileId := ⟨"file"⟩

/-- A stored state can be read back. -/
private theorem get_of_encodes {db : Database} {id : JobId} {row : JobRow} {state : JobState}
    (hrow : db.row? id = some row) (h : row.Encodes c state) :
    db.get c id = .ok { id, model := row.model, state } := by
  unfold Database.get
  rw [hrow]
  dsimp only
  rw [h.tryFrom, Database.row?_id hrow]

private def Fleet.withWorker (c : Codec) (fleet : Fleet) (job : Job) : Fleet where
  world := ⟨fleet.world.db, .subscribed fleet.nextWorker job :: fleet.world.log⟩
  copies := job :: fleet.copies
  workers := fleet.setWorker fleet.nextWorker (some (.turn c resumer .null job))
  nextWorker := fleet.nextWorker + 1

/-- A worker subscribes to a stored job. -/
private theorem subscribes {fleet : Fleet} {id : JobId} {row : JobRow} {state : JobState}
    (hrow : fleet.world.db.row? id = some row) (h : row.Encodes c state) (live : state.isTerminal = false) :
    Fleet.Run c fleet (fleet.withWorker c { id, model := row.model, state }) :=
  (Relation.ReflTransGen.single (.read fleet id _ (get_of_encodes hrow h))).tail
    (.subscribe _ resumer .null _ List.mem_cons_self live)

/-- What a statement of a well-formed store does to the row it affects. -/
private theorem answers_transition {db : Database} (hw : db.WellFormed) {t : Transition} {row : JobRow}
    {state : JobState} (hrow : db.row? t.id = some row) (haffects : t.affects row = true)
    (hset : (t.set c writtenAt row).Encodes c state) :
    Op.Answers c db (.transition t) (.ok state) (db.replace t.id (t.set c writtenAt row)) := by
  refine ⟨writtenAt, .none, ?_⟩
  change t.run c writtenAt db = _
  rw [t.run_of_row c writtenAt hw.uniqueIds hrow, if_pos haffects, if_pos hset.check, hset.tryFrom]
  rfl

/-- An uploaded job is submitted and its batch is created. -/
private theorem uploaded_creates {fleet : Fleet} (hw : fleet.world.db.WellFormed) {id : JobId} {row : JobRow}
    {inputFileId : FileId} (hrow : fleet.world.db.row? id = some row) (h : row.Encodes c (.uploaded inputFileId)) :
    ∃ after, Fleet.Run c fleet after ∧ ∃ event ∈ after.world.log, event.creates id = true := by
  have haffects : (Transition.beginSubmission id inputFileId).affects row = true := by
    simp [Transition.affects, h.status, h.inputFileId, statusOf, JobState.inputFileId]
  have hset : ((Transition.beginSubmission id inputFileId).set c writtenAt row).Encodes c
      (.submitting inputFileId writtenAt) :=
    ⟨rfl, h.inputFileId, h.batchId, rfl, h.outcome⟩
  have hsubmit := answers_transition (t := .beginSubmission id inputFileId) hw hrow haffects hset
  have hsubscribed := subscribes hrow h rfl
  have hbegun := hsubscribed.tail (.perform _ fleet.nextWorker _ (.transition (.beginSubmission id inputFileId))
    _ _ _ (if_pos rfl) (.advancing _) hsubmit)
  have hcreated := hbegun.tail (.perform _ fleet.nextWorker _ (.createBatch resumer inputFileId id)
    (Except.error (.transport "reset")) _ _ (if_pos rfl) (.advancing _) rfl)
  exact ⟨_, hcreated, _, List.mem_cons_self, decide_eq_true rfl⟩

private def markedRow (c : Codec) (id : JobId) (row : JobRow) : JobRow :=
  (Transition.markUploaded id uploadedFile).set c writtenAt row

/-- A queued job is uploaded first; after a restart its copy is read again. -/
private theorem queued_creates {fleet : Fleet} (hw : fleet.world.db.WellFormed) {id : JobId} {row : JobRow}
    (hrow : fleet.world.db.row? id = some row) (h : row.Encodes c .queued) :
    ∃ after, Fleet.Run c fleet after ∧ ∃ event ∈ after.world.log, event.creates id = true := by
  have haffects : (Transition.markUploaded id uploadedFile).affects row = true := by
    simp [Transition.affects, Transition.expected, h.status, statusOf]
  have hset : (markedRow c id row).Encodes c (.uploaded uploadedFile) :=
    ⟨rfl, rfl, h.batchId, h.submissionStartedAt, h.outcome⟩
  have hmark := answers_transition (t := .markUploaded id uploadedFile) hw hrow haffects hset
  have hsubscribed := subscribes hrow h rfl
  have huploaded := hsubscribed.tail (.perform _ fleet.nextWorker _ (.uploadBatchFile resumer id _)
    (Except.ok uploadedFile) _ _ (if_pos rfl) (.advancing _) rfl)
  have hmarked := huploaded.tail (.perform _ fleet.nextWorker _ (.transition (.markUploaded id uploadedFile)) _ _ _
    (if_pos rfl) (.advancing _) hmark)
  have hcrashed := hmarked.tail (.crash _)
  have hperforms : World.Performs c 0 (.transition (.markUploaded id uploadedFile)) fleet.world
      (.ok (.uploaded uploadedFile)) ⟨fleet.world.db.replace id (markedRow c id row),
        .performed 0 (.transition (.markUploaded id uploadedFile)) (.ok (.uploaded uploadedFile)) _ ::
          fleet.world.log⟩ := ⟨hmark, rfl⟩
  have hid : (markedRow c id row).id = id.text :=
    (Transition.set_id c writtenAt row _).trans (Database.row?_id hrow)
  have hrestart : ∀ {later : Fleet}, Fleet.Run c fleet later →
      later.world.db = fleet.world.db.replace id (markedRow c id row) →
      ∃ after, Fleet.Run c fleet after ∧ ∃ event ∈ after.world.log, event.creates id = true := by
    intro later hlater hdb
    have hlaterWellFormed : later.world.db.WellFormed := hdb ▸ hperforms.wellFormed hw
    have hlaterRow : later.world.db.row? id = some (markedRow c id row) := hdb ▸ Database.replace_row? hrow hid
    obtain ⟨after, hrun, hcreates⟩ := uploaded_creates hlaterWellFormed hlaterRow hset
    exact ⟨after, hlater.trans hrun, hcreates⟩
  exact hrestart hcrashed rfl

/-- A job that has not come to its submission can still come to a create_batch call. -/
theorem creates_of_stage {fleet : Fleet} (hw : fleet.world.db.WellFormed) {id : JobId} {row : JobRow}
    (hrow : fleet.world.db.row? id = some row) (hcheck : row.check c = true) (hstage : row.status.stage < 2) :
    ∃ after, Fleet.Run c fleet after ∧ ∃ event ∈ after.world.log, event.creates id = true := by
  have hlive : row.status = .queued ∨ row.status = .uploaded := by
    cases hstatus : row.status
    case queued => exact .inl rfl
    case uploaded => exact .inr rfl
    all_goals simp [hstatus, Status.stage] at hstage
  have hnone : row.outcomeJson = none := by
    rcases hlive with hstatus | hstatus
    all_goals simp [JobRow.check, hstatus] at hcheck
    all_goals exact hcheck.2
  have hparses : ∀ text, row.outcomeJson = some text → ∃ value, c.parse text = .ok value := by
    intro text htext
    rw [hnone] at htext
    cases htext
  obtain ⟨state, hencodes⟩ := JobRow.encodes_of_check hcheck hparses
  have hstate := hencodes.status
  rcases hlive with hstatus | hstatus
  all_goals rw [hstatus] at hstate
  · cases state with
    | queued => exact queued_creates hw hrow hencodes
    | terminal outcome => cases outcome <;> cases hstate
    | _ => cases hstate
  · cases state with
    | uploaded inputFileId => exact uploaded_creates hw hrow hencodes
    | terminal outcome => cases outcome <;> cases hstate
    | _ => cases hstate

/-- A batch may exist for the row: its status says that a submission was begun, or it names a batch. -/
def LegacyRow.MayHaveBatch (row : LegacyRow) : Prop :=
  row.status = .submitting ∨ row.status = .submitted ∨ row.isTerminal ∨ row.batchId.isSome = true

/-- A row whose status comes before the submission names no batch. -/
def LegacyRow.Consistent (row : LegacyRow) : Prop :=
  row.status = .queued ∨ row.status = .fileUploaded → row.batchId = none

/-- The migration completes, every row keeps what the new table and the service need, and no job for which
a batch may exist comes to a create_batch call in the service that opens the migrated store. -/
structure LegacyTable.MigratesSafely (c : Codec) (quote : String → String) (table : LegacyTable)
    (rows : List JobRow) : Prop where
  completes : table.migrate c quote = .ok rows
  keeps : List.Forall₂ (LegacyRow.Keeps c) table.rows rows
  created : ∀ start fleet : Fleet, start.Initial → start.world.db = ⟨rows, []⟩ → Fleet.Run c start fleet →
    ∀ row ∈ table.rows, row.MayHaveBatch → ∀ event ∈ fleet.world.log, event.creates ⟨row.id⟩ = false

/-- What a migrated table is to the service. -/
theorem LegacyTable.migrated_wellFormed {table : LegacyTable} :
    (⟨table.rows.map (LegacyRow.typed c quote), []⟩ : Database).WellFormed := by
  refine ⟨?_, ?_, List.nodup_nil, fun _ hrow => (nomatch hrow), fun _ hrow => (nomatch hrow)⟩
  · unfold Database.UniqueIds
    rw [List.map_map]
    exact table.uniqueIds
  · rw [List.map_map]
    exact table.uniqueIdentities

theorem LegacyTable.migrated_row? (c : Codec) (quote : String → String) {table : LegacyTable} {row : LegacyRow}
    (h : row ∈ table.rows) :
    (⟨table.rows.map (LegacyRow.typed c quote), []⟩ : Database).row? ⟨row.id⟩ = some (row.typed c quote) :=
  Database.UniqueIds.row?_of_mem table.migrated_wellFormed.uniqueIds (List.mem_map_of_mem h)

/-- The service when it has opened the migrated store. -/
private def LegacyTable.restarted (c : Codec) (quote : String → String) (table : LegacyTable) : Fleet where
  world := ⟨⟨table.rows.map (LegacyRow.typed c quote), []⟩, [.stored ⟨table.rows.map (LegacyRow.typed c quote), []⟩]⟩
  copies := []
  workers := fun _ => none
  nextWorker := 0

/-- A status tells how far the migrated row is. -/
theorem LegacyRow.typed_stage (row : LegacyRow) :
    (row.typed c quote).status.stage < 2 ↔ row.status = .queued ∨ row.status = .fileUploaded := by
  unfold LegacyRow.typed LegacyRow.typedStatus Status.stage
  cases row.status <;> simp

/-- The typed-state migration. Of a table the version-2 schema admits, it keeps everything it promises
exactly when every row has the columns its status needs, stored JSON that both readers take for JSON, and
no batch named before its submission. -/
theorem typed_migration_safe_iff (hquotes : LegacyRow.Quotes c quote) (table : LegacyTable) :
    (∃ rows, table.MigratesSafely c quote rows) ↔ ∀ row ∈ table.rows, row.Complete c ∧ row.Consistent := by
  constructor
  · rintro ⟨rows, hsafe⟩ row hrow
    obtain ⟨hchecks, rfl⟩ := LegacyTable.migrate_ok_iff.mp hsafe.completes
    have hkeeps : row.Keeps c (row.typed c quote) := by
      have hall := hsafe.keeps
      rw [List.forall₂_map_right_iff, List.forall₂_same] at hall
      exact hall row hrow
    refine ⟨(LegacyRow.keeps_iff hquotes row).mp hkeeps, fun hearly => ?_⟩
    by_contra hbatch
    -- The job is back before its submission, so a run comes to a create_batch call for its batch.
    have hinitial : (table.restarted c quote).Initial := ⟨table.migrated_wellFormed, rfl, rfl, rfl⟩
    have hstart : (table.restarted c quote).world.db.row? ⟨row.id⟩ = some (row.typed c quote) :=
      table.migrated_row? c quote hrow
    obtain ⟨fleet, hrun, event, hevent, hcreates⟩ := creates_of_stage hinitial.wellFormed hstart hkeeps.check
      (row.typed_stage.mpr hearly)
    have hnone := hsafe.created _ fleet hinitial rfl hrun row hrow
      (.inr (.inr (.inr (Option.isSome_iff_ne_none.mpr hbatch)))) event hevent
    rw [hcreates] at hnone
    cases hnone
  · intro hrows
    have hchecks : ∀ row ∈ table.rows, (row.typed c quote).check c = true := fun row hrow =>
      ((LegacyRow.keeps_iff hquotes row).mpr (hrows row hrow).1).check
    refine ⟨_, LegacyTable.migrate_ok_iff.mpr ⟨hchecks, rfl⟩, ?_, ?_⟩
    · rw [List.forall₂_map_right_iff, List.forall₂_same]
      exact fun row hrow => (LegacyRow.keeps_iff hquotes row).mpr (hrows row hrow).1
    · intro start fleet hinitial hdb hrun row hrow hbatch
      have hstart := table.migrated_row? c quote hrow
      rw [← hdb] at hstart
      refine Fleet.Run.never_created hrun hinitial hstart (Nat.le_of_not_lt fun hstage => ?_)
      have hearly := row.typed_stage.mp hstage
      have hnone := (hrows row hrow).2 hearly
      unfold LegacyRow.MayHaveBatch LegacyRow.isTerminal at hbatch
      rcases hearly with hstatus | hstatus
      all_goals simp [hstatus, hnone] at hbatch

section Witness

/-- `json_quote` of a text. -/
private def jsonQuote (text : String) : String := Json.print Json.pointed (.string text)

private theorem jsonQuote_quotes : LegacyRow.Quotes Json.compact jsonQuote := fun text =>
  Json.compact_roundTrips (.string text)

private def finished : LegacyRow :=
  { id := "job", authHash := "auth", requestHash := "request", model := "model", status := .completed
    inputFileId := some "file", batchId := some "batch", resultJson := none, errorJson := some "late"
    updatedAt := "now" }

private def oneRow (row : LegacyRow) : LegacyTable := ⟨[row], List.nodup_singleton _, List.nodup_singleton _⟩

/-- A finished row with left-over columns and without a stored response. -/
theorem typed_migration_safe_iff_finished : ∃ rows, (oneRow finished).MigratesSafely Json.compact jsonQuote rows := by
  refine (typed_migration_safe_iff jsonQuote_quotes (oneRow finished)).mpr fun row hrow => ?_
  obtain rfl := List.mem_singleton.mp hrow
  refine ⟨⟨fun h => ?_, fun h => ?_, fun _ text htext => ?_⟩, fun h => ?_⟩
  · simp [finished] at h
  · simp [finished] at h
  · simp [finished, LegacyRow.storedJson] at htext
  · simp [finished] at h

private def nameless : LegacyRow :=
  { finished with status := .fileUploaded, inputFileId := none, batchId := none, errorJson := none }

/-- A row that says its file is uploaded and does not name the file: no row of the table is migrated. -/
theorem typed_migration_aborts :
    (oneRow nameless).migrate Json.compact jsonQuote = .error (.database "CHECK constraint failed: jobs_typed") ∧
      ¬ ∃ rows, (oneRow nameless).MigratesSafely Json.compact jsonQuote rows := by
  have haborts : (oneRow nameless).migrate Json.compact jsonQuote =
      .error (.database "CHECK constraint failed: jobs_typed") := rfl
  refine ⟨haborts, ?_⟩
  rintro ⟨rows, hsafe⟩
  cases haborts.symm.trans hsafe.completes

end Witness
end Kaiion.Durable

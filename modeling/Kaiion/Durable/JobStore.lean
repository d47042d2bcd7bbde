import Kaiion.Error
import Mathlib.Logic.Relation

/-! Registration of durable requests: one transaction over the two tables. -/
namespace Kaiion.Durable

structure NormalizedRequest where
  batchBody : Value
  requestHash : String
  model : String
  asyncAlias : Bool
  idempotencyHash : Option String

/-- The row `enqueue` and `get_or_create` insert. -/
def JobRow.queued (id authHash requestHash model : String) : JobRow :=
  { id, authHash, requestHash, model, status := .queued, inputFileId := none, batchId := none
    submissionStartedAt := none, outcomeJson := none }

/-- `INSERT OR IGNORE INTO jobs`: skipped on a used id or a used (auth_hash, request_hash). -/
def Database.insertOrIgnoreJob (db : Database) (row : JobRow) : Database :=
  if db.jobs.any (fun old => old.id = row.id ||
      (old.authHash = row.authHash && old.requestHash = row.requestHash)) then db
  else { db with jobs := db.jobs ++ [row] }

/-- `INSERT OR IGNORE INTO job_requests`: skipped on an invalid body, a used job id or a used
(auth_hash, idempotency_hash); null idempotency hashes never collide. -/
def Database.insertOrIgnoreRequest (c : Codec) (db : Database) (row : RequestRow) : Database :=
  if !c.jsonValid row.bodyJson || db.jobRequests.any (fun old => old.jobId = row.jobId ||
      (old.authHash = row.authHash && row.idempotencyHash.isSome &&
        old.idempotencyHash = row.idempotencyHash)) then db
  else { db with jobRequests := db.jobRequests ++ [row] }

def Database.jobIdOf (db : Database) (authHash requestHash : String) : Option String :=
  (db.jobs.find? (fun row => row.authHash = authHash && row.requestHash = requestHash)).map JobRow.id

def Database.ownerOf (db : Database) (authHash idempotencyHash : String) : Option String :=
  (db.jobRequests.find? (fun row =>
    row.authHash = authHash && row.idempotencyHash = some idempotencyHash)).map RequestRow.jobId

def rowNotFound : String :=
  "no rows returned by a query that expected to return at least one row"

/-- The body of the transaction: the tables to commit and the job id, or the error that drops it. -/
def Database.enqueueTransaction (c : Codec) (db : Database) (uuid authHash provider : String)
    (request : NormalizedRequest) : Except ProxyError (Database × JobId) :=
  let db₁ := db.insertOrIgnoreJob (.queued uuid authHash request.requestHash request.model)
  match db₁.jobIdOf authHash request.requestHash with
  | none => .error (.database rowNotFound)
  | some id =>
    let db₂ := db₁.insertOrIgnoreRequest c
      { jobId := id, provider, authHash, idempotencyHash := request.idempotencyHash
        bodyJson := c.print request.batchBody }
    match request.idempotencyHash with
    | none => .ok (db₂, ⟨id⟩)
    | some key =>
      match db₂.ownerOf authHash key with
      | none => .error (.database rowNotFound)
      | some owner =>
        if owner ≠ id then
          .error (.conflict "Idempotency-Key was already used with a different request; use a new key for a new inference")
        else .ok (db₂, ⟨id⟩)

/-- `Database::enqueue`: a dropped transaction rolls back, a committed one is followed by a read. -/
def Database.enqueue (c : Codec) (db : Database) (uuid authHash provider : String)
    (request : NormalizedRequest) : Database × Except ProxyError Job :=
  match db.enqueueTransaction c uuid authHash provider request with
  | .error error => (db, .error error)
  | .ok (db', id) => (db', (db'.get c id).mapError .persistence)

def Database.getOrCreate (c : Codec) (db : Database) (uuid authHash requestHash model : String) :
    Database × Except PersistenceError Job :=
  let db' := db.insertOrIgnoreJob (.queued uuid authHash requestHash model)
  (db', match db'.find c authHash requestHash with
    | .error error => .error error
    | .ok none => .error (.notFound "new job")
    | .ok (some job) => .ok job)

/-- One statement or transaction of the store, by any client, with any fault. -/
inductive StoreStep (c : Codec) : Database → Database → Prop where
  | enqueue (db : Database) (uuid authHash provider : String) (request : NormalizedRequest)
      (fault : Fault) (fresh : uuid ∉ db.jobs.map JobRow.id) :
      StoreStep c db (fault.apply .database db (db.enqueue c uuid authHash provider request)).1
  | getOrCreate (db : Database) (uuid authHash requestHash model : String) (fault : Fault)
      (fresh : uuid ∉ db.jobs.map JobRow.id) :
      StoreStep c db (fault.apply .database db (db.getOrCreate c uuid authHash requestHash model)).1
  | transition (db : Database) (t : Transition) (now : Timestamp) (fault : Fault) :
      StoreStep c db (fault.apply .database db (t.run c now db)).1

/-- The columns of a job row no statement rewrites. -/
def JobRow.key (row : JobRow) : String × String × String := (row.id, row.authHash, row.requestHash)

/-- The uniqueness and foreign-key constraints of the schema. -/
structure Database.WellFormed (db : Database) : Prop where
  uniqueIds : db.UniqueIds
  uniqueIdentities : (db.jobs.map (fun row => (row.authHash, row.requestHash))).Nodup
  uniqueRequests : (db.jobRequests.map RequestRow.jobId).Nodup
  uniqueKeys : ∀ a ∈ db.jobRequests, ∀ b ∈ db.jobRequests, a.authHash = b.authHash →
    a.idempotencyHash.isSome → a.idempotencyHash = b.idempotencyHash → a.jobId = b.jobId
  references : ∀ row ∈ db.jobRequests, row.jobId ∈ db.jobs.map JobRow.id

/-- Every registration of the first database is still in the second. -/
structure Database.Extends (db db' : Database) : Prop where
  jobs : ∀ key ∈ db.jobs.map JobRow.key, key ∈ db'.jobs.map JobRow.key
  requests : ∀ row ∈ db.jobRequests, row ∈ db'.jobRequests

theorem Database.Extends.refl (db : Database) : db.Extends db := ⟨fun _ h => h, fun _ h => h⟩

theorem Database.Extends.trans {a b d : Database} (h : a.Extends b) (h' : b.Extends d) : a.Extends d :=
  ⟨fun key hk => h'.jobs key (h.jobs key hk), fun row hr => h'.requests row (h.requests row hr)⟩

theorem Database.WellFormed.id_unique {db : Database} (hw : db.WellFormed) {a b : JobRow}
    (ha : a ∈ db.jobs) (hb : b ∈ db.jobs) (hauth : a.authHash = b.authHash)
    (hreq : a.requestHash = b.requestHash) : a = b :=
  List.inj_on_of_nodup_map hw.uniqueIdentities ha hb (Prod.ext hauth hreq)

theorem Database.insertOrIgnoreJob_cases (db : Database) (row : JobRow) :
    (db.insertOrIgnoreJob row = db ∧ ∃ old ∈ db.jobs,
      old.id = row.id ∨ (old.authHash = row.authHash ∧ old.requestHash = row.requestHash)) ∨
    (db.insertOrIgnoreJob row = { db with jobs := db.jobs ++ [row] } ∧ ∀ old ∈ db.jobs,
      old.id ≠ row.id ∧ ¬ (old.authHash = row.authHash ∧ old.requestHash = row.requestHash)) := by
  unfold Database.insertOrIgnoreJob
  split
  next h =>
    obtain ⟨old, ho, he⟩ := List.any_eq_true.mp h
    exact Or.inl ⟨rfl, old, ho, by simpa using he⟩
  next h =>
    refine Or.inr ⟨rfl, fun old ho => ?_⟩
    have hn : ¬ (old.id = row.id ∨ (old.authHash = row.authHash ∧ old.requestHash = row.requestHash)) :=
      fun he => h (List.any_eq_true.mpr ⟨old, ho, by simpa using he⟩)
    exact ⟨fun he => hn (Or.inl he), fun he => hn (Or.inr he)⟩

theorem Database.insertOrIgnoreRequest_cases (c : Codec) (db : Database) (row : RequestRow)
    (hbody : c.jsonValid row.bodyJson = true) :
    (db.insertOrIgnoreRequest c row = db ∧ ∃ old ∈ db.jobRequests, old.jobId = row.jobId ∨
      (old.authHash = row.authHash ∧ row.idempotencyHash.isSome ∧
        old.idempotencyHash = row.idempotencyHash)) ∨
    (db.insertOrIgnoreRequest c row = { db with jobRequests := db.jobRequests ++ [row] } ∧
      ∀ old ∈ db.jobRequests, old.jobId ≠ row.jobId ∧ ¬ (old.authHash = row.authHash ∧
        row.idempotencyHash.isSome ∧ old.idempotencyHash = row.idempotencyHash)) := by
  unfold Database.insertOrIgnoreRequest
  rw [hbody, Bool.not_true, Bool.false_or]
  split
  next h =>
    obtain ⟨old, ho, he⟩ := List.any_eq_true.mp h
    exact Or.inl ⟨rfl, old, ho, by simpa [and_assoc] using he⟩
  next h =>
    refine Or.inr ⟨rfl, fun old ho => ?_⟩
    have hn : ¬ (old.jobId = row.jobId ∨ (old.authHash = row.authHash ∧ row.idempotencyHash.isSome ∧
        old.idempotencyHash = row.idempotencyHash)) :=
      fun he => h (List.any_eq_true.mpr ⟨old, ho, by simpa [and_assoc] using he⟩)
    exact ⟨fun he => hn (Or.inl he), fun he => hn (Or.inr he)⟩

/-- Either the request table is unchanged or it gains one row that keeps its constraints. -/
theorem Database.insertOrIgnoreRequest_spec (c : Codec) {db : Database} (hw : db.WellFormed)
    (row : RequestRow) (hjob : row.jobId ∈ db.jobs.map JobRow.id) : (db.insertOrIgnoreRequest c row).WellFormed ∧
      db.Extends (db.insertOrIgnoreRequest c row) ∧ (db.insertOrIgnoreRequest c row).jobs = db.jobs := by
  cases hbody : c.jsonValid row.bodyJson with
  | false =>
    have h : db.insertOrIgnoreRequest c row = db := by simp [Database.insertOrIgnoreRequest, hbody]
    rw [h]
    exact ⟨hw, .refl db, rfl⟩
  | true =>
    rcases db.insertOrIgnoreRequest_cases c row hbody with ⟨h, -⟩ | ⟨h, hnew⟩
    · rw [h]
      exact ⟨hw, .refl db, rfl⟩
    · rw [h]
      refine ⟨⟨hw.uniqueIds, hw.uniqueIdentities, ?_, ?_, ?_⟩, ⟨fun _ hk => hk, ?_⟩, rfl⟩
      · rw [List.map_append, List.map_singleton, List.nodup_append]
        refine ⟨hw.uniqueRequests, List.nodup_singleton _, ?_⟩
        intro a ha b hb he
        obtain ⟨old, ho, rfl⟩ := List.mem_map.mp ha
        exact (hnew old ho).1 (he.trans (List.mem_singleton.mp hb))
      · intro a ha b hb hauth hsome hkey
        rcases List.mem_append.mp ha with ha | ha <;> rcases List.mem_append.mp hb with hb | hb
        · exact hw.uniqueKeys a ha b hb hauth hsome hkey
        · cases List.mem_singleton.mp hb
          exact ((hnew a ha).2 ⟨hauth, hkey ▸ hsome, hkey⟩).elim
        · cases List.mem_singleton.mp ha
          exact ((hnew b hb).2 ⟨hauth.symm, hsome, hkey.symm⟩).elim
        · rw [List.mem_singleton.mp ha, List.mem_singleton.mp hb]
      · intro old ho
        rcases List.mem_append.mp ho with ho | ho
        · exact hw.references old ho
        · cases List.mem_singleton.mp ho
          exact hjob
      · exact fun old ho => List.mem_append_left _ ho

theorem Database.insertOrIgnoreJob_spec {db : Database} (hw : db.WellFormed) (row : JobRow) :
    (db.insertOrIgnoreJob row).WellFormed ∧ db.Extends (db.insertOrIgnoreJob row) := by
  rcases db.insertOrIgnoreJob_cases row with ⟨h, -⟩ | ⟨h, hnew⟩
  · rw [h]
    exact ⟨hw, .refl db⟩
  · rw [h]
    refine ⟨⟨?_, ?_, hw.uniqueRequests, hw.uniqueKeys, ?_⟩, ⟨?_, fun _ hr => hr⟩⟩
    · unfold Database.UniqueIds
      rw [List.map_append, List.map_singleton, List.nodup_append]
      refine ⟨hw.uniqueIds, List.nodup_singleton _, ?_⟩
      intro a ha b hb he
      obtain ⟨old, ho, rfl⟩ := List.mem_map.mp ha
      exact (hnew old ho).1 (he.trans (List.mem_singleton.mp hb))
    · rw [List.map_append, List.map_singleton, List.nodup_append]
      refine ⟨hw.uniqueIdentities, List.nodup_singleton _, ?_⟩
      intro a ha b hb he
      obtain ⟨old, ho, rfl⟩ := List.mem_map.mp ha
      have hp := he.trans (List.mem_singleton.mp hb)
      exact (hnew old ho).2 ⟨congrArg Prod.fst hp, congrArg Prod.snd hp⟩
    · intro old ho
      rw [List.map_append]
      exact List.mem_append_left _ (hw.references old ho)
    · intro key hk
      rw [List.map_append]
      exact List.mem_append_left _ hk

theorem Transition.run_keys (c : Codec) (now : Timestamp) (db : Database) (t : Transition) :
    (t.run c now db).1.jobs.map JobRow.key = db.jobs.map JobRow.key ∧
      (t.run c now db).1.jobRequests = db.jobRequests := by
  rw [Transition.run_eq]
  unfold Database.transition
  split
  · exact ⟨rfl, rfl⟩
  · split
    · refine ⟨?_, rfl⟩
      simp only [List.map_map]
      apply List.map_congr_left
      intro row _
      obtain ⟨ha, hr, -⟩ := t.set_identity c now row
      simp only [Function.comp_apply]
      split
      · simp only [JobRow.key, t.set_id, ha, hr]
      · rfl
    · exact ⟨rfl, rfl⟩

private theorem nodup_of_key {α : Type} (f : String × String × String → α) (jobs jobs' : List JobRow)
    (h : jobs'.map JobRow.key = jobs.map JobRow.key) (hn : (jobs.map (fun row => f row.key)).Nodup) :
    (jobs'.map (fun row => f row.key)).Nodup := by
  have hm := congrArg (List.map f) h
  rw [List.map_map, List.map_map] at hm
  exact hm ▸ hn

theorem Transition.run_spec (c : Codec) (now : Timestamp) {db : Database} (hw : db.WellFormed)
    (t : Transition) : (t.run c now db).1.WellFormed ∧ db.Extends (t.run c now db).1 := by
  obtain ⟨hk, hr⟩ := t.run_keys c now db
  refine ⟨⟨?_, ?_, hr ▸ hw.uniqueRequests, hr ▸ hw.uniqueKeys, ?_⟩,
    ⟨fun key h => hk ▸ h, fun row h => hr ▸ h⟩⟩
  · exact nodup_of_key (fun key => key.1) _ _ hk hw.uniqueIds
  · exact nodup_of_key (fun key => key.2) _ _ hk hw.uniqueIdentities
  · intro row h
    have hids := congrArg (List.map Prod.fst) hk
    rw [List.map_map, List.map_map] at hids
    exact hids.symm ▸ hw.references row (hr ▸ h)

/-- What a committed transaction did: both inserts ran for the selected id, and the key, if
any, belongs to that id. -/
theorem Database.enqueueTransaction_ok {c : Codec} {db db' : Database}
    {uuid authHash provider : String} {request : NormalizedRequest} {id : JobId}
    (h : db.enqueueTransaction c uuid authHash provider request = .ok (db', id)) :
    let db₁ := db.insertOrIgnoreJob (.queued uuid authHash request.requestHash request.model)
    db₁.jobIdOf authHash request.requestHash = some id.text ∧
      db' = db₁.insertOrIgnoreRequest c
        ⟨id.text, provider, authHash, request.idempotencyHash, c.print request.batchBody⟩ ∧
      ∀ key, request.idempotencyHash = some key → db'.ownerOf authHash key = some id.text := by
  unfold Database.enqueueTransaction at h
  dsimp only at h
  split at h
  · cases h
  next found hid =>
    split at h
    next hkey =>
      cases h
      exact ⟨hid, rfl, fun key hk => by rw [hkey] at hk; cases hk⟩
    next key hkey =>
      split at h
      · cases h
      next owner howner =>
        split at h
        · cases h
        next hsame =>
          cases h
          refine ⟨hid, rfl, fun key' hk => ?_⟩
          rw [hkey] at hk
          cases hk
          rw [howner, not_not.mp hsame]

theorem Database.enqueueTransaction_spec (c : Codec) {db db' : Database} (hw : db.WellFormed)
    {uuid authHash provider : String} {request : NormalizedRequest} {id : JobId}
    (h : db.enqueueTransaction c uuid authHash provider request = .ok (db', id)) :
    db'.WellFormed ∧ db.Extends db' ∧ (id.text, authHash, request.requestHash) ∈ db'.jobs.map JobRow.key := by
  obtain ⟨hid, rfl, -⟩ := Database.enqueueTransaction_ok h
  obtain ⟨hw₁, he₁⟩ := Database.insertOrIgnoreJob_spec hw
    (.queued uuid authHash request.requestHash request.model)
  obtain ⟨row, hrow, hrid⟩ := Option.map_eq_some_iff.mp hid
  have hm := List.mem_of_find?_eq_some hrow
  obtain ⟨ha, hr⟩ : row.authHash = authHash ∧ row.requestHash = request.requestHash := by
    simpa using List.find?_some hrow
  obtain ⟨hw₂, he₂, hj⟩ := Database.insertOrIgnoreRequest_spec c hw₁ ⟨id.text, provider,
    authHash, request.idempotencyHash, c.print request.batchBody⟩ (List.mem_map.mpr ⟨row, hm, hrid⟩)
  refine ⟨hw₂, he₁.trans he₂, hj ▸ List.mem_map.mpr ⟨row, hm, ?_⟩⟩
  rw [JobRow.key, hrid, ha, hr]

theorem Database.enqueue_spec (c : Codec) {db : Database} (hw : db.WellFormed)
    (uuid authHash provider : String) (request : NormalizedRequest) :
    (db.enqueue c uuid authHash provider request).1.WellFormed ∧
      db.Extends (db.enqueue c uuid authHash provider request).1 := by
  unfold Database.enqueue
  split
  · exact ⟨hw, .refl db⟩
  next h =>
    obtain ⟨hw', he, -⟩ := Database.enqueueTransaction_spec c hw h
    exact ⟨hw', he⟩

theorem Database.insertOrIgnoreJob_row? {db : Database} {id : JobId} {row : JobRow}
    (h : db.row? id = some row) (new : JobRow) : (db.insertOrIgnoreJob new).row? id = some row := by
  rcases db.insertOrIgnoreJob_cases new with ⟨he, -⟩ | ⟨he, -⟩
  · rwa [he]
  · rw [he]
    unfold Database.row? at h ⊢
    rw [List.find?_append, h]
    rfl

theorem Database.insertOrIgnoreRequest_jobs (c : Codec) (db : Database) (row : RequestRow) :
    (db.insertOrIgnoreRequest c row).jobs = db.jobs := by
  unfold Database.insertOrIgnoreRequest
  split <;> rfl

/-- Registration adds rows and touches none. -/
theorem Database.enqueue_row? (c : Codec) {db : Database} {id : JobId} {row : JobRow}
    (h : db.row? id = some row) (uuid authHash provider : String) (request : NormalizedRequest) :
    (db.enqueue c uuid authHash provider request).1.row? id = some row := by
  unfold Database.enqueue
  split
  · exact h
  next ht =>
    obtain ⟨-, rfl, -⟩ := Database.enqueueTransaction_ok ht
    have hjobs := Database.insertOrIgnoreJob_row? h
      (.queued uuid authHash request.requestHash request.model)
    unfold Database.row? at hjobs ⊢
    rwa [Database.insertOrIgnoreRequest_jobs]

/-- Every statement of the store keeps the schema's constraints and every registration. -/
theorem StoreStep.spec {c : Codec} {db db' : Database} (h : StoreStep c db db') (hw : db.WellFormed) :
    db'.WellFormed ∧ db.Extends db' := by
  cases h with
  | enqueue uuid authHash provider request fault fresh =>
    rcases fault.apply_fst ProxyError.database db (db.enqueue c uuid authHash provider request) with hf | hf
    · rw [hf]
      exact ⟨hw, .refl db⟩
    · rw [hf]
      exact db.enqueue_spec c hw uuid authHash provider request
  | getOrCreate uuid authHash requestHash model fault fresh =>
    rcases fault.apply_fst PersistenceError.database db (db.getOrCreate c uuid authHash requestHash model) with hf | hf
    · rw [hf]
      exact ⟨hw, .refl db⟩
    · rw [hf]
      exact Database.insertOrIgnoreJob_spec hw _
  | transition t now fault =>
    rcases fault.apply_fst PersistenceError.database db (t.run c now db) with hf | hf
    · rw [hf]
      exact ⟨hw, .refl db⟩
    · rw [hf]
      exact t.run_spec c now hw

theorem StoreStep.run_spec {c : Codec} {db db' : Database}
    (h : Relation.ReflTransGen (StoreStep c) db db') (hw : db.WellFormed) :
    db'.WellFormed ∧ db.Extends db' := by
  induction h with
  | refl => exact ⟨hw, .refl db⟩
  | tail _ hs ih =>
    obtain ⟨hw', he⟩ := hs.spec ih.1
    exact ⟨hw', ih.2.trans he⟩

end Kaiion.Durable

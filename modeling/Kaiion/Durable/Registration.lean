import Kaiion.Durable.JobStore
import Kaiion.Json.Print

/-! Enqueue registers a request once, atomically and for good. -/
namespace Kaiion.Durable
open Relation

theorem Database.get_id {c : Codec} {db : Database} {id : JobId} {job : Job}
    (h : db.get c id = .ok job) : job.id = id := by
  unfold Database.get at h
  cases hr : db.row? id with
  | none =>
    rw [hr] at h
    cases h
  | some row =>
    rw [hr] at h
    rw [(JobRow.tryFrom_ok h).1, Database.row?_id hr]

theorem Database.mem_key_iff {db : Database} {id authHash requestHash : String} :
    (id, authHash, requestHash) ∈ db.jobs.map JobRow.key ↔
      ∃ row ∈ db.jobs, row.id = id ∧ row.authHash = authHash ∧ row.requestHash = requestHash := by
  simp [JobRow.key, Prod.ext_iff]

/-- A call that returns a job has registered its identity under that job's id. -/
theorem Database.enqueue_ok {c : Codec} {db db' : Database} (hw : db.WellFormed)
    {uuid authHash provider : String} {request : NormalizedRequest} {job : Job}
    (h : db.enqueue c uuid authHash provider request = (db', .ok job)) :
    (job.id.text, authHash, request.requestHash) ∈ db'.jobs.map JobRow.key := by
  unfold Database.enqueue at h
  split at h
  · cases h
  next tables id ht =>
    obtain ⟨-, -, hk⟩ := Database.enqueueTransaction_spec c hw ht
    cases hg : tables.get c id with
    | error e =>
      rw [hg] at h
      cases h
    | ok found =>
      rw [hg] at h
      cases h
      rwa [Database.get_id hg]

theorem Database.WellFormed.id_of_key {db : Database} (hw : db.WellFormed) {id id' authHash requestHash : String}
    (h : (id, authHash, requestHash) ∈ db.jobs.map JobRow.key)
    (h' : (id', authHash, requestHash) ∈ db.jobs.map JobRow.key) : id = id' := by
  obtain ⟨a, ha, rfl, haa, har⟩ := Database.mem_key_iff.mp h
  obtain ⟨b, hb, rfl, hba, hbr⟩ := Database.mem_key_iff.mp h'
  rw [hw.id_unique ha hb (haa.trans hba.symm) (har.trans hbr.symm)]

/-- Two calls for one identity, with any statements between them, return one id. -/
theorem Database.enqueue_repeat {c : Codec} {db db' later later' : Database} (hw : db.WellFormed)
    {uuid uuid' authHash provider provider' : String} {request request' : NormalizedRequest} {job job' : Job}
    (h : db.enqueue c uuid authHash provider request = (db', .ok job))
    (hrun : ReflTransGen (StoreStep c) db' later) (hsame : request'.requestHash = request.requestHash)
    (h' : later.enqueue c uuid' authHash provider' request' = (later', .ok job')) : job'.id = job.id := by
  have hw' : db'.WellFormed := by
    have hs := (db.enqueue_spec c hw uuid authHash provider request).1
    rwa [h] at hs
  obtain ⟨hwl, hel⟩ := StoreStep.run_spec hrun hw'
  have hs := later.enqueue_spec c hwl uuid' authHash provider' request'
  rw [h'] at hs
  have hfirst := hs.2.jobs _ (hel.jobs _ (Database.enqueue_ok hw h))
  have hsecond := hsame ▸ Database.enqueue_ok hwl h'
  have hid := hs.1.id_of_key hsecond hfirst
  cases hj : job'.id
  cases hk : job.id
  simp_all

/-- The transaction that makes a fresh id visible stores the caller's hash and body beside it. -/
theorem Database.enqueueTransaction_creates {c : Codec} {db db' : Database} (hw : db.WellFormed)
    {uuid authHash provider : String} {request : NormalizedRequest} {id : JobId}
    (hjson : c.jsonValid (c.print request.batchBody) = true) (fresh : uuid ∉ db.jobs.map JobRow.id)
    (h : db.enqueueTransaction c uuid authHash provider request = .ok (db', id))
    (hnew : uuid ∈ db'.jobs.map JobRow.id) :
    (uuid, authHash, request.requestHash) ∈ db'.jobs.map JobRow.key ∧
      (⟨uuid, provider, authHash, request.idempotencyHash, c.print request.batchBody⟩ : RequestRow) ∈
        db'.jobRequests := by
  have orphan : ∀ row ∈ db.jobRequests, row.jobId ≠ uuid := fun row hr he =>
    fresh (he ▸ hw.references row hr)
  have hkey := (Database.enqueueTransaction_spec c hw h).2.2
  obtain ⟨hid, hdb, howner⟩ := Database.enqueueTransaction_ok h
  obtain ⟨hw₁, -⟩ := Database.insertOrIgnoreJob_spec hw
    (.queued uuid authHash request.requestHash request.model)
  rcases db.insertOrIgnoreJob_cases (.queued uuid authHash request.requestHash request.model) with
    ⟨hj, -⟩ | ⟨hj, hnone⟩ <;> rw [hj] at hid hdb hw₁
  · -- the insert was ignored, so no row carries the fresh id
    obtain ⟨row, hrow, hrid⟩ := Option.map_eq_some_iff.mp hid
    have hjobs := (Database.insertOrIgnoreRequest_spec c hw ⟨id.text, provider, authHash,
      request.idempotencyHash, c.print request.batchBody⟩
      (List.mem_map.mpr ⟨row, List.mem_of_find?_eq_some hrow, hrid⟩)).2.2
    rw [hdb, hjobs] at hnew
    exact (fresh hnew).elim
  · -- no older row has this identity, so the new row is the one selected
    have hsel : id.text = uuid := by
      have hold : db.jobs.find? (fun row => row.authHash = authHash && row.requestHash = request.requestHash) =
          none := List.find?_eq_none.mpr (fun old ho => by
          simpa [JobRow.queued] using (hnone old ho).2)
      unfold Database.jobIdOf at hid
      rw [List.find?_append, hold] at hid
      simpa [JobRow.queued, eq_comm] using hid
    rw [hsel] at hkey hdb howner
    refine ⟨hkey, ?_⟩
    rcases Database.insertOrIgnoreRequest_cases c
        { db with jobs := db.jobs ++ [.queued uuid authHash request.requestHash request.model] }
      ⟨uuid, provider, authHash, request.idempotencyHash, c.print request.batchBody⟩ hjson with
      ⟨hi, old, ho, hclash⟩ | ⟨hi, -⟩ <;> rw [hi] at hdb
    · -- a clash on the key leaves the key with an older job, which the transaction refuses
      obtain ⟨-, hsome, -⟩ := hclash.resolve_left (orphan old ho)
      obtain ⟨key, hk⟩ := Option.isSome_iff_exists.mp hsome
      obtain ⟨row, hrow, hrid⟩ := Option.map_eq_some_iff.mp (howner key hk)
      rw [hdb] at hrow
      exact (orphan row (List.mem_of_find?_eq_some hrow) hrid).elim
    · rw [hdb]
      exact List.mem_append_right _ (List.mem_singleton.mpr rfl)

/-- A call that reports a conflict has dropped its transaction. -/
theorem Database.enqueue_conflict {c : Codec} {db db' : Database} {uuid authHash provider : String}
    {request : NormalizedRequest} {message : String}
    (h : db.enqueue c uuid authHash provider request = (db', .error (.conflict message))) : db' = db := by
  unfold Database.enqueue at h
  split at h
  · exact (Prod.mk.inj h).1.symm
  next tables id ht =>
    cases hg : tables.get c id <;> rw [hg] at h <;> cases h

/-- A job made by an enqueue keeps, in every later state, the one request row stored with it. -/
theorem Database.enqueue_body {c : Codec} {db later : Database} (hw : db.WellFormed)
    (uuid authHash provider : String) (request : NormalizedRequest) (fault : Fault)
    (hjson : c.jsonValid (c.print request.batchBody) = true) (fresh : uuid ∉ db.jobs.map JobRow.id)
    (hnew : uuid ∈ (fault.apply ProxyError.database db
      (db.enqueue c uuid authHash provider request)).1.jobs.map JobRow.id)
    (hrun : ReflTransGen (StoreStep c) (fault.apply ProxyError.database db
      (db.enqueue c uuid authHash provider request)).1 later) :
    (uuid, authHash, request.requestHash) ∈ later.jobs.map JobRow.key ∧
      ∃ row ∈ later.jobRequests, row.jobId = uuid ∧ row.authHash = authHash ∧
        row.bodyJson = c.print request.batchBody ∧ ∀ other ∈ later.jobRequests, other.jobId = uuid → other = row := by
  have hstep : StoreStep c db _ := .enqueue db uuid authHash provider request fault fresh
  have hw' := (hstep.spec hw).1
  obtain ⟨hwl, hel⟩ := StoreStep.run_spec hrun hw'
  have hcommit : (fault.apply ProxyError.database db (db.enqueue c uuid authHash provider request)).1 =
      (db.enqueue c uuid authHash provider request).1 := by
    rcases fault.apply_fst ProxyError.database db (db.enqueue c uuid authHash provider request) with hf | hf
    · rw [hf] at hnew
      exact (fresh hnew).elim
    · exact hf
  rw [hcommit] at hnew hel
  cases ht : db.enqueueTransaction c uuid authHash provider request with
  | error e =>
    simp only [Database.enqueue, ht] at hnew
    exact (fresh hnew).elim
  | ok committed =>
    obtain ⟨db', id⟩ := committed
    simp only [Database.enqueue, ht] at hnew hel
    obtain ⟨hkey, hrow⟩ := Database.enqueueTransaction_creates hw hjson fresh ht hnew
    refine ⟨hel.jobs _ hkey, _, hel.requests _ hrow, rfl, rfl, rfl, fun other ho hid => ?_⟩
    exact List.inj_on_of_nodup_map hwl.uniqueRequests ho (hel.requests _ hrow) hid

/-- Over any serial history of the store: an identity keeps one job id and every call for it
returns that id, a key belongs to one job, a job made by an enqueue has its first body beside it
from its first visible state on, and a conflict changes no table. -/
theorem enqueue_registers_once (c : Codec) (hjson : ∀ value, c.jsonValid (c.print value) = true)
    {start db : Database} (hw : start.WellFormed) (hrun : ReflTransGen (StoreStep c) start db) :
    (∀ row ∈ db.jobs, ∀ other ∈ db.jobs, row.authHash = other.authHash →
      row.requestHash = other.requestHash → row.id = other.id) ∧
    (∀ later, ReflTransGen (StoreStep c) db later → ∀ row ∈ db.jobs, ∃ kept ∈ later.jobs,
      kept.id = row.id ∧ kept.authHash = row.authHash ∧ kept.requestHash = row.requestHash) ∧
    (∀ uuid authHash provider request db' job,
      db.enqueue c uuid authHash provider request = (db', .ok job) →
      (∀ row ∈ db.jobs, row.authHash = authHash → row.requestHash = request.requestHash →
        row.id = job.id.text) ∧
      ∀ later, ReflTransGen (StoreStep c) db' later → ∀ uuid' provider' request' later' job',
        request'.requestHash = request.requestHash →
        later.enqueue c uuid' authHash provider' request' = (later', .ok job') → job'.id = job.id) ∧
    (∀ row ∈ db.jobRequests, ∀ other ∈ db.jobRequests, row.authHash = other.authHash →
      row.idempotencyHash.isSome → row.idempotencyHash = other.idempotencyHash → row.jobId = other.jobId) ∧
    (∀ uuid authHash provider (request : NormalizedRequest) (fault : Fault), uuid ∉ db.jobs.map JobRow.id →
      let db' := (fault.apply ProxyError.database db (db.enqueue c uuid authHash provider request)).1
      uuid ∈ db'.jobs.map JobRow.id → ∀ later, ReflTransGen (StoreStep c) db' later →
        (uuid, authHash, request.requestHash) ∈ later.jobs.map JobRow.key ∧
        ∃ row ∈ later.jobRequests, row.jobId = uuid ∧ row.authHash = authHash ∧
          row.bodyJson = c.print request.batchBody ∧
          ∀ other ∈ later.jobRequests, other.jobId = uuid → other = row) ∧
    (∀ uuid authHash provider request db' message,
      db.enqueue c uuid authHash provider request = (db', .error (.conflict message)) → db' = db) := by
  obtain ⟨hdb, -⟩ := StoreStep.run_spec hrun hw
  refine ⟨fun row hr other ho ha hq => congrArg JobRow.id (hdb.id_unique hr ho ha hq), ?_, ?_,
    hdb.uniqueKeys, ?_, fun _ _ _ _ _ _ h => Database.enqueue_conflict h⟩
  · intro later hlater row hr
    exact Database.mem_key_iff.mp
      ((StoreStep.run_spec hlater hdb).2.jobs _ (List.mem_map_of_mem (f := JobRow.key) hr))
  · intro uuid authHash provider request db' job h
    refine ⟨?_, fun later hlater uuid' provider' request' later' job' hsame h' =>
      Database.enqueue_repeat hdb h hlater hsame h'⟩
    rintro row hr rfl hq
    have hs := db.enqueue_spec c hdb uuid row.authHash provider request
    rw [h] at hs
    have hkept := hs.2.jobs _ (List.mem_map_of_mem (f := JobRow.key) hr)
    rw [JobRow.key, hq] at hkept
    exact hs.1.id_of_key hkept (Database.enqueue_ok hdb h)
  · intro uuid authHash provider request fault fresh db' hnew later hlater
    exact Database.enqueue_body hdb uuid authHash provider request fault (hjson _) fresh hnew hlater

/-- One keyed request is sent to an empty store, sent again, and its key with another body: the second call gets
the first job, the third a conflict that changes nothing, and the body stays through every later history. -/
theorem enqueue_registers_once_repeated :
    let c : Codec := Json.compact
    let first : NormalizedRequest := ⟨.object [("input", .string "hi")], "request", "model", false, some "key"⟩
    let changed : NormalizedRequest := ⟨.object [("input", .string "bye")], "changed", "model", false, some "key"⟩
    let db : Database := ((⟨[], []⟩ : Database).enqueue c "job" "auth" "provider" first).1
    (∃ db' job, db.enqueue c "second" "auth" "provider" first = (db', .ok job) ∧ job.id = ⟨"job"⟩) ∧
    (∃ db' message, db.enqueue c "third" "auth" "provider" changed = (db', .error (.conflict message)) ∧ db' = db) ∧
    ∀ later, ReflTransGen (StoreStep c) db later → ∃ row ∈ later.jobRequests,
      row.jobId = "job" ∧ row.authHash = "auth" ∧ row.bodyJson = c.print (.object [("input", .string "hi")]) := by
  intro c first changed db
  have hempty : (⟨[], []⟩ : Database).WellFormed :=
    ⟨List.nodup_nil, List.nodup_nil, List.nodup_nil, by simp, by simp⟩
  have hrun : ReflTransGen (StoreStep c) ⟨[], []⟩ db :=
    .single (.enqueue ⟨[], []⟩ "job" "auth" "provider" first .none List.not_mem_nil)
  have hregistered : (⟨[], []⟩ : Database).enqueue c "job" "auth" "provider" first =
      (db, .ok ⟨⟨"job"⟩, "model", .queued⟩) := rfl
  obtain ⟨-, -, hrepeats, -, hcreated, -⟩ := @enqueue_registers_once c (fun _ => rfl) ⟨[], []⟩ _ hempty .refl
  obtain ⟨-, -, -, -, -, hconflicts⟩ := @enqueue_registers_once c (fun _ => rfl) ⟨[], []⟩ db hempty hrun
  refine ⟨⟨_, _, rfl, ?_⟩, ⟨_, _, rfl, hconflicts "third" "auth" "provider" changed _ _ rfl⟩, ?_⟩
  · exact (hrepeats "job" "auth" "provider" first db _ hregistered).2 db .refl "second" "provider" first _ _ rfl rfl
  · intro later hlater
    obtain ⟨-, row, hrow, hid, hauth, hbody, -⟩ := hcreated "job" "auth" "provider" first .none
      List.not_mem_nil (by decide) later hlater
    exact ⟨row, hrow, hid, hauth, hbody⟩

end Kaiion.Durable

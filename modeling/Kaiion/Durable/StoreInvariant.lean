import Kaiion.Durable.OwnedJobs
import Kaiion.Durable.RowMachine

/-! What every reachable store satisfies: the schema's constraints and requests registered under the
credentials of their jobs. Its rows decode as far as the outcomes in them read back. -/
namespace Kaiion.Durable

/-- Every request is registered under the credentials of its job. -/
structure Database.Registered (db : Database) : Prop where
  wellFormed : db.WellFormed
  owned : ∀ request ∈ db.jobRequests, ∀ row ∈ db.jobs, row.id = request.jobId → row.authHash = request.authHash

/-- Every row passes the CHECK clause. -/
def Database.Checked (c : Codec) (db : Database) : Prop := ∀ row ∈ db.jobs, row.check c = true

/-- The constraints of both tables. -/
structure Database.Sound (c : Codec) (db : Database) : Prop extends db.Registered where
  checked : db.Checked c

/-- Every outcome in the store reads back. -/
def Database.Readable (c : Codec) (db : Database) : Prop :=
  ∀ row ∈ db.jobs, ∀ text, row.outcomeJson = some text → ∃ value, c.parse text = .ok value

def Database.empty : Database := ⟨[], []⟩

theorem Database.empty_sound (c : Codec) : Database.empty.Sound c where
  wellFormed := ⟨List.nodup_nil, List.nodup_nil, List.nodup_nil, fun _ h => (nomatch h), fun _ h => nomatch h⟩
  owned := fun _ h => nomatch h
  checked := fun _ h => nomatch h

theorem Database.empty_readable (c : Codec) : Database.empty.Readable c := fun _ h => nomatch h

/-- The first registration of a store. -/
theorem Database.enqueue_empty (c : Codec) (uuid authHash provider : String) {request : NormalizedRequest}
    {key : String} (hkey : request.idempotencyHash = some key) (hvalid : c.jsonValid (c.print request.batchBody) = true) :
    Database.empty.enqueue c uuid authHash provider request =
      (⟨[.queued uuid authHash request.requestHash request.model],
        [⟨uuid, provider, authHash, some key, c.print request.batchBody⟩]⟩, .ok ⟨⟨uuid⟩, request.model, .queued⟩) := by
  simp [Database.enqueue, Database.enqueueTransaction, Database.insertOrIgnoreJob, Database.insertOrIgnoreRequest,
    Database.jobIdOf, Database.ownerOf, Database.get, Database.row?, Database.empty, JobRow.queued, JobRow.tryFrom,
    JobRow.reject, Except.mapError, hkey, hvalid, bind, Except.bind, pure, Except.pure]

variable {c : Codec} {db : Database}

theorem Database.Sound.decodes (h : db.Sound c) (hreads : db.Readable c) {row : JobRow} (hrow : row ∈ db.jobs) :
    ∃ state, row.Encodes c state :=
  JobRow.encodes_of_check (h.checked row hrow) (hreads row hrow)

theorem Database.Registered.insertOrIgnoreJob (h : db.Registered) (new : JobRow) :
    (db.insertOrIgnoreJob new).Registered := by
  have hw := (Database.insertOrIgnoreJob_spec h.wellFormed new).1
  rcases db.insertOrIgnoreJob_cases new with ⟨heq, -⟩ | ⟨heq, hnew⟩
  · rw [heq]
    exact h
  · rw [heq] at hw ⊢
    refine ⟨hw, fun request hrequest row hrow hid => ?_⟩
    rcases List.mem_append.mp hrow with hrow | hrow
    · exact h.owned request hrequest row hrow hid
    · -- No request refers to the new id.
      obtain ⟨old, hold, heq⟩ := List.mem_map.mp (h.wellFormed.references request hrequest)
      rw [List.mem_singleton.mp hrow] at hid
      exact absurd (heq.trans hid.symm) (hnew old hold).1

theorem Database.Registered.insertOrIgnoreRequest (h : db.Registered) (c : Codec) (request : RequestRow)
    (howner : ∃ row ∈ db.jobs, row.id = request.jobId ∧ row.authHash = request.authHash) :
    (db.insertOrIgnoreRequest c request).Registered := by
  obtain ⟨owner, howner, hid, hauth⟩ := howner
  obtain ⟨hw, -, hjobs⟩ := Database.insertOrIgnoreRequest_spec c h.wellFormed request
    (List.mem_map.mpr ⟨owner, howner, hid⟩)
  refine ⟨hw, fun other hother row hrow hrowid => ?_⟩
  rw [hjobs] at hrow
  have hcases : other ∈ db.jobRequests ∨ other = request := by
    unfold Database.insertOrIgnoreRequest at hother
    split at hother
    · exact .inl hother
    · exact (List.mem_append.mp hother).imp_right List.mem_singleton.mp
  rcases hcases with hold | rfl
  · exact h.owned other hold row hrow hrowid
  · rw [h.wellFormed.uniqueIds.eq_of_id hrow howner (hrowid.trans hid.symm), hauth]

/-- The transaction registers the request under the job it selects. -/
theorem Database.jobIdOf_owner {authHash requestHash id : String} (h : db.jobIdOf authHash requestHash = some id) :
    ∃ row ∈ db.jobs, row.id = id ∧ row.authHash = authHash := by
  obtain ⟨row, hrow, hrowid⟩ := Option.map_eq_some_iff.mp h
  have hfound : row.authHash = authHash ∧ row.requestHash = requestHash := by simpa using List.find?_some hrow
  exact ⟨row, List.mem_of_find?_eq_some hrow, hrowid, hfound.1⟩

theorem Database.Registered.enqueueTransaction {db' : Database} (h : db.Registered)
    {uuid authHash provider : String} {request : NormalizedRequest} {id : JobId}
    (hrun : db.enqueueTransaction c uuid authHash provider request = .ok (db', id)) : db'.Registered := by
  obtain ⟨hid, rfl, -⟩ := Database.enqueueTransaction_ok hrun
  exact (h.insertOrIgnoreJob _).insertOrIgnoreRequest c _ (Database.jobIdOf_owner hid)

theorem Database.Registered.enqueue (h : db.Registered) (c : Codec) (uuid authHash provider : String)
    (request : NormalizedRequest) : (db.enqueue c uuid authHash provider request).1.Registered := by
  unfold Database.enqueue
  split
  · exact h
  next hrun => exact h.enqueueTransaction hrun

theorem Database.Registered.transition (h : db.Registered) (c : Codec) (t : Transition) (now : Timestamp) :
    (t.run c now db).1.Registered := by
  obtain ⟨hkeys, hrequests⟩ := t.run_keys c now db
  refine ⟨(t.run_spec c now h.wellFormed).1, fun request hrequest row hrow hid => ?_⟩
  have hkey : row.key ∈ db.jobs.map JobRow.key := hkeys ▸ List.mem_map_of_mem hrow
  obtain ⟨old, hold, heq⟩ := List.mem_map.mp hkey
  obtain ⟨hsameId, hrest⟩ := Prod.mk.inj heq
  rw [← (Prod.mk.inj hrest).1]
  exact h.owned request (hrequests ▸ hrequest) old hold (hsameId.trans hid)

theorem JobRow.queued_encodes (c : Codec) (id authHash requestHash model : String) :
    (JobRow.queued id authHash requestHash model).Encodes c .queued := ⟨rfl, rfl, rfl, rfl, rfl⟩

/-- What the first insert leaves in the table: its jobs, and perhaps a queued one. -/
theorem Database.mem_insertOrIgnoreJob {new row : JobRow} (h : row ∈ (db.insertOrIgnoreJob new).jobs) :
    row ∈ db.jobs ∨ row = new := by
  rcases db.insertOrIgnoreJob_cases new with ⟨heq, -⟩ | ⟨heq, -⟩
  · rw [heq] at h
    exact .inl h
  · rw [heq] at h
    exact (List.mem_append.mp h).imp_right List.mem_singleton.mp

theorem Database.Checked.insertOrIgnoreJob (h : db.Checked c) (id authHash requestHash model : String) :
    (db.insertOrIgnoreJob (.queued id authHash requestHash model)).Checked c := by
  intro row hrow
  rcases Database.mem_insertOrIgnoreJob hrow with hrow | rfl
  · exact h row hrow
  · exact (JobRow.queued_encodes c id authHash requestHash model).check

theorem Database.Readable.insertOrIgnoreJob (h : db.Readable c) (id authHash requestHash model : String) :
    (db.insertOrIgnoreJob (.queued id authHash requestHash model)).Readable c := by
  intro row hrow text htext
  rcases Database.mem_insertOrIgnoreJob hrow with hrow | rfl
  · exact h row hrow text htext
  · cases htext

theorem Database.Checked.enqueue (h : db.Checked c) (uuid authHash provider : String) (request : NormalizedRequest) :
    (db.enqueue c uuid authHash provider request).1.Checked c := by
  unfold Database.enqueue
  split
  · exact h
  next hrun =>
    obtain ⟨-, rfl, -⟩ := Database.enqueueTransaction_ok hrun
    unfold Database.Checked
    rw [Database.insertOrIgnoreRequest_jobs]
    exact h.insertOrIgnoreJob uuid authHash request.requestHash request.model

theorem Database.Readable.enqueue (h : db.Readable c) (uuid authHash provider : String) (request : NormalizedRequest) :
    (db.enqueue c uuid authHash provider request).1.Readable c := by
  unfold Database.enqueue
  split
  · exact h
  next hrun =>
    obtain ⟨-, rfl, -⟩ := Database.enqueueTransaction_ok hrun
    unfold Database.Readable
    rw [Database.insertOrIgnoreRequest_jobs]
    exact h.insertOrIgnoreJob uuid authHash request.requestHash request.model

theorem Database.Checked.transition (h : db.Checked c) (hu : db.UniqueIds) (t : Transition) (now : Timestamp) :
    (t.run c now db).1.Checked c := by
  rcases t.run_cases c now hu with ⟨error, heq, -⟩ | ⟨row, -, -, hcheck, heq⟩
  · rw [heq]
    exact h
  · rw [heq]
    intro other hother
    obtain ⟨old, hold, rfl⟩ := List.mem_map.mp hother
    split
    · exact hcheck
    · exact h old hold

theorem StoreStep.checked {db' : Database} (hstep : StoreStep c db db') (hu : db.UniqueIds) (h : db.Checked c) :
    db'.Checked c := by
  cases hstep with
  | enqueue uuid authHash provider request fault fresh =>
    rcases fault.apply_fst ProxyError.database db (db.enqueue c uuid authHash provider request) with hf | hf
    · rwa [hf]
    · rw [hf]
      exact h.enqueue uuid authHash provider request
  | getOrCreate uuid authHash requestHash model fault fresh =>
    rcases fault.apply_fst PersistenceError.database db (db.getOrCreate c uuid authHash requestHash model) with
      hf | hf
    · rwa [hf]
    · rw [hf]
      exact h.insertOrIgnoreJob uuid authHash requestHash model
  | transition t now fault =>
    rcases fault.apply_fst PersistenceError.database db (t.run c now db) with hf | hf
    · rwa [hf]
    · rw [hf]
      exact h.transition hu t now

theorem StoreStep.registered {db' : Database} (hstep : StoreStep c db db') (h : db.Registered) : db'.Registered := by
  cases hstep with
  | enqueue uuid authHash provider request fault fresh =>
    rcases fault.apply_fst ProxyError.database db (db.enqueue c uuid authHash provider request) with hf | hf
    · rwa [hf]
    · rw [hf]
      exact h.enqueue c uuid authHash provider request
  | getOrCreate uuid authHash requestHash model fault fresh =>
    rcases fault.apply_fst PersistenceError.database db (db.getOrCreate c uuid authHash requestHash model) with
      hf | hf
    · rwa [hf]
    · rw [hf]
      exact h.insertOrIgnoreJob _
  | transition t now fault =>
    rcases fault.apply_fst PersistenceError.database db (t.run c now db) with hf | hf
    · rwa [hf]
    · rw [hf]
      exact h.transition c t now

theorem StoreStep.sound {db' : Database} (hstep : StoreStep c db db') (h : db.Sound c) : db'.Sound c :=
  ⟨hstep.registered h.toRegistered, hstep.checked h.wellFormed.uniqueIds h.checked⟩

/-- An enqueue that goes through. -/
theorem StoreStep.enqueued (uuid authHash provider : String) (request : NormalizedRequest)
    (fresh : uuid ∉ db.jobs.map JobRow.id) : StoreStep c db (db.enqueue c uuid authHash provider request).1 :=
  .enqueue db uuid authHash provider request .none fresh

theorem StoreStep.run_checked {db' : Database} (hrun : Relation.ReflTransGen (StoreStep c) db db')
    (hw : db.WellFormed) (h : db.Checked c) : db'.Checked c := by
  induction hrun with
  | refl => exact h
  | tail hbefore hstep ih => exact hstep.checked (StoreStep.run_spec hbefore hw).1.uniqueIds ih

/-- Every store reached from a sound one is sound. -/
theorem StoreStep.run_sound {db' : Database} (hrun : Relation.ReflTransGen (StoreStep c) db db')
    (h : db.Sound c) : db'.Sound c := by
  induction hrun with
  | refl => exact h
  | tail _ hstep ih => exact hstep.sound ih

theorem Database.mem_joined {row : JobRow} {request : RequestRow} :
    (row, request) ∈ db.joined ↔ row ∈ db.jobs ∧ request ∈ db.jobRequests ∧ row.id = request.jobId := by
  simp only [Database.joined, List.mem_flatMap, List.mem_map, List.mem_filter, decide_eq_true_eq, Prod.mk.injEq]
  constructor
  · rintro ⟨other, hother, found, ⟨hfound, hid⟩, rfl, rfl⟩
    exact ⟨hfound, hother, hid⟩
  · rintro ⟨hrow, hrequest, hid⟩
    exact ⟨request, hrequest, row, ⟨hrow, hid⟩, rfl, rfl⟩

/-- The key decides the job: a well-formed store has one job for an owner's key. -/
theorem Database.WellFormed.checkIdempotency (hw : db.WellFormed) {row : JobRow} {stored : RequestRow}
    (hstored : (row, stored) ∈ db.joined) {request : NormalizedRequest} {key : String}
    (hkey : stored.idempotencyHash = some key) (hrequest : request.idempotencyHash = some key) :
    db.checkIdempotency stored.authHash request =
      if row.requestHash ≠ request.requestHash then .error (.conflict keyConflict) else .ok () := by
  obtain ⟨hrow, hmem, hid⟩ := Database.mem_joined.mp hstored
  unfold Database.checkIdempotency
  rw [hrequest]
  dsimp only
  split
  next hfind => simpa [hkey] using List.find?_eq_none.mp hfind _ hstored
  next row' stored' hfind =>
    obtain ⟨hrow', hmem', hid'⟩ := Database.mem_joined.mp (List.mem_of_find?_eq_some hfind)
    have hmatch : stored'.authHash = stored.authHash ∧ stored'.idempotencyHash = some key := by
      simpa using List.find?_some hfind
    have hjob := hw.uniqueKeys stored' hmem' stored hmem hmatch.1 (by rw [hmatch.2]; rfl) (hmatch.2.trans hkey.symm)
    rw [hw.uniqueIds.eq_of_id hrow' hrow (hid'.trans (hjob.trans hid.symm))]

/-- A registered identity is found by any later reader whom the outcomes do not stop. -/
theorem Database.Sound.find_registered {later : Database} (hlater : later.Sound c) (hreads : later.Readable c)
    (hext : db.Extends later) {row : JobRow} (hrow : row ∈ db.jobs) :
    ∃ job, later.find c row.authHash row.requestHash = .ok (some job) := by
  obtain ⟨new, hnew, hkey⟩ := List.mem_map.mp (hext.jobs row.key (List.mem_map_of_mem hrow))
  obtain ⟨-, hrest⟩ := Prod.mk.inj hkey
  obtain ⟨hauth, hrequest⟩ := Prod.mk.inj hrest
  unfold Database.find
  cases hfind : later.jobs.find? (fun other => other.authHash = row.authHash ∧ other.requestHash = row.requestHash) with
  | none => simpa [hauth, hrequest] using List.find?_eq_none.mp hfind new hnew
  | some found =>
    obtain ⟨state, hstate⟩ := hlater.decodes hreads (List.mem_of_find?_eq_some hfind)
    exact ⟨_, congrArg (Except.map some) hstate.tryFrom⟩

end Kaiion.Durable

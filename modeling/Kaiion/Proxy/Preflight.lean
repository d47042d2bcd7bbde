import Kaiion.Durable.StoreInvariant
import Kaiion.Request.Identity

/-! The routing preflight against registration: both look for an idempotency key that belongs to another
request, one in the stored hashes, the other in the job ids after its two inserts. -/
namespace Kaiion.Proxy
open Durable Foundation

variable {c : Codec} {db : Database} {uuid authHash provider : String} {request : NormalizedRequest}

/-- The job of a registration: the one with this identity, or a new one. -/
inductive Selects (db : Database) (uuid authHash requestHash : String) : String → Prop where
  | existing (row : JobRow) (mem : row ∈ db.jobs) (auth : row.authHash = authHash)
      (hash : row.requestHash = requestHash) : Selects db uuid authHash requestHash row.id
  | created (none : ∀ row ∈ db.jobs, ¬ (row.authHash = authHash ∧ row.requestHash = requestHash)) :
      Selects db uuid authHash requestHash uuid

/-- The database of a registration after its first insert. -/
def withJob (db : Database) (uuid authHash : String) (request : NormalizedRequest) : Database :=
  db.insertOrIgnoreJob (.queued uuid authHash request.requestHash request.model)

theorem withJob_jobIdOf (authHash : String) (request : NormalizedRequest) (fresh : uuid ∉ db.jobs.map JobRow.id) :
    ∃ id, (withJob db uuid authHash request).jobIdOf authHash request.requestHash = some id ∧
      Selects db uuid authHash request.requestHash id := by
  unfold withJob Database.jobIdOf
  rcases db.insertOrIgnoreJob_cases (.queued uuid authHash request.requestHash request.model) with
    ⟨heq, old, hold, hused⟩ | ⟨heq, hnew⟩
  · rw [heq]
    rcases hused with hid | ⟨hauth, hhash⟩
    · exact absurd (List.mem_map.mpr ⟨old, hold, hid⟩) fresh
    · cases hfind : db.jobs.find? (fun row => row.authHash = authHash && row.requestHash = request.requestHash) with
      | none =>
        have hnone := List.find?_eq_none.mp hfind old hold
        exact absurd (by simpa using ⟨hauth, hhash⟩) hnone
      | some row =>
        have hfound : row.authHash = authHash ∧ row.requestHash = request.requestHash := by
          simpa using List.find?_some hfind
        exact ⟨row.id, rfl, .existing row (List.mem_of_find?_eq_some hfind) hfound.1 hfound.2⟩
  · rw [heq]
    refine ⟨uuid, ?_, .created fun row hrow => (hnew row hrow).2⟩
    have hnone : db.jobs.find? (fun row => row.authHash = authHash && row.requestHash = request.requestHash) =
        none := by
      apply List.find?_eq_none.mpr
      intro row hrow
      have hother : ¬ (row.authHash = authHash ∧ row.requestHash = request.requestHash) := (hnew row hrow).2
      simpa using hother
    rw [List.find?_append, hnone]
    simp [JobRow.queued]

theorem withJob_jobRequests (db : Database) (uuid authHash : String) (request : NormalizedRequest) :
    (withJob db uuid authHash request).jobRequests = db.jobRequests := by
  rcases db.insertOrIgnoreJob_cases (.queued uuid authHash request.requestHash request.model) with
    ⟨heq, -⟩ | ⟨heq, -⟩
  · rw [withJob, heq]
  · rw [withJob, heq]

/-- The row the second insert offers. -/
def offered (c : Codec) (authHash provider id : String) (request : NormalizedRequest) : RequestRow :=
  { jobId := id, provider, authHash, idempotencyHash := request.idempotencyHash
    bodyJson := c.print request.batchBody }

private theorem ownerOf_none {key : String} (h : db.ownerOf authHash key = none) {stored : RequestRow}
    (hstored : stored ∈ db.jobRequests) : ¬ (stored.authHash = authHash ∧ stored.idempotencyHash = some key) := by
  have hnone := List.find?_eq_none.mp (Option.map_eq_none_iff.mp h) stored hstored
  simpa using hnone

private theorem ownerOf_some {key owner : String} (h : db.ownerOf authHash key = some owner) :
    ∃ stored ∈ db.jobRequests, stored.authHash = authHash ∧ stored.idempotencyHash = some key ∧
      stored.jobId = owner := by
  obtain ⟨stored, hfind, howner⟩ := Option.map_eq_some_iff.mp h
  have hfound : stored.authHash = authHash ∧ stored.idempotencyHash = some key := by
    simpa using List.find?_some hfind
  exact ⟨stored, List.mem_of_find?_eq_some hfind, hfound.1, hfound.2, howner⟩

/-- A key that has an owner keeps it: the second insert is skipped. -/
theorem ownerOf_insert_some {key id owner : String} (hkey : request.idempotencyHash = some key)
    (h : db.ownerOf authHash key = some owner) :
    (db.insertOrIgnoreRequest c (offered c authHash provider id request)).ownerOf authHash key = some owner := by
  obtain ⟨stored, hstored, hauth, hsame, -⟩ := ownerOf_some h
  have hused : db.jobRequests.any (fun old => old.jobId = id || (old.authHash = authHash &&
      request.idempotencyHash.isSome && old.idempotencyHash = request.idempotencyHash)) = true :=
    List.any_eq_true.mpr ⟨stored, hstored, by simp [hauth, hsame, hkey]⟩
  have hskipped : db.insertOrIgnoreRequest c (offered c authHash provider id request) = db := by
    unfold Database.insertOrIgnoreRequest offered
    simp [hused]
  rwa [hskipped]

/-- A new key goes to the job, unless the job has a request already. -/
theorem ownerOf_insert_none {key id : String} (hkey : request.idempotencyHash = some key)
    (hbody : c.jsonValid (c.print request.batchBody) = true) (h : db.ownerOf authHash key = none) :
    (db.insertOrIgnoreRequest c (offered c authHash provider id request)).ownerOf authHash key =
      if db.jobRequests.any (fun stored => stored.jobId = id) then none else some id := by
  rcases db.insertOrIgnoreRequest_cases c (offered c authHash provider id request) hbody with
    ⟨heq, old, hold, hused⟩ | ⟨heq, hnew⟩
  · rw [heq, h, if_pos]
    rcases hused with hid | ⟨hauth, -, hsame⟩
    · exact List.any_eq_true.mpr ⟨old, hold, decide_eq_true hid⟩
    · exact absurd ⟨hauth, hsame.trans hkey⟩ (ownerOf_none h hold)
  · have hunused : ¬ db.jobRequests.any (fun stored => stored.jobId = id) = true := by
      intro hany
      obtain ⟨old, hold, hid⟩ := List.any_eq_true.mp hany
      exact (hnew old hold).1 (of_decide_eq_true hid)
    rw [heq, if_neg hunused]
    unfold Database.ownerOf at h ⊢
    rw [List.find?_append, Option.map_eq_none_iff.mp h]
    simp [offered, hkey]

/-- The database of a registration after both inserts. -/
def registered (c : Codec) (db : Database) (uuid authHash provider id : String) (request : NormalizedRequest) :
    Database :=
  (withJob db uuid authHash request).insertOrIgnoreRequest c (offered c authHash provider id request)

/-- The owner of a key after both inserts. -/
theorem registered_ownerOf {key id : String} (hkey : request.idempotencyHash = some key)
    (hbody : c.jsonValid (c.print request.batchBody) = true) :
    (registered c db uuid authHash provider id request).ownerOf authHash key =
      match db.ownerOf authHash key with
      | some owner => some owner
      | none => if db.jobRequests.any (fun stored => stored.jobId = id) then none else some id := by
  have hrequests := withJob_jobRequests db uuid authHash request
  have howner : (withJob db uuid authHash request).ownerOf authHash key = db.ownerOf authHash key := by
    unfold Database.ownerOf
    rw [hrequests]
  unfold registered
  cases hfound : db.ownerOf authHash key with
  | none => rw [ownerOf_insert_none hkey hbody (howner.trans hfound), hrequests]
  | some owner => rw [ownerOf_insert_some hkey (howner.trans hfound)]

/-- The transaction compares the owner of the key with the job it selected. -/
theorem enqueueTransaction_eq (c : Codec) (provider : String) {id : String}
    (hid : (withJob db uuid authHash request).jobIdOf authHash request.requestHash = some id) :
    db.enqueueTransaction c uuid authHash provider request =
      match request.idempotencyHash with
      | none => .ok (registered c db uuid authHash provider id request, ⟨id⟩)
      | some key =>
        match (registered c db uuid authHash provider id request).ownerOf authHash key with
        | none => .error (.database rowNotFound)
        | some owner =>
          if owner ≠ id then
            .error (.conflict "Idempotency-Key was already used with a different request; use a new key for a new inference")
          else .ok (registered c db uuid authHash provider id request, ⟨id⟩) := by
  unfold withJob at hid
  unfold Database.enqueueTransaction
  simp only [hid]
  rfl

/-- The error of a registration whose key belongs to another job. -/
def enqueueConflict : ProxyError :=
  .conflict "Idempotency-Key was already used with a different request; use a new key for a new inference"

/-- How a registration ends, told from the database before it. -/
structure Identified (c : Codec) (db : Database) (uuid authHash provider : String) (request : NormalizedRequest)
    (id : String) : Prop where
  selects : Selects db uuid authHash request.requestHash id
  keyless : request.idempotencyHash = none → db.enqueueTransaction c uuid authHash provider request =
    .ok (registered c db uuid authHash provider id request, ⟨id⟩)
  owned : ∀ {key owner}, request.idempotencyHash = some key → db.ownerOf authHash key = some owner →
    db.enqueueTransaction c uuid authHash provider request = if owner ≠ id then .error enqueueConflict else
      .ok (registered c db uuid authHash provider id request, ⟨id⟩)
  unowned : ∀ {key}, request.idempotencyHash = some key → db.ownerOf authHash key = none →
    db.enqueueTransaction c uuid authHash provider request =
      if db.jobRequests.any (fun stored => stored.jobId = id) then .error (.database rowNotFound) else
        .ok (registered c db uuid authHash provider id request, ⟨id⟩)

theorem enqueueTransaction_outcome (authHash provider : String) (fresh : uuid ∉ db.jobs.map JobRow.id)
    (hbody : c.jsonValid (c.print request.batchBody) = true) :
    ∃ id, Identified c db uuid authHash provider request id := by
  obtain ⟨id, hid, hselects⟩ := withJob_jobIdOf authHash request fresh
  have heq := enqueueTransaction_eq c provider hid
  refine ⟨id, hselects, ?_, ?_, ?_⟩
  · intro hkey
    rw [heq, hkey]
  · intro key owner hkey howner
    rw [heq, hkey]
    dsimp only
    rw [registered_ownerOf hkey hbody, howner]
    rfl
  · intro key hkey howner
    rw [heq, hkey]
    dsimp only
    rw [registered_ownerOf hkey hbody, howner]
    dsimp only
    by_cases hused : db.jobRequests.any (fun stored => stored.jobId = id) = true
    · rw [if_pos hused, if_pos hused]
    · rw [if_neg hused, if_neg hused]
      exact if_neg (not_not.mpr rfl)

/-- The request of the owner of a key, and its job. -/
theorem owner_joined (h : db.Registered) {key owner : String} (howner : db.ownerOf authHash key = some owner) :
    ∃ row stored, (row, stored) ∈ db.joined ∧ row.id = owner ∧ row.authHash = authHash ∧
      stored.authHash = authHash ∧ stored.idempotencyHash = some key := by
  obtain ⟨stored, hstored, hauth, hkey, rfl⟩ := ownerOf_some howner
  obtain ⟨row, hrow, hid⟩ := List.mem_map.mp (h.wellFormed.references stored hstored)
  exact ⟨row, stored, Database.mem_joined.mpr ⟨hrow, hstored, hid⟩, hid,
    (h.owned stored hstored row hrow hid).trans hauth, hauth, hkey⟩

/-- A key without an owner passes the preflight. -/
theorem checkIdempotency_unowned {key : String} (hkey : request.idempotencyHash = some key)
    (h : db.ownerOf authHash key = none) : db.checkIdempotency authHash request = .ok () := by
  unfold Database.checkIdempotency
  rw [hkey]
  dsimp only
  split
  · rfl
  next row stored hfind =>
    obtain ⟨-, hstored, -⟩ := Database.mem_joined.mp (List.mem_of_find?_eq_some hfind)
    exact absurd (by simpa using List.find?_some hfind) (ownerOf_none h hstored)

/-- The job a registration selects is the owner's exactly when the owner's hash is the request's. -/
theorem Selects.eq_iff {requestHash id : String} (hw : db.WellFormed) (fresh : uuid ∉ db.jobs.map JobRow.id)
    (h : Selects db uuid authHash requestHash id) {row : JobRow} (hrow : row ∈ db.jobs)
    (hauth : row.authHash = authHash) : row.id = id ↔ row.requestHash = requestHash := by
  cases h with
  | existing other hother hotherAuth hotherHash =>
    constructor
    · intro hid
      rw [hw.uniqueIds.eq_of_id hrow hother hid, hotherHash]
    · intro hhash
      rw [hw.id_unique hrow hother (hauth.trans hotherAuth.symm) (hhash.trans hotherHash.symm)]
  | created hnone =>
    constructor
    · intro hid
      exact absurd (List.mem_map.mpr ⟨row, hrow, hid⟩) fresh
    · intro hhash
      exact absurd ⟨hauth, hhash⟩ (hnone row hrow)

variable {key : String}

/-- The preflight refuses a key exactly when registration does. -/
theorem conflict_iff (h : db.Registered) (fresh : uuid ∉ db.jobs.map JobRow.id)
    (hbody : c.jsonValid (c.print request.batchBody) = true) :
    (∃ message, db.checkIdempotency authHash request = .error (.conflict message)) ↔
      ∃ message, (db.enqueue c uuid authHash provider request).2 = .error (.conflict message) := by
  obtain ⟨id, outcome⟩ := enqueueTransaction_outcome authHash provider fresh hbody
  have hread : ∀ db' : Database, ∀ message, ((db'.get c ⟨id⟩).mapError ProxyError.persistence) ≠
      .error (.conflict message) := by
    intro db' message
    cases db'.get c ⟨id⟩ <;> simp [Except.mapError]
  unfold Database.enqueue
  cases hkey : request.idempotencyHash with
  | none =>
    have hcheck : db.checkIdempotency authHash request = .ok () := by
      unfold Database.checkIdempotency
      rw [hkey]
    rw [hcheck, outcome.keyless hkey]
    simp [hread]
  | some key =>
    cases howner : db.ownerOf authHash key with
    | none =>
      rw [checkIdempotency_unowned hkey howner, outcome.unowned hkey howner]
      split
      next hend =>
        split at hend
        · cases hend
          simp
        · cases hend
      next hend =>
        split at hend
        · cases hend
        · cases hend
          simp [hread]
    | some owner =>
      obtain ⟨row, stored, hjoined, rfl, hauth, hstored, hsame⟩ := owner_joined h howner
      have hcheck := h.wellFormed.checkIdempotency hjoined hsame hkey
      rw [hstored] at hcheck
      have hsameJob := outcome.selects.eq_iff h.wellFormed fresh (Database.mem_joined.mp hjoined).1 hauth
      rw [hcheck, outcome.owned hkey howner]
      by_cases hhash : row.requestHash = request.requestHash
      · rw [if_neg (not_not.mpr hhash), if_neg (not_not.mpr (hsameJob.mpr hhash))]
        simp [hread]
      · rw [if_pos hhash, if_pos fun hid => hhash (hsameJob.mp hid)]
        simp [enqueueConflict]

private theorem Identified.ok_id {id : String} (outcome : Identified c db uuid authHash provider request id)
    {db' : Database} {selected : JobId}
    (h : db.enqueueTransaction c uuid authHash provider request = .ok (db', selected)) : selected = ⟨id⟩ := by
  cases hkey : request.idempotencyHash with
  | none =>
    rw [outcome.keyless hkey] at h
    cases h
    rfl
  | some key =>
    cases howner : db.ownerOf authHash key with
    | none =>
      rw [outcome.unowned hkey howner] at h
      split at h
      · cases h
      · cases h
        rfl
    | some owner =>
      rw [outcome.owned hkey howner] at h
      split at h
      · cases h
      · cases h
        rfl

/-- What a committed registration returns is read from the database after it. -/
private theorem enqueue_committed {db' : Database} {id : JobId}
    (h : db.enqueueTransaction c uuid authHash provider request = .ok (db', id)) :
    db.enqueue c uuid authHash provider request = (db', (db'.get c id).mapError .persistence) := by
  unfold Database.enqueue
  rw [h]

private theorem mapError_ok {ε ε' α : Type} {f : ε → ε'} {result : Except ε α} {value : α}
    (h : result.mapError f = .ok value) : result = .ok value := by
  cases result with
  | error error => cases h
  | ok found => exact congrArg Except.ok (Except.ok.inj h)

theorem find_existing {requestHash : String} (hw : db.WellFormed) {row : JobRow} (hrow : row ∈ db.jobs)
    (hauth : row.authHash = authHash) (hhash : row.requestHash = requestHash) :
    db.find c authHash requestHash = (row.tryFrom c).map some := by
  unfold Database.find
  cases hfind : db.jobs.find? (fun other => other.authHash = authHash ∧ other.requestHash = requestHash) with
  | none => exact absurd (by simpa using ⟨hauth, hhash⟩) (List.find?_eq_none.mp hfind row hrow)
  | some other =>
    have hother : other.authHash = authHash ∧ other.requestHash = requestHash := by
      simpa using List.find?_some hfind
    rw [hw.id_unique (List.mem_of_find?_eq_some hfind) hrow (hother.1.trans hauth.symm)
      (hother.2.trans hhash.symm)]

/-- A registration that goes through returns the job that could be found before it. -/
theorem enqueue_returns_found (hw : db.WellFormed) (fresh : uuid ∉ db.jobs.map JobRow.id)
    (hbody : c.jsonValid (c.print request.batchBody) = true) {job : Job}
    (h : (db.enqueue c uuid authHash provider request).2 = .ok job) :
    ∃ found, db.find c authHash request.requestHash = .ok found ∧ ∀ existing ∈ found, job = existing := by
  obtain ⟨id, outcome⟩ := enqueueTransaction_outcome authHash provider fresh hbody
  cases hrun : db.enqueueTransaction c uuid authHash provider request with
  | error error =>
    unfold Database.enqueue at h
    rw [hrun] at h
    cases h
  | ok committed =>
    obtain ⟨db', selected⟩ := committed
    obtain rfl := outcome.ok_id hrun
    cases outcome.selects with
    | existing row hrow hauth hhash =>
      have hkept := Database.enqueue_row? c (hw.uniqueIds.row?_of_mem hrow) uuid authHash provider request
      rw [enqueue_committed hrun] at h hkept
      have hread := mapError_ok h
      unfold Database.get at hread
      rw [hkept] at hread
      refine ⟨some job, ?_, fun existing hexisting => Option.some.inj hexisting⟩
      rw [find_existing hw hrow hauth hhash]
      exact congrArg (Except.map some) hread
    | created hnone =>
      refine ⟨none, ?_, fun existing hexisting => nomatch hexisting⟩
      have hfind : db.jobs.find? (fun row => row.authHash = authHash ∧ row.requestHash = request.requestHash) =
          none := by
        apply List.find?_eq_none.mpr
        intro row hrow
        simpa using hnone row hrow
      unfold Database.find
      rw [hfind]

/-- A request normalized for this provider. -/
def Produced (crates : Crates) (provider : String) (request : NormalizedRequest) : Prop :=
  ∃ body headers, FitsMemory crates body provider headers ∧ fromHeaders crates body provider headers = .ok request

/-- The request hash decides the idempotency hash. -/
theorem Produced.idempotencyHash_eq {crates : Crates} (hfree : crates.CollisionFree) {provider provider' : String}
    {a b : NormalizedRequest} (ha : Produced crates provider a) (hb : Produced crates provider' b)
    (h : a.requestHash = b.requestHash) : a.idempotencyHash = b.idempotencyHash := by
  obtain ⟨body, headers, hfits, ha⟩ := ha
  obtain ⟨body', headers', hfits', hb⟩ := hb
  obtain ⟨r, hr, rfl⟩ := fromHeaders_ok_iff.mp ha
  obtain ⟨s, hs, rfl⟩ := fromHeaders_ok_iff.mp hb
  obtain ⟨hprovider, hsession, hkey, -⟩ := request_scope_inj hfree hr hs hfits hfits' h
  rw [r.idempotencyHash_map, s.idempotencyHash_map, hprovider, hsession, hkey]

/-- A statement of the store whose registrations are of normalized requests. -/
inductive ClientStep (crates : Crates) : Database → Database → Prop where
  | enqueue (db : Database) (uuid authHash provider : String) (request : NormalizedRequest) (fault : Fault)
      (fresh : uuid ∉ db.jobs.map JobRow.id) (produced : Produced crates provider request) :
      ClientStep crates db (fault.apply .database db (db.enqueue crates.json uuid authHash provider request)).1
  | getOrCreate (db : Database) (uuid authHash requestHash model : String) (fault : Fault)
      (fresh : uuid ∉ db.jobs.map JobRow.id) :
      ClientStep crates db
        (fault.apply .database db (db.getOrCreate crates.json uuid authHash requestHash model)).1
  | transition (db : Database) (t : Transition) (now : Timestamp) (fault : Fault) :
      ClientStep crates db (fault.apply .database db (t.run crates.json now db)).1

variable {crates : Crates}

/-- A registration that goes through. -/
theorem ClientStep.enqueued (authHash : String) (fresh : uuid ∉ db.jobs.map JobRow.id)
    (produced : Produced crates provider request) :
    ClientStep crates db (db.enqueue crates.json uuid authHash provider request).1 :=
  .enqueue db uuid authHash provider request .none fresh produced

theorem ClientStep.storeStep {db' : Database} (h : ClientStep crates db db') : StoreStep crates.json db db' := by
  cases h with
  | enqueue uuid authHash provider request fault fresh produced =>
    exact .enqueue db uuid authHash provider request fault fresh
  | getOrCreate uuid authHash requestHash model fault fresh =>
    exact .getOrCreate db uuid authHash requestHash model fault fresh
  | transition t now fault => exact .transition db t now fault

/-- Every request in the store and its job have the hashes of one normalized request. -/
def Paired (crates : Crates) (db : Database) : Prop :=
  ∀ stored ∈ db.jobRequests, ∀ row ∈ db.jobs, row.id = stored.jobId → ∃ provider request,
    Produced crates provider request ∧ request.requestHash = row.requestHash ∧
      request.idempotencyHash = stored.idempotencyHash

theorem Paired.insertOrIgnoreJob (h : Paired crates db) (hw : db.WellFormed) (new : JobRow) :
    Paired crates (db.insertOrIgnoreJob new) := by
  rcases db.insertOrIgnoreJob_cases new with ⟨heq, -⟩ | ⟨heq, hnew⟩
  · rwa [heq]
  · rw [heq]
    intro stored hstored row hrow hid
    rcases List.mem_append.mp hrow with hrow | hrow
    · exact h stored hstored row hrow hid
    · -- No request refers to the new job.
      obtain ⟨old, hold, hsame⟩ := List.mem_map.mp (hw.references stored hstored)
      rw [List.mem_singleton.mp hrow] at hid
      exact absurd (hsame.trans hid.symm) (hnew old hold).1

theorem Paired.enqueue (h : Paired crates db) (hw : db.WellFormed) (produced : Produced crates provider request) :
    Paired crates (db.enqueue crates.json uuid authHash provider request).1 := by
  cases hrun : db.enqueueTransaction crates.json uuid authHash provider request with
  | error error =>
    unfold Database.enqueue
    rw [hrun]
    exact h
  | ok committed =>
    obtain ⟨db', id⟩ := committed
    rw [enqueue_committed hrun]
    obtain ⟨hid, hdb, -⟩ := Database.enqueueTransaction_ok hrun
    obtain ⟨hw', -, hkey⟩ := Database.enqueueTransaction_spec crates.json hw hrun
    have hbefore := h.insertOrIgnoreJob hw (.queued uuid authHash request.requestHash request.model)
    intro stored hstored row hrow hrowId
    have hcases : stored ∈ (db.insertOrIgnoreJob (.queued uuid authHash request.requestHash request.model)).jobRequests ∨
        stored = offered crates.json authHash provider id.text request := by
      rw [hdb] at hstored
      unfold Database.insertOrIgnoreRequest at hstored
      split at hstored
      · exact .inl hstored
      · exact (List.mem_append.mp hstored).imp_right List.mem_singleton.mp
    rcases hcases with hold | rfl
    · rw [hdb, Database.insertOrIgnoreRequest_jobs] at hrow
      exact hbefore stored hold row hrow hrowId
    · obtain ⟨owner, howner, hownerKey⟩ := List.mem_map.mp hkey
      obtain ⟨hownerId, hrest⟩ := Prod.mk.inj hownerKey
      have hrowOwner : row = owner := hw'.uniqueIds.eq_of_id hrow howner (hrowId.trans hownerId.symm)
      exact ⟨provider, request, produced, by rw [hrowOwner, (Prod.mk.inj hrest).2], rfl⟩

theorem Paired.transition (h : Paired crates db) (t : Transition) (now : Timestamp) :
    Paired crates (t.run crates.json now db).1 := by
  obtain ⟨hkeys, hrequests⟩ := t.run_keys crates.json now db
  intro stored hstored row hrow hid
  have hkey : row.key ∈ db.jobs.map JobRow.key := hkeys ▸ List.mem_map_of_mem hrow
  obtain ⟨old, hold, heq⟩ := List.mem_map.mp hkey
  obtain ⟨hsameId, hrest⟩ := Prod.mk.inj heq
  rw [← (Prod.mk.inj hrest).2]
  exact h stored (hrequests ▸ hstored) old hold (hsameId.trans hid)

theorem Paired.step (h : Paired crates db) (hw : db.WellFormed) {db' : Database}
    (hstep : ClientStep crates db db') : Paired crates db' := by
  cases hstep with
  | enqueue uuid authHash provider request fault fresh produced =>
    rcases fault.apply_fst ProxyError.database db (db.enqueue crates.json uuid authHash provider request) with
      hf | hf
    · rwa [hf]
    · rw [hf]
      exact h.enqueue hw produced
  | getOrCreate uuid authHash requestHash model fault fresh =>
    rcases fault.apply_fst PersistenceError.database db
      (db.getOrCreate crates.json uuid authHash requestHash model) with hf | hf
    · rwa [hf]
    · rw [hf]
      exact h.insertOrIgnoreJob hw _
  | transition t now fault =>
    rcases fault.apply_fst PersistenceError.database db (t.run crates.json now db) with hf | hf
    · rwa [hf]
    · rw [hf]
      exact h.transition t now

/-- Every store that clients reach is sound and paired. -/
theorem ClientStep.run (h : Relation.ReflTransGen (ClientStep crates) .empty db) :
    db.Sound crates.json ∧ Paired crates db := by
  induction h with
  | refl => exact ⟨Database.empty_sound crates.json, fun _ h => nomatch h⟩
  | tail _ hstep ih => exact ⟨hstep.storeStep.sound ih.1, ih.2.step ih.1.wellFormed hstep⟩

/-- In a paired store a key without an owner meets a job without a request. -/
private theorem Paired.unused (h : Paired crates db) (hfree : crates.CollisionFree) (hr : db.Registered)
    (fresh : uuid ∉ db.jobs.map JobRow.id)
    (produced : Produced crates provider request)
    (hkey : request.idempotencyHash = some key) (howner : db.ownerOf authHash key = none) {id : String}
    (hselects : Selects db uuid authHash request.requestHash id) :
    ¬ db.jobRequests.any (fun stored => stored.jobId = id) = true := by
  intro hany
  obtain ⟨stored, hstored, hid⟩ := List.any_eq_true.mp hany
  have hid : stored.jobId = id := of_decide_eq_true hid
  cases hselects with
  | created hnone => exact fresh (hid ▸ hr.wellFormed.references stored hstored)
  | existing row hrow hauth hhash =>
    obtain ⟨provider', request', produced', hsame, hstoredKey⟩ := h stored hstored row hrow hid.symm
    have hkeys := Produced.idempotencyHash_eq hfree produced' produced (hsame.trans hhash)
    exact ownerOf_none howner hstored ⟨(hr.owned stored hstored row hrow hid.symm).symm.trans hauth,
      hstoredKey.symm.trans (hkeys.trans hkey)⟩

/-- What passes the preflight of a paired store is registered. -/
private theorem Paired.enqueue_ok (h : Paired crates db) (hs : db.Sound crates.json)
    (hreads : db.Readable crates.json) (hfree : crates.CollisionFree) (fresh : uuid ∉ db.jobs.map JobRow.id)
    (produced : Produced crates provider request)
    (hbody : crates.json.jsonValid (crates.json.print request.batchBody) = true)
    (hcheck : db.checkIdempotency authHash request = .ok ()) :
    ∃ job, (db.enqueue crates.json uuid authHash provider request).2 = .ok job := by
  obtain ⟨id, outcome⟩ := enqueueTransaction_outcome authHash provider fresh hbody
  have hcommitted : ∃ db', db.enqueueTransaction crates.json uuid authHash provider request = .ok (db', ⟨id⟩) := by
    cases hkey : request.idempotencyHash with
    | none => exact ⟨_, outcome.keyless hkey⟩
    | some key =>
      cases howner : db.ownerOf authHash key with
      | none =>
        have hunused := h.unused hfree hs.toRegistered fresh produced hkey howner outcome.selects
        exact ⟨_, (outcome.unowned hkey howner).trans (if_neg hunused)⟩
      | some owner =>
        by_cases hid : owner = id
        · exact ⟨_, (outcome.owned hkey howner).trans (if_neg (not_not.mpr hid))⟩
        · have hconflict : ∃ message, (db.enqueue crates.json uuid authHash provider request).2 =
              .error (.conflict message) := by
            unfold Database.enqueue
            rw [outcome.owned hkey howner, if_pos hid]
            exact ⟨_, rfl⟩
          obtain ⟨message, hrefused⟩ := (conflict_iff hs.toRegistered fresh hbody).mpr hconflict
          rw [hcheck] at hrefused
          cases hrefused
  obtain ⟨db', hrun⟩ := hcommitted
  have hsound := StoreStep.sound (.enqueued uuid authHash provider request fresh) hs
  have hreadable := hreads.enqueue uuid authHash provider request
  rw [enqueue_committed hrun] at hsound hreadable ⊢
  obtain ⟨hw', -, hmem⟩ := Database.enqueueTransaction_spec crates.json hs.wellFormed hrun
  obtain ⟨row, hrow, hrowKey⟩ := List.mem_map.mp hmem
  obtain ⟨state, hstate⟩ := hsound.decodes hreadable hrow
  have hrowId : row.id = id := (Prod.mk.inj hrowKey).1
  have hfound : db'.row? ⟨id⟩ = some row := hrowId ▸ hw'.uniqueIds.row?_of_mem hrow
  refine ⟨{ id := ⟨row.id⟩, model := row.model, state }, ?_⟩
  unfold Database.get
  rw [hfound]
  exact congrArg (Except.mapError ProxyError.persistence) hstate.tryFrom

/-- The routing preflight agrees with registration. In every reachable store it refuses a request's key
exactly when registering the request would fail with a conflict, and a registration that goes through
returns the job that could be found before; where only normalized requests were registered, what passes
the preflight is registered. The outcomes in the store read back, and the database takes the request's body. -/
theorem preflight_agrees (hfree : crates.CollisionFree)
    (hrun : Relation.ReflTransGen (StoreStep crates.json) .empty db) (hreads : db.Readable crates.json)
    (hbody : crates.json.jsonValid (crates.json.print request.batchBody) = true) (fresh : uuid ∉ db.jobs.map JobRow.id)
    (produced : Produced crates provider request) (authHash : String) :
    ((∃ message, db.checkIdempotency authHash request = .error (.conflict message)) ↔
      ∃ message, (db.enqueue crates.json uuid authHash provider request).2 = .error (.conflict message)) ∧
    (∀ job, (db.enqueue crates.json uuid authHash provider request).2 = .ok job →
      ∃ found, db.find crates.json authHash request.requestHash = .ok found ∧ ∀ existing ∈ found, job = existing) ∧
    (Relation.ReflTransGen (ClientStep crates) .empty db → db.checkIdempotency authHash request = .ok () →
      ∃ job, (db.enqueue crates.json uuid authHash provider request).2 = .ok job) := by
  have hsound := StoreStep.run_sound hrun (Database.empty_sound crates.json)
  refine ⟨conflict_iff hsound.toRegistered fresh hbody, ?_, ?_⟩
  · intro job hjob
    exact enqueue_returns_found hsound.wellFormed fresh hbody hjob
  · intro hclients hcheck
    exact (ClientStep.run hclients).2.enqueue_ok hsound hreads hfree fresh produced hbody hcheck

section Witness

private def checkedHeaders : HeaderMap := [("authorization", ⟨utf8 "Bearer a"⟩), ("idempotency-key", ⟨utf8 "k1"⟩)]

private def checkedMembers (input : String) : Members := [("input", .string input), ("model", .string "gpt-5")]

/-- What a client asks under its key, for this input. -/
private def checkedReading (input : String) : Reading :=
  ⟨checkedMembers input, "gpt-5", none, some "k1", "idempotency:k1", "https://api.openai.com/v1"⟩

private theorem checkedReading_of (input : String) : (checkedReading input).Of sampleCrates
    (.object (checkedMembers input)) "https://api.openai.com/v1" checkedHeaders :=
  ⟨rfl, rfl, (by decide : (modelAlias "gpt-5").1 ≠ ""), rfl,
    (by decide : identityHeader checkedHeaders sessionHeader = .ok none),
    (by decide : identityHeader checkedHeaders idempotencyHeader = .ok (some "k1")), rfl, rfl⟩

private theorem checked_fits {input : String} (hencoded : FitsLength (sampleCrates.json.print
    (identityBody (.object (checkedMembers input))))) :
    FitsMemory sampleCrates (.object (checkedMembers input)) "https://api.openai.com/v1" checkedHeaders := by
  have hof := checkedReading_of input
  refine ⟨?_, ?_, hencoded⟩
  · intro provider hprovider
    rw [hof.provider] at hprovider
    obtain rfl := Except.ok.inj hprovider
    exact (by decide : FitsLength "https://api.openai.com/v1")
  · intro key hsession
    rw [hof.durableSessionKey_eq] at hsession
    obtain rfl := Option.some.inj (Except.ok.inj hsession)
    exact (by decide : FitsLength "idempotency:k1")

private theorem asked_fits :
    FitsMemory sampleCrates (.object (checkedMembers "hi")) "https://api.openai.com/v1" checkedHeaders :=
  checked_fits (by decide)

private theorem changed_fits :
    FitsMemory sampleCrates (.object (checkedMembers "bye")) "https://api.openai.com/v1" checkedHeaders :=
  checked_fits (by decide)

private theorem checked_produced {input : String} (hfits : FitsMemory sampleCrates (.object (checkedMembers input))
    "https://api.openai.com/v1" checkedHeaders) :
    Produced sampleCrates "https://api.openai.com/v1" ((checkedReading input).request sampleCrates) :=
  ⟨_, _, hfits, fromHeaders_ok_iff.mpr ⟨_, checkedReading_of input, rfl⟩⟩

private theorem changed_requestHash : ((checkedReading "hi").request sampleCrates).requestHash ≠
    ((checkedReading "bye").request sampleCrates).requestHash := by
  intro h
  obtain ⟨-, -, -, hprinted⟩ := request_scope_inj sampleCrates_collisionFree (checkedReading_of "hi")
    (checkedReading_of "bye") asked_fits changed_fits h
  exact absurd hprinted (by decide)

/-- The store after the client has asked once. -/
private noncomputable def checkedStore : Database :=
  (Database.empty.enqueue sampleCrates.json "job" "owner" "https://api.openai.com/v1"
    ((checkedReading "hi").request sampleCrates)).1

private theorem checkedStore_run : Relation.ReflTransGen (ClientStep sampleCrates) .empty checkedStore :=
  .single (.enqueued "owner" List.not_mem_nil (checked_produced asked_fits))

/-- The key of the clients. -/
private noncomputable def checkedKey : String := sampleCrates.hexDigest (encodeAll
  (scopeComponents "https://api.openai.com/v1" "idempotency:k1" (some "k1") ++ [component "identity" "idempotency-v1"]))

private noncomputable def checkedRow : JobRow :=
  .queued "job" "owner" ((checkedReading "hi").request sampleCrates).requestHash "gpt-5"

private noncomputable def checkedRequest : RequestRow :=
  ⟨"job", "https://api.openai.com/v1", "owner", some checkedKey,
    sampleCrates.json.print ((checkedReading "hi").request sampleCrates).batchBody⟩

private theorem checkedStore_eq : checkedStore = ⟨[checkedRow], [checkedRequest]⟩ :=
  congrArg Prod.fst (Database.enqueue_empty sampleCrates.json "job" "owner" "https://api.openai.com/v1" rfl rfl)

private theorem checkedStore_readable : checkedStore.Readable sampleCrates.json :=
  (Database.empty_readable _).enqueue "job" "owner" _ _

private theorem checkedStore_fresh : "second" ∉ checkedStore.jobs.map JobRow.id := by
  rw [checkedStore_eq]
  decide

private theorem checkedStore_steps : Relation.ReflTransGen (StoreStep sampleCrates.json) .empty checkedStore :=
  .single (.enqueued "job" "owner" _ _ List.not_mem_nil)

private theorem checkedStore_check (input : String) :
    checkedStore.checkIdempotency "owner" ((checkedReading input).request sampleCrates) =
      if ((checkedReading "hi").request sampleCrates).requestHash ≠ ((checkedReading input).request sampleCrates).requestHash
      then .error (.conflict keyConflict) else .ok () := by
  have hjoined : (checkedRow, checkedRequest) ∈ checkedStore.joined := by
    rw [checkedStore_eq]
    exact Database.mem_joined.mpr ⟨List.mem_singleton_self _, List.mem_singleton_self _, rfl⟩
  exact (StoreStep.run_sound checkedStore_steps (Database.empty_sound _)).wellFormed.checkIdempotency hjoined rfl rfl

/-- After one request under a key, the same request passes the preflight and gets the job that is found; the key
with another input is refused by the preflight and by registration. -/
theorem preflight_agrees_used : (∃ job, (checkedStore.enqueue sampleCrates.json "second" "owner"
      "https://api.openai.com/v1" ((checkedReading "hi").request sampleCrates)).2 = .ok job ∧
      checkedStore.find sampleCrates.json "owner" ((checkedReading "hi").request sampleCrates).requestHash =
        .ok (some job)) ∧
    ∃ message, (checkedStore.enqueue sampleCrates.json "second" "owner" "https://api.openai.com/v1"
      ((checkedReading "bye").request sampleCrates)).2 = .error (.conflict message) := by
  constructor
  · obtain ⟨-, hfinds, hpasses⟩ := preflight_agrees sampleCrates_collisionFree checkedStore_steps
      checkedStore_readable rfl checkedStore_fresh (checked_produced asked_fits) "owner"
    obtain ⟨job, hjob⟩ := hpasses checkedStore_run ((checkedStore_check "hi").trans (if_neg fun h => h rfl))
    obtain ⟨found, hfound, hsame⟩ := hfinds job hjob
    have hrow : checkedRow ∈ checkedStore.jobs := by
      rw [checkedStore_eq]
      exact List.mem_singleton_self _
    obtain ⟨existing, hexisting⟩ := (StoreStep.run_sound checkedStore_steps
      (Database.empty_sound _)).find_registered checkedStore_readable (.refl _) hrow
    obtain rfl := Except.ok.inj (hfound.symm.trans hexisting)
    exact ⟨job, hjob, hsame existing rfl ▸ hexisting⟩
  · exact (preflight_agrees sampleCrates_collisionFree checkedStore_steps checkedStore_readable rfl
      checkedStore_fresh (checked_produced changed_fits) "owner").1.mp
      ⟨keyConflict, (checkedStore_check "bye").trans (if_pos changed_requestHash)⟩

end Witness
end Kaiion.Proxy

import Kaiion.Durable.StoreInvariant
import Mathlib.Data.List.Find

/-! One owner's part of the store: its own rows. Statements under the owner's hash read and write this
part only. -/
namespace Kaiion.Durable

/-- The rows of one owner. -/
def Database.ownedBy (db : Database) (authHash : String) : Database where
  jobs := db.jobs.filter (fun row => row.authHash = authHash)
  jobRequests := db.jobRequests.filter (fun request => request.authHash = authHash)

variable {c : Codec} {db : Database} {a : String}

private theorem find?_filter_of_imp {α : Type} {p q : α → Bool} {l : List α}
    (h : ∀ x ∈ l, q x = true → p x = true) : (l.filter p).find? q = l.find? q := by
  rw [List.find?_filter]
  refine List.find?_congr fun x hx => ?_
  cases hq : q x with
  | false => simp
  | true => simp [h x hx hq]

theorem Database.jobIdOf_ownedBy (db : Database) (a requestHash : String) :
    (db.ownedBy a).jobIdOf a requestHash = db.jobIdOf a requestHash := by
  unfold Database.jobIdOf Database.ownedBy
  rw [find?_filter_of_imp]
  intro row _ hrow
  simp_all

theorem Database.ownerOf_ownedBy (db : Database) (a key : String) :
    (db.ownedBy a).ownerOf a key = db.ownerOf a key := by
  unfold Database.ownerOf Database.ownedBy
  rw [find?_filter_of_imp]
  intro request _ hrequest
  simp_all

theorem Database.find_ownedBy (c : Codec) (db : Database) (a requestHash : String) :
    (db.ownedBy a).find c a requestHash = db.find c a requestHash := by
  unfold Database.find Database.ownedBy
  rw [find?_filter_of_imp]
  intro row _ hrow
  simp_all

/-- Whatever job has this id is the owner's. -/
def Database.OwnId (db : Database) (a : String) (id : JobId) : Prop :=
  ∀ row ∈ db.jobs, row.id = id.text → row.authHash = a

theorem Database.get_ownedBy (c : Codec) {id : JobId} (h : db.OwnId a id) : (db.ownedBy a).get c id = db.get c id := by
  have hrow : (db.ownedBy a).row? id = db.row? id := by
    unfold Database.row? Database.ownedBy
    rw [find?_filter_of_imp]
    intro row hmem hrow
    exact decide_eq_true (h row hmem (of_decide_eq_true hrow))
  unfold Database.get
  rw [hrow]

private theorem flatMap_filter {α β : Type} (p : α → Bool) (f : α → List β) (l : List α) :
    (l.filter p).flatMap f = l.flatMap (fun x => if p x then f x else []) := by
  induction l with
  | nil => rfl
  | cons x l ih => cases hp : p x <;> simp [hp, ih]

/-- The join of the owner's rows is the owner's part of the join. -/
theorem Database.Registered.joined_ownedBy (h : db.Registered) (a : String) :
    (db.ownedBy a).joined = db.joined.filter (fun (_, request) => request.authHash = a) := by
  unfold Database.joined Database.ownedBy
  rw [List.filter_flatMap, flatMap_filter]
  refine List.flatMap_congr fun request hrequest => ?_
  by_cases ha : request.authHash = a
  · have hjobs : (db.jobs.filter (fun row => row.authHash = a)).filter (fun row => row.id = request.jobId) =
        db.jobs.filter (fun row => row.id = request.jobId) := by
      rw [List.filter_filter]
      refine List.filter_congr fun row hrow => ?_
      by_cases hid : row.id = request.jobId
      · simp [hid, h.owned request hrequest row hrow hid, ha]
      · simp [hid]
    simp [ha, hjobs, List.filter_map]
  · simp [ha, List.filter_map]

theorem Database.Registered.ownedJob_ownedBy (h : db.Registered) (c : Codec) (id : JobId) (a provider : String) :
    (db.ownedBy a).ownedJob c id a provider = db.ownedJob c id a provider := by
  unfold Database.ownedJob
  rw [h.joined_ownedBy, find?_filter_of_imp]
  rintro ⟨row, request⟩ _ hfound
  simp_all

theorem Database.Registered.checkIdempotency_ownedBy (h : db.Registered) (a : String) (request : NormalizedRequest) :
    (db.ownedBy a).checkIdempotency a request = db.checkIdempotency a request := by
  unfold Database.checkIdempotency
  cases request.idempotencyHash with
  | none => rfl
  | some key =>
    dsimp only
    rw [h.joined_ownedBy, find?_filter_of_imp]
    rintro ⟨row, stored⟩ _ hfound
    simp_all

/-- The limit of a page counts the owner's jobs only. -/
theorem Database.Registered.listOwned_ownedBy (h : db.Registered) (a provider after : String) (limit : Nat) :
    (db.ownedBy a).listOwned a provider after limit = db.listOwned a provider after limit := by
  unfold Database.listOwned
  rw [h.joined_ownedBy, List.filter_filter]
  congr 5
  funext ⟨row, request⟩
  by_cases ha : request.authHash = a <;> simp [ha]

/-- The first statement of `owned_request`. -/
def Database.ownedBody (db : Database) (id : JobId) (authHash provider : String) : Option String :=
  (db.jobRequests.find? (fun request => request.jobId = id.text && request.authHash = authHash &&
    request.provider = provider)).map RequestRow.bodyJson

theorem Database.ownedBody_ownedBy (db : Database) (id : JobId) (a provider : String) :
    (db.ownedBy a).ownedBody id a provider = db.ownedBody id a provider := by
  unfold Database.ownedBody Database.ownedBy
  rw [find?_filter_of_imp]
  intro request _ hfound
  simp_all

theorem Database.ownedRequest_eq (c : Codec) (db : Database) (id : JobId) (a provider : String) :
    db.ownedRequest c id a provider = match db.ownedBody id a provider with
      | none => .error .notFound
      | some text => do
        let job ← (db.get c id).mapError .persistence
        let body ← (c.parse text).mapError .json
        return (job, body) := by
  unfold Database.ownedRequest Database.ownedBody
  cases db.jobRequests.find? (fun request => request.jobId = id.text && request.authHash = a &&
    request.provider = provider) <;> rfl

/-- An owner's request is registered under an id of the owner. -/
theorem Database.Registered.ownId_of_body (h : db.Registered) {id : JobId} {provider text : String}
    (hbody : db.ownedBody id a provider = some text) : db.OwnId a id := by
  obtain ⟨request, hrequest, -⟩ := Option.map_eq_some_iff.mp hbody
  have hfound : (request.jobId = id.text ∧ request.authHash = a) ∧ request.provider = provider := by
    simpa using List.find?_some hrequest
  intro row hrow hid
  rw [← hfound.1.2]
  exact h.owned request (List.mem_of_find?_eq_some hrequest) row hrow (hid.trans hfound.1.1.symm)

theorem Database.Registered.ownedRequest_ownedBy (h : db.Registered) (c : Codec) (id : JobId) (a provider : String) :
    (db.ownedBy a).ownedRequest c id a provider = db.ownedRequest c id a provider := by
  rw [Database.ownedRequest_eq, Database.ownedRequest_eq, Database.ownedBody_ownedBy]
  cases hbody : db.ownedBody id a provider with
  | none => rfl
  | some text =>
    dsimp only
    rw [Database.get_ownedBy c (h.ownId_of_body hbody)]

private theorem any_filter_of_imp {α : Type} {p q : α → Bool} {l : List α}
    (h : ∀ x ∈ l, q x = true → p x = true) : (l.filter p).any q = l.any q := by
  refine Bool.eq_iff_iff.mpr ?_
  simp only [List.any_eq_true, List.mem_filter]
  exact ⟨fun ⟨x, ⟨hx, _⟩, hq⟩ => ⟨x, hx, hq⟩, fun ⟨x, hx, hq⟩ => ⟨x, ⟨hx, h x hx hq⟩, hq⟩⟩

theorem Database.insertOrIgnoreJob_own {new : JobRow} (hauth : new.authHash = a) (fresh : new.id ∉ db.jobs.map JobRow.id) :
    (db.insertOrIgnoreJob new).ownedBy a = (db.ownedBy a).insertOrIgnoreJob new := by
  have hany : (db.ownedBy a).jobs.any (fun old => old.id = new.id ||
      (old.authHash = new.authHash && old.requestHash = new.requestHash)) =
      db.jobs.any (fun old => old.id = new.id || (old.authHash = new.authHash && old.requestHash = new.requestHash)) := by
    refine any_filter_of_imp fun old hold hclash => ?_
    have hid : old.id ≠ new.id := fun hid => fresh (hid ▸ List.mem_map_of_mem hold)
    simp_all
  unfold Database.insertOrIgnoreJob
  rw [hany]
  split
  · rfl
  · simp [Database.ownedBy, hauth]

theorem Database.insertOrIgnoreJob_other {new : JobRow} (hauth : new.authHash ≠ a) :
    (db.insertOrIgnoreJob new).ownedBy a = db.ownedBy a := by
  unfold Database.insertOrIgnoreJob
  split
  · rfl
  · simp [Database.ownedBy, hauth]

theorem Database.Registered.insertOrIgnoreRequest_own (h : db.Registered) (c : Codec) {new : RequestRow}
    (hauth : new.authHash = a) (howner : ∃ row ∈ db.jobs, row.id = new.jobId ∧ row.authHash = a) :
    (db.insertOrIgnoreRequest c new).ownedBy a = (db.ownedBy a).insertOrIgnoreRequest c new := by
  obtain ⟨row, hrow, hid, hrowAuth⟩ := howner
  have hany : (db.ownedBy a).jobRequests.any (fun old => old.jobId = new.jobId ||
      (old.authHash = new.authHash && new.idempotencyHash.isSome && old.idempotencyHash = new.idempotencyHash)) =
      db.jobRequests.any (fun old => old.jobId = new.jobId ||
      (old.authHash = new.authHash && new.idempotencyHash.isSome && old.idempotencyHash = new.idempotencyHash)) := by
    refine any_filter_of_imp fun old hold hclash => ?_
    rcases Bool.or_eq_true_iff.mp hclash with hjob | hkey
    · -- The id is the owner's, and so is every request under it.
      rw [decide_eq_true_eq, ← h.owned old hold row hrow (hid.trans (of_decide_eq_true hjob).symm), hrowAuth]
    · simp_all
  unfold Database.insertOrIgnoreRequest
  rw [hany]
  split
  · rfl
  · simp [Database.ownedBy, hauth]

theorem Database.insertOrIgnoreRequest_other (c : Codec) {new : RequestRow} (hauth : new.authHash ≠ a) :
    (db.insertOrIgnoreRequest c new).ownedBy a = db.ownedBy a := by
  unfold Database.insertOrIgnoreRequest
  split
  · rfl
  · simp [Database.ownedBy, hauth]

/-- What the owner's part of a transaction's result is. -/
def onPart (a : String) (result : Except ProxyError (Database × JobId)) : Except ProxyError (Database × JobId) :=
  result.map (fun committed => (committed.1.ownedBy a, committed.2))

theorem Database.Registered.enqueueTransaction_own (h : db.Registered) (c : Codec) {uuid provider : String}
    (request : NormalizedRequest) (fresh : uuid ∉ db.jobs.map JobRow.id) :
    onPart a (db.enqueueTransaction c uuid a provider request) =
      (db.ownedBy a).enqueueTransaction c uuid a provider request := by
  have hjob : (db.insertOrIgnoreJob (.queued uuid a request.requestHash request.model)).ownedBy a =
      (db.ownedBy a).insertOrIgnoreJob (.queued uuid a request.requestHash request.model) :=
    Database.insertOrIgnoreJob_own rfl fresh
  unfold Database.enqueueTransaction
  dsimp only
  rw [← hjob, Database.jobIdOf_ownedBy]
  have h₁ := h.insertOrIgnoreJob (.queued uuid a request.requestHash request.model)
  generalize db.insertOrIgnoreJob (.queued uuid a request.requestHash request.model) = db₁ at h₁
  cases hid : db₁.jobIdOf a request.requestHash with
  | none => rfl
  | some id =>
    have hrequest := h₁.insertOrIgnoreRequest_own c
      (show (⟨id, provider, a, request.idempotencyHash, c.print request.batchBody⟩ : RequestRow).authHash = a from rfl)
      (Database.jobIdOf_owner hid)
    dsimp only
    rw [← hrequest]
    cases request.idempotencyHash with
    | none => rfl
    | some key =>
      dsimp only
      rw [Database.ownerOf_ownedBy]
      split
      · rfl
      · split <;> rfl

/-- The job a committed transaction returns is the owner's. -/
theorem Database.Registered.ownId_of_enqueued {db' : Database} (h : db.Registered) {uuid provider : String}
    {request : NormalizedRequest} {id : JobId}
    (hrun : db.enqueueTransaction c uuid a provider request = .ok (db', id)) : db'.OwnId a id := by
  obtain ⟨-, -, hkey⟩ := Database.enqueueTransaction_spec c h.wellFormed hrun
  obtain ⟨row, hrow, heq⟩ := List.mem_map.mp hkey
  obtain ⟨hid, hrest⟩ := Prod.mk.inj heq
  intro other hother hotherId
  rw [(h.enqueueTransaction hrun).wellFormed.uniqueIds.eq_of_id hother hrow (hotherId.trans hid.symm),
    (Prod.mk.inj hrest).1]

theorem Database.Registered.enqueue_own (h : db.Registered) (c : Codec) {uuid provider : String}
    (request : NormalizedRequest) (fresh : uuid ∉ db.jobs.map JobRow.id) :
    (db.enqueue c uuid a provider request).2 = ((db.ownedBy a).enqueue c uuid a provider request).2 ∧
      (db.enqueue c uuid a provider request).1.ownedBy a = ((db.ownedBy a).enqueue c uuid a provider request).1 := by
  have hpart : onPart a (db.enqueueTransaction c uuid a provider request) =
      (db.ownedBy a).enqueueTransaction c uuid a provider request := h.enqueueTransaction_own c request fresh
  unfold Database.enqueue
  cases hrun : db.enqueueTransaction c uuid a provider request with
  | error error =>
    rw [hrun] at hpart
    rw [← hpart]
    exact ⟨rfl, rfl⟩
  | ok committed =>
    obtain ⟨db', id⟩ := committed
    rw [hrun] at hpart
    rw [← hpart]
    exact ⟨congrArg (Except.mapError ProxyError.persistence) (Database.get_ownedBy c (h.ownId_of_enqueued hrun)).symm, rfl⟩

theorem Database.enqueueTransaction_other (c : Codec) {db' : Database} {uuid authHash provider : String}
    {request : NormalizedRequest} {id : JobId} (hauth : authHash ≠ a)
    (hrun : db.enqueueTransaction c uuid authHash provider request = .ok (db', id)) :
    db'.ownedBy a = db.ownedBy a := by
  obtain ⟨-, rfl, -⟩ := Database.enqueueTransaction_ok hrun
  rw [Database.insertOrIgnoreRequest_other c hauth, Database.insertOrIgnoreJob_other hauth]

theorem Database.enqueue_other (c : Codec) (db : Database) {uuid authHash provider : String}
    (request : NormalizedRequest) (hauth : authHash ≠ a) :
    (db.enqueue c uuid authHash provider request).1.ownedBy a = db.ownedBy a := by
  unfold Database.enqueue
  split
  · rfl
  next hrun => exact Database.enqueueTransaction_other c hauth hrun

theorem Transition.run_own (t : Transition) (c : Codec) (now : Timestamp) (h : db.OwnId a t.id) :
    (t.run c now db).2 = (t.run c now (db.ownedBy a)).2 ∧
      (t.run c now db).1.ownedBy a = (t.run c now (db.ownedBy a)).1 := by
  have hmine : ∀ row ∈ db.jobs, (row.id = t.id.text && t.affects row) = true → (decide (row.authHash = a)) = true := by
    intro row hrow haffected
    exact decide_eq_true (h row hrow (of_decide_eq_true (Bool.and_eq_true_iff.mp haffected).1))
  have hfind : (db.ownedBy a).jobs.find? (fun row => row.id = t.id.text && t.affects row) =
      db.jobs.find? (fun row => row.id = t.id.text && t.affects row) := find?_filter_of_imp hmine
  have hfilter : (db.ownedBy a).jobs.filter (fun row => row.id = t.id.text && t.affects row) =
      db.jobs.filter (fun row => row.id = t.id.text && t.affects row) := by
    unfold Database.ownedBy
    rw [List.filter_filter]
    refine List.filter_congr fun row hrow => ?_
    cases haffected : (decide (row.id = t.id.text) && t.affects row) with
    | false => simp
    | true => simp [hmine row hrow haffected]
  rw [t.run_eq, t.run_eq]
  unfold Database.transition
  rw [hfind, hfilter]
  split
  · exact ⟨rfl, rfl⟩
  · split
    · refine ⟨rfl, ?_⟩
      simp only [Database.ownedBy, List.filter_map, Database.mk.injEq, and_true]
      refine congrArg _ (List.filter_congr fun row _ => ?_)
      dsimp only [Function.comp_apply]
      split
      · rw [(t.set_identity c now row).1]
      · rfl
    · exact ⟨rfl, rfl⟩

/-- A statement on a job of another owner. -/
theorem Transition.run_other (t : Transition) (c : Codec) (now : Timestamp)
    (h : ∀ row ∈ db.jobs, row.id = t.id.text → row.authHash ≠ a) : (t.run c now db).1.ownedBy a = db.ownedBy a := by
  rw [t.run_eq]
  unfold Database.transition
  split
  · rfl
  · split
    · simp only [Database.ownedBy, Database.mk.injEq, and_true]
      rw [List.filter_map]
      have hsame : db.jobs.filter ((fun row => decide (row.authHash = a)) ∘ fun row =>
          if (row.id = t.id.text && t.affects row) = true then t.set c now row else row) =
          db.jobs.filter (fun row => decide (row.authHash = a)) := by
        refine List.filter_congr fun row _ => ?_
        dsimp only [Function.comp_apply]
        split
        · rw [(t.set_identity c now row).1]
        · rfl
      rw [hsame]
      conv_rhs => rw [← List.map_id (db.jobs.filter _)]
      refine List.map_congr_left fun row hrow => ?_
      obtain ⟨hmem, hmine⟩ := List.mem_filter.mp hrow
      have hid : row.id ≠ t.id.text := fun hid => h row hmem hid (of_decide_eq_true hmine)
      simp [hid]
    · rfl

/-- `enqueue` up to its commit, before it reads the job back. -/
def Database.register (c : Codec) (db : Database) (uuid authHash provider : String) (request : NormalizedRequest) :
    Database × Except ProxyError JobId :=
  match db.enqueueTransaction c uuid authHash provider request with
  | .error error => (db, .error error)
  | .ok (db', id) => (db', .ok id)

/-- What a client, or the worker of one of its jobs, asks of the store. -/
inductive Operation where
  | enqueue (uuid provider : String) (request : NormalizedRequest)
  | register (uuid provider : String) (request : NormalizedRequest)
  | get (id : JobId)
  | checkIdempotency (request : NormalizedRequest)
  | find (requestHash : String)
  | ownedJob (id : JobId) (provider : String)
  | ownedBody (id : JobId) (provider : String)
  | ownedRequest (id : JobId) (provider : String)
  | listOwned (provider after : String) (limit : Nat)
  | transition (t : Transition) (now : Timestamp)

/-- What it learns. -/
inductive Reply where
  | job (result : Except ProxyError Job)
  | registered (result : Except ProxyError JobId)
  | row (result : Except PersistenceError Job)
  | found (result : Except PersistenceError (Option Job))
  | checked (result : Except ProxyError Unit)
  | body (result : Except ProxyError (Option String))
  | request (result : Except ProxyError (Job × Value))
  | page (result : Except ProxyError (List JobSummary))
  | state (result : Except PersistenceError JobState)

/-- The operation under a hash, with what goes wrong on the way. -/
def Operation.run (c : Codec) (authHash : String) (fault : Fault) (db : Database) : Operation → Database × Reply
  | .enqueue uuid provider request =>
      (fault.apply .database db (db.enqueue c uuid authHash provider request)).map id .job
  | .register uuid provider request =>
      (fault.apply .database db (db.register c uuid authHash provider request)).map id .registered
  | .get jobId => (fault.apply .database db (db, db.get c jobId)).map id .row
  | .checkIdempotency request => (fault.apply .database db (db, db.checkIdempotency authHash request)).map id .checked
  | .find requestHash => (fault.apply .database db (db, db.find c authHash requestHash)).map id .found
  | .ownedJob jobId provider => (fault.apply .database db (db, db.ownedJob c jobId authHash provider)).map id .job
  | .ownedBody jobId provider => (fault.apply .database db (db, .ok (db.ownedBody jobId authHash provider))).map id .body
  | .ownedRequest jobId provider =>
      (fault.apply .database db (db, db.ownedRequest c jobId authHash provider)).map id .request
  | .listOwned provider after limit =>
      (fault.apply .database db (db, .ok (db.listOwned authHash provider after limit))).map id .page
  | .transition t now => (fault.apply .database db (t.run c now db)).map id .state

/-- New job ids are unused, and only an owner's own jobs are read back and worked on. -/
def Operation.Admitted (authHash : String) (db : Database) : Operation → Prop
  | .enqueue uuid _ _ | .register uuid _ _ => uuid ∉ db.jobs.map JobRow.id
  | .get id => db.OwnId authHash id
  | .transition t _ => db.OwnId authHash t.id
  | _ => True

theorem Database.Registered.register_own (h : db.Registered) (c : Codec) {uuid provider : String}
    (request : NormalizedRequest) (fresh : uuid ∉ db.jobs.map JobRow.id) :
    (db.register c uuid a provider request).2 = ((db.ownedBy a).register c uuid a provider request).2 ∧
      (db.register c uuid a provider request).1.ownedBy a = ((db.ownedBy a).register c uuid a provider request).1 := by
  have hpart : onPart a (db.enqueueTransaction c uuid a provider request) =
      (db.ownedBy a).enqueueTransaction c uuid a provider request := h.enqueueTransaction_own c request fresh
  unfold Database.register
  rw [← hpart]
  cases db.enqueueTransaction c uuid a provider request <;> exact ⟨rfl, rfl⟩

theorem Database.register_spec (c : Codec) (db : Database) (uuid authHash provider : String)
    (request : NormalizedRequest) : (db.register c uuid authHash provider request).1 =
      (db.enqueue c uuid authHash provider request).1 := by
  unfold Database.register Database.enqueue
  cases db.enqueueTransaction c uuid authHash provider request <;> rfl

private theorem faulted_own {ε α : Type} {wrap : String → ε} {reply : Except ε α → Reply} (fault : Fault)
    {result result' : Database × Except ε α} (h : result.2 = result'.2 ∧ result.1.ownedBy a = result'.1) :
    ((fault.apply wrap db result).map id reply).2 = ((fault.apply wrap (db.ownedBy a) result').map id reply).2 ∧
      ((fault.apply wrap db result).map id reply).1.ownedBy a =
        ((fault.apply wrap (db.ownedBy a) result').map id reply).1 := by
  cases fault with
  | none => exact ⟨congrArg reply h.1, h.2⟩
  | failed message => exact ⟨rfl, rfl⟩
  | unacknowledged message => exact ⟨rfl, h.2⟩

/-- An owner's operation sees and changes the owner's part of the store only. -/
theorem Operation.run_own (op : Operation) (c : Codec) (fault : Fault) (h : db.Registered) (hadmitted : op.Admitted a db) :
    (op.run c a fault db).2 = (op.run c a fault (db.ownedBy a)).2 ∧
      (op.run c a fault db).1.ownedBy a = (op.run c a fault (db.ownedBy a)).1 := by
  cases op with
  | enqueue uuid provider request => exact faulted_own fault (h.enqueue_own c request hadmitted)
  | register uuid provider request => exact faulted_own fault (h.register_own c request hadmitted)
  | get id => exact faulted_own fault ⟨(Database.get_ownedBy c hadmitted).symm, rfl⟩
  | checkIdempotency request => exact faulted_own fault ⟨(h.checkIdempotency_ownedBy a request).symm, rfl⟩
  | find requestHash => exact faulted_own fault ⟨(db.find_ownedBy c a requestHash).symm, rfl⟩
  | ownedJob id provider => exact faulted_own fault ⟨(h.ownedJob_ownedBy c id a provider).symm, rfl⟩
  | ownedBody id provider => exact faulted_own fault ⟨congrArg Except.ok (db.ownedBody_ownedBy id a provider).symm, rfl⟩
  | ownedRequest id provider => exact faulted_own fault ⟨(h.ownedRequest_ownedBy c id a provider).symm, rfl⟩
  | listOwned provider after limit =>
    exact faulted_own fault ⟨congrArg Except.ok (h.listOwned_ownedBy a provider after limit).symm, rfl⟩
  | transition t now => exact faulted_own fault (t.run_own c now hadmitted)

private theorem faulted_keeps {ε α : Type} {wrap : String → ε} {reply : Except ε α → Reply} (P : Database → Prop)
    (fault : Fault) {result : Database × Except ε α} (h : P db) (hresult : P result.1) :
    P ((fault.apply wrap db result).map id reply).1 := by
  rcases fault.apply_fst wrap db result with heq | heq <;> rw [Prod.map_fst, id, heq] <;> assumption

/-- Only enqueues and transitions change the store. -/
theorem Operation.run_keeps (op : Operation) (c : Codec) (authHash : String) (fault : Fault) (P : Database → Prop)
    (h : P db) (henqueue : ∀ uuid provider request, P (db.enqueue c uuid authHash provider request).1)
    (htransition : ∀ t now, op = .transition t now → P (t.run c now db).1) : P (op.run c authHash fault db).1 := by
  cases op with
  | enqueue uuid provider request => exact faulted_keeps P fault h (henqueue uuid provider request)
  | register uuid provider request =>
    exact faulted_keeps P fault h (db.register_spec c uuid authHash provider request ▸ henqueue uuid provider request)
  | transition t now => exact faulted_keeps P fault h (htransition t now rfl)
  | _ => exact faulted_keeps P fault h h

theorem Operation.run_registered (op : Operation) (c : Codec) (authHash : String) (fault : Fault) (h : db.Registered) :
    (op.run c authHash fault db).1.Registered :=
  op.run_keeps c authHash fault Database.Registered h (h.enqueue c · authHash) (fun t now _ => h.transition c t now)

/-- An operation of another owner does not touch the owner's part. -/
theorem Operation.run_other (op : Operation) (c : Codec) {authHash : String} (fault : Fault) (hauth : authHash ≠ a)
    (hadmitted : op.Admitted authHash db) : (op.run c authHash fault db).1.ownedBy a = db.ownedBy a := by
  refine op.run_keeps c authHash fault (fun db' => db'.ownedBy a = db.ownedBy a) rfl
    (fun uuid provider request => db.enqueue_other c request hauth) ?_
  rintro t now rfl
  exact t.run_other c now (fun row hrow hid hmine => hauth ((hadmitted row hrow hid).symm.trans hmine))

end Kaiion.Durable

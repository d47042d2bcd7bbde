import Kaiion.Proxy.JobApi

/-! Handlers of the job API among everything else that goes on: what each of them brings about stays so,
whatever the other handlers and the workers do before and after. -/
namespace Kaiion.Proxy
open Durable Foundation
variable {α β : Type} {c : Codec} {s : Registry}

/-- What holds goes on holding, whatever the rest of the process does. -/
def Lasting (c : Codec) (P : Registry → Prop) : Prop := ∀ a b, a.Intact c → Registry.Run c a b → P a → P b

theorem Lasting.and {P Q : Registry → Prop} (hP : Lasting c P) (hQ : Lasting c Q) : Lasting c fun r => P r ∧ Q r :=
  fun a b ha hr h => ⟨hP a b ha hr h.1, hQ a b ha hr h.2⟩

theorem Lasting.const (p : Prop) : Lasting c fun _ => p := fun _ _ _ _ h => h

theorem Lasting.all {ι : Sort*} {P : ι → Registry → Prop} (h : ∀ i, Lasting c (P i)) : Lasting c fun r => ∀ i, P i r :=
  fun a b ha hr hP i => h i a b ha hr (hP i)

theorem lasting_belongs (id : JobId) (authHash requestHash : String) :
    Lasting c fun r => r.fleet.world.db.Belongs id authHash requestHash :=
  fun _ _ ha hr h => h.forward (Registry.Life.sound hr.life ha.sound).2

theorem lasting_cared (id : JobId) : Lasting c fun r => r.Cared id := fun _ _ ha hr h => hr.cared ha.sound h

theorem lasting_receiver (receiver : Receiver) : Lasting c fun r => receiver ∈ r.receivers :=
  fun _ _ _ hr h => (Registry.Run.steady hr).2 h

/-- The credential has registered this job with the provider. -/
def OwnsId (db : Database) (authHash provider id : String) : Prop :=
  ∃ row request, Owns db authHash provider row request ∧ row.id = id

theorem OwnsId.later {a b : Registry} {authHash provider id : String} (h : OwnsId a.fleet.world.db authHash provider id)
    (hlife : Registry.Life c a b) (ha : a.Sound c) : OwnsId b.fleet.world.db authHash provider id := by
  obtain ⟨row, request, howns, rfl⟩ := h
  obtain ⟨row', hrow', hforward⟩ := (Registry.Life.sound hlife ha).2 ⟨row.id⟩ row
    (ha.fleet.wellFormed.uniqueIds.row?_of_mem howns.stored)
  have hid : row'.id = row.id := Database.row?_id hrow'
  have hrequests := (StoreStep.run_spec (Registry.Life.stores hlife) ha.fleet.wellFormed).2.requests
  exact ⟨row', request, ⟨Database.row?_mem hrow', hrequests request howns.registered, hid.trans howns.job, howns.owner,
    howns.deployment⟩, hid⟩

theorem lasting_ownsId (authHash provider id : String) :
    Lasting c fun r => OwnsId r.fleet.world.db authHash provider id :=
  fun _ _ ha hr h => h.later hr.life ha.sound

theorem ownsId_of_body {db : Database} (hw : db.WellFormed) {id : JobId} {authHash provider text : String}
    (h : db.ownedBody id authHash provider = some text) : OwnsId db authHash provider id.text := by
  unfold Database.ownedBody at h
  obtain ⟨request, hfound, -⟩ := Option.map_eq_some_iff.mp h
  have hmatches := List.find?_some hfound
  simp only [Bool.and_eq_true, decide_eq_true_eq] at hmatches
  obtain ⟨⟨hid, hauth⟩, hprovider⟩ := hmatches
  have hrequest := List.mem_of_find?_eq_some hfound
  obtain ⟨row, hrow, hjob⟩ := List.mem_map.mp (hw.references request hrequest)
  exact ⟨row, request, ⟨hrow, hrequest, hjob, hauth, hprovider⟩, hjob.trans hid⟩

theorem lasting_checked : Lasting c fun r => r.fleet.world.db.Checked c := fun _ _ ha hr h =>
  StoreStep.run_checked (Registry.Life.stores hr.life) ha.sound.fleet.wellFormed h

theorem lasting_ended (id : JobId) : Lasting c fun r => r.fleet.world.db.Ended id :=
  fun _ _ ha hr h => h.forward (Registry.Life.sound hr.life ha.sound).2

theorem lasting_forward (db : Database) : Lasting c fun r => db.Forward r.fleet.world.db :=
  fun _ _ ha hr h => h.trans (Registry.Life.sound hr.life ha.sound).2

theorem lasting_past (job : Job) : Lasting c fun r => job.Past c r.fleet.world.db :=
  fun _ _ ha hr h => h.forward (Registry.Life.sound hr.life ha.sound).2

/-- Every answer is a step, or a few, of the process. -/
theorem JobOp.Answers.run {op : JobOp} {a b : Registry} {reply : op.Reply} (h : op.Answers c a reply b) :
    Registry.Run c a b := by
  cases op with
  | register authHash provider request =>
    obtain ⟨uuid, fresh, fault, db, hfault, rfl⟩ := h
    have hcommitted : (fault.apply .database a.fleet.world.db
        (a.fleet.world.db.enqueue c uuid authHash provider request)).1 = db := by
      have hsame : (a.fleet.world.db.register c uuid authHash provider request).1 =
          (a.fleet.world.db.enqueue c uuid authHash provider request).1 := by
        unfold Database.register Database.enqueue
        cases a.fleet.world.db.enqueueTransaction c uuid authHash provider request <;> rfl
      have hdb := congrArg Prod.fst hfault
      cases fault with
      | failed => exact hdb
      | _ => exact hsame.symm.trans hdb
    exact .single (.runs a _ (.enqueue a.fleet uuid authHash provider request fault fresh db hcommitted)
      ⟨rfl, fun _ => rfl⟩)
  | get id =>
    rcases h with ⟨job, hjob, -, rfl⟩ | ⟨rfl, -⟩
    · exact Registry.hold_run hjob
    · exact .refl
  | subscribe job auth requestBody =>
    obtain ⟨held, rfl, -⟩ := h
    exact .single (.subscribes a auth requestBody job held)
  | _ =>
    obtain ⟨rfl, -⟩ := h
    exact .refl

/-- A handler whose answer, if it is one, is right, and stays so. -/
def Yields (c : Codec) (Q : α → Registry → Prop) (result : Except ProxyError α) (r : Registry) : Prop :=
  r.Intact c ∧ ∀ value, result = .ok value → Q value r

abbrev Gives (c : Codec) (p : JobHandler α) (Q : α → Registry → Prop) (s : Registry) : Prop :=
  Prog.Safe (Registry.Run c) (Registry.Run c) (JobOp.Answers c) p.run (Yields c Q) s

theorem lasting_yields {Q : α → Registry → Prop} (hQ : ∀ value, Lasting c (Q value)) (result : Except ProxyError α)
    (a b : Registry) (h : Yields c Q result a) (hr : Registry.Run c a b) : Yields c Q result b :=
  ⟨hr.life.intact h.1, fun value hv => hQ value a b h.1 hr (h.2 value hv)⟩

namespace Gives

theorem ok {Q : α → Registry → Prop} (hQ : ∀ value, Lasting c (Q value)) (h : s.Intact c) {value : α} (hv : Q value s) :
    Gives c (pure value) Q s := fun t ht =>
  lasting_yields hQ _ s t ⟨h, fun other ho => by cases ho; exact hv⟩ ht

theorem given {Q : α → Registry → Prop} (hQ : ∀ value, Lasting c (Q value)) (h : s.Intact c)
    {result : Except ProxyError α} (hresult : ∀ value, result = .ok value → Q value s) :
    Gives c (JobApi.given result) Q s := fun t ht => lasting_yields hQ _ s t ⟨h, hresult⟩ ht

theorem andThen {Q : α → Registry → Prop} {Q' : β → Registry → Prop} (hQ' : ∀ value, Lasting c (Q' value))
    {p : JobHandler α} {f : α → JobHandler β} (hp : Gives c p Q s)
    (hf : ∀ value t, t.Intact c → Q value t → Gives c (f value) Q' t) : Gives c (p >>= f) Q' s := by
  refine Prog.Safe.andThen (fun _ => .refl) (lasting_yields hQ') (Prog.Safe.mono hp fun result t ht => ?_)
  cases result with
  | ok value => exact hf value t ht.1 (ht.2 value rfl)
  | error error => exact ⟨ht.1, fun _ he => nomatch he⟩

theorem mono {Q Q' : α → Registry → Prop} {p : JobHandler α} (h : Gives c p Q s)
    (hQ : ∀ value t, Q value t → Q' value t) : Gives c p Q' s :=
  Prog.Safe.mono h fun _ t ht => ⟨ht.1, fun value hv => hQ value t (ht.2 value hv)⟩

/-- What lasts is still there when the handler is done. -/
theorem keeps {Q : α → Registry → Prop} {P : Registry → Prop} {p : JobHandler α} (hp : Gives c p Q s) (hP : Lasting c P)
    (h : s.Intact c) (hs : P s) : Gives c p (fun value r => Q value r ∧ P r) s := by
  have hkept : ∀ a b : Registry, a.Intact c ∧ P a → Registry.Run c a b → b.Intact c ∧ P b :=
    fun a b ha hr => ⟨hr.life.intact ha.1, hP a b ha.1 hr ha.2⟩
  exact Prog.Safe.mono (Prog.Safe.frame hp hkept hkept ⟨h, hs⟩) fun result t ht =>
    ⟨ht.2.1, fun value hv => ⟨ht.1.2 value hv, ht.2.2⟩⟩

end Gives

/-- Call rule. -/
theorem performs {op : JobOp} {P : Registry → Prop} {post : op.Reply → Registry → Prop} (hP : Lasting c P)
    (hpost : ∀ reply, Lasting c (post reply)) (h : s.Intact c) (hs : P s)
    (hop : ∀ a reply b, a.Intact c → P a → op.Answers c a reply b → post reply b) :
    Prog.Safe (Registry.Run c) (Registry.Run c) (JobOp.Answers c) (JobApi.perform op)
      (fun reply r => r.Intact c ∧ post reply r) s := by
  refine Prog.Safe.performed (fun r => r.Intact c ∧ P r) ⟨h, hs⟩
    (fun a b ha hr => ⟨hr.life.intact ha.1, hP a b ha.1 hr ha.2⟩)
    (fun reply a b ha hr => ⟨hr.life.intact ha.1, hpost reply a b ha.1 hr ha.2⟩) ?_
  intro a reply b ha hb
  exact ⟨hb.run, hb.run.life.intact ha.1, hop a reply b ha.1 ha.2 hb⟩

/-- A statement that succeeds, whatever it replies. -/
theorem lasting_success {Q : α → Registry → Prop} (hQ : ∀ value, Lasting c (Q value)) (reply : Except ProxyError α) :
    Lasting c fun r => ∀ value, reply = .ok value → Q value r :=
  Lasting.all fun value a b ha hr h he => hQ value a b ha hr (h he)

namespace JobApi

theorem register_gives (h : s.Intact c) (authHash provider : String) (request : NormalizedRequest) :
    Gives c (ExceptT.mk (perform (.register authHash provider request)))
      (fun id r => r.fleet.world.db.Belongs id authHash request.requestHash) s := by
  refine performs (Lasting.const True)
    (lasting_success fun id => lasting_belongs id authHash request.requestHash) h trivial ?_
  rintro a reply b ha - ⟨uuid, fresh, fault, db, hfault, rfl⟩ id rfl
  have hregister := Fault.apply_ok hfault
  unfold Database.register at hregister
  cases htransaction : a.fleet.world.db.enqueueTransaction c uuid authHash provider request with
  | error error =>
    rw [htransaction] at hregister
    cases hregister
  | ok committed =>
    rw [htransaction] at hregister
    cases hregister
    obtain ⟨hw, -, hkey⟩ := Database.enqueueTransaction_spec c ha.sound.fleet.wellFormed htransaction
    obtain ⟨row, hrow, heq⟩ := List.mem_map.mp hkey
    obtain ⟨hid, hrest⟩ := Prod.mk.inj heq
    obtain ⟨hauth, hrequest⟩ := Prod.mk.inj hrest
    refine ⟨row, ?_, hauth, hrequest⟩
    have hfound := hw.uniqueIds.row?_of_mem hrow
    rw [hid] at hfound
    exact hfound

/-- A job that was read is not behind anything that was ever read. -/
def Read (c : Codec) (db : Database) (id : JobId) (job : Job) (r : Registry) : Prop :=
  job.id = id ∧ job.Since c db ∧ job.Past c r.fleet.world.db

theorem lasting_read (db : Database) (id : JobId) (job : Job) : Lasting c (Read c db id job) :=
  (Lasting.const _).and ((Lasting.const _).and (lasting_past job))

theorem get_gives (h : s.Intact c) (id : JobId) : Gives c (get id) (Read c s.fleet.world.db id) s := by
  have hread : Prog.Safe (Registry.Run c) (Registry.Run c) (JobOp.Answers c) (perform (.get id))
      (fun reply r => r.Intact c ∧ ∀ job, reply = .ok job → Read c s.fleet.world.db id job r) s := by
    refine performs (lasting_forward s.fleet.world.db) (fun _ => Lasting.all fun job => Lasting.all fun _ =>
      lasting_read s.fleet.world.db id job) h (.refl _) ?_
    rintro a reply b - hforward hanswers job rfl
    rcases hanswers with ⟨job', hget, heq, rfl⟩ | ⟨-, error, heq⟩
    · cases heq
      exact ⟨Database.get_id hget, (Database.get_since hget).earlier hforward, Database.get_past hget⟩
    · cases heq
  refine Prog.Safe.lifted (fun _ => .refl) (fun _ _ _ h h' => h.trans h') (Prog.Safe.mono hread fun reply t ht => ?_)
  refine Gives.given (lasting_read s.fleet.world.db id) ht.1 fun job hjob => ?_
  cases reply with
  | error error => cases hjob
  | ok read =>
    cases hjob
    exact ht.2 job rfl

theorem enqueue_gives (h : s.Intact c) (authHash provider : String) (request : NormalizedRequest) :
    Gives c (enqueue authHash provider request) (fun job r =>
      r.fleet.world.db.Belongs job.id authHash request.requestHash ∧ Read c s.fleet.world.db job.id job r) s := by
  have hlasting : ∀ job : Job, Lasting c fun r =>
      r.fleet.world.db.Belongs job.id authHash request.requestHash ∧ Read c s.fleet.world.db job.id job r :=
    fun job => (lasting_belongs job.id authHash request.requestHash).and (lasting_read _ _ job)
  have hregistered := (register_gives h authHash provider request).keeps (lasting_forward s.fleet.world.db) h (.refl _)
  refine Gives.andThen hlasting hregistered fun id t ht hbelongs => ?_
  refine Gives.mono ((get_gives ht id).keeps (lasting_belongs id authHash request.requestHash) ht hbelongs.1) ?_
  rintro job u ⟨⟨rfl, hsince, hpast⟩, hlater⟩
  exact ⟨hlater, rfl, hsince.earlier hbelongs.2, hpast⟩

theorem subscribe_gives (h : s.Intact c) (job : Job) (auth : UpstreamAuth) (requestBody : Value) :
    Gives c (subscribe job auth requestBody) (fun receiver r =>
      receiver.id = job.id ∧ receiver ∈ r.receivers ∧ r.Cared job.id) s := by
  have hlasting : ∀ receiver, Lasting c fun r => receiver.id = job.id ∧ receiver ∈ r.receivers ∧ r.Cared job.id :=
    fun receiver => (Lasting.const _).and ((lasting_receiver receiver).and (lasting_cared job.id))
  have hsubscribed : Prog.Safe (Registry.Run c) (Registry.Run c) (JobOp.Answers c)
      (perform (.subscribe job auth requestBody))
      (fun receiver r => r.Intact c ∧ receiver.id = job.id ∧ receiver ∈ r.receivers ∧ r.Cared job.id) s := by
    refine performs (Lasting.const True) hlasting h trivial ?_
    rintro a receiver b ha - ⟨held, rfl, hhead⟩
    refine ⟨?_, List.mem_of_head? hhead, ha.sound.subscribe_cares auth requestBody held⟩
    unfold Registry.subscribe at hhead
    split at hhead
    · cases hhead
      rfl
    · split at hhead <;> cases hhead <;> rfl
  refine Prog.Safe.bind (fun _ => .refl) (Prog.Safe.mono hsubscribed fun receiver t ht => ?_)
  exact Gives.ok hlasting ht.1 ht.2

theorem ownedRequest_gives (h : s.Intact c) (id : JobId) (authHash provider : String) :
    Gives c (ownedRequest c id authHash provider) (fun found r =>
      OwnsId r.fleet.world.db authHash provider id.text ∧ Read c s.fleet.world.db id found.1 r) s := by
  have hlasting : ∀ found : Job × Value, Lasting c fun r =>
      OwnsId r.fleet.world.db authHash provider id.text ∧ Read c s.fleet.world.db id found.1 r :=
    fun found => (lasting_ownsId authHash provider id.text).and (lasting_read _ id found.1)
  have hstored : Gives c (ExceptT.mk (perform (.ownedBody id authHash provider))) (fun (stored : Option String) r =>
      ∀ text, stored = some text → OwnsId r.fleet.world.db authHash provider id.text) s := by
    refine performs (Lasting.const True) (lasting_success fun stored => Lasting.all fun text => Lasting.all fun _ =>
      lasting_ownsId authHash provider id.text) h trivial ?_
    rintro a reply b ha - ⟨rfl, heq | ⟨message, heq⟩⟩ stored rfl text rfl
    · exact ownsId_of_body ha.sound.fleet.wellFormed (Except.ok.inj heq).symm
    · cases heq
  refine Gives.andThen hlasting (hstored.keeps (lasting_forward s.fleet.world.db) h (.refl _))
    fun stored t ht hfound => ?_
  have howned : Gives c (given (okOr stored .notFound)) (fun (_ : String) r =>
      OwnsId r.fleet.world.db authHash provider id.text) t := by
    refine Gives.given (fun _ => lasting_ownsId authHash provider id.text) ht fun text htext => ?_
    cases stored with
    | none => cases htext
    | some stored => exact hfound.1 stored rfl
  refine Gives.andThen hlasting (howned.keeps (lasting_forward s.fleet.world.db) ht hfound.2) fun text t ht howns => ?_
  refine Gives.andThen hlasting ((get_gives ht id).keeps (lasting_ownsId authHash provider id.text) ht howns.1)
    fun job u hu hread => ?_
  have hjob : OwnsId u.fleet.world.db authHash provider id.text ∧ Read c s.fleet.world.db id job u :=
    ⟨hread.2, hread.1.1, hread.1.2.1.earlier howns.2, hread.1.2.2⟩
  have hparsed : Gives c (given (Except.mapError .json (c.parse text))) (fun _ r =>
      OwnsId r.fleet.world.db authHash provider id.text ∧ Read c s.fleet.world.db id job r) u :=
    Gives.given (fun _ => hlasting (job, .null)) hu fun _ _ => hjob
  exact Gives.andThen hlasting hparsed fun body v hv hkept => Gives.ok hlasting hv hkept

namespace Sample

def keeper : UpstreamAuth := { authorization := "Bearer a", organization := none, project := none }

noncomputable def keptRow : JobRow := .queued "ab" (keeper.fingerprint sampleCrates) "request" "gpt-5"

noncomputable def keptRequest : RequestRow where
  jobId := "ab"
  provider := "https://api.openai.com/v1"
  authHash := keeper.fingerprint sampleCrates
  idempotencyHash := none
  bodyJson := "null"

/-- A store with one unfinished job. -/
noncomputable def kept : Database := ⟨[keptRow], [keptRequest]⟩

theorem kept_wellFormed : kept.WellFormed where
  uniqueIds := List.nodup_singleton _
  uniqueIdentities := List.nodup_singleton _
  uniqueRequests := List.nodup_singleton _
  uniqueKeys a ha b hb _ _ _ := by rw [List.mem_singleton.mp ha, List.mem_singleton.mp hb]
  references row hrow := by
    rw [List.mem_singleton.mp hrow]
    exact List.mem_singleton_self _

noncomputable def waking : Registry :=
  ⟨⟨⟨kept, [.stored kept]⟩, [], fun _ => none, 0⟩, fun _ => none, [], []⟩

theorem waking_initial : waking.Initial := ⟨⟨kept_wellFormed, rfl, rfl, rfl⟩, rfl, rfl, rfl⟩

theorem kept_joined : kept.joined = [(keptRow, keptRequest)] := by
  simp [Database.joined, kept, keptRow, keptRequest, JobRow.queued]

theorem kept_body :
    kept.ownedBody ⟨"ab"⟩ (keeper.fingerprint sampleCrates) "https://api.openai.com/v1" = some "null" := by
  simp [Database.ownedBody, kept, keptRequest]

def keptJob : Job := ⟨⟨"ab"⟩, "gpt-5", .queued⟩

theorem kept_get : kept.get sampleCrates.json ⟨"ab"⟩ = .ok keptJob := rfl

/-- The process has read the job and started a worker on it. -/
noncomputable def woken : Registry :=
  (waking.hold keptJob).subscribe sampleCrates.json keeper .null keptJob

/-- The provider refuses to take the job's input. -/
def refusal : StoredOutcome :=
  .failed (failedResponse "gpt-5" (ProviderError.permanentHttp ⟨400, "400 Bad Request"⟩ "invalid").message)

def endedJob : Job := ⟨⟨"ab"⟩, "gpt-5", .terminal refusal⟩

/-- The worker meanwhile ends the job. -/
theorem woken_ends : ∃ ended, Registry.Ends sampleCrates.json 0 keptJob keptRow refusal woken ended := by
  have hunique : woken.fleet.world.db.UniqueIds := List.nodup_singleton _
  exact Registry.refused_upload_ends hunique rfl rfl (JobRow.queued_encodes sampleCrates.json _ _ _ _) rfl _ _
    (Json.compact_roundTrips _)

/-- Its owner then finds how it ended. -/
theorem ended_owned {ended : Registry} (h : Registry.Ends sampleCrates.json 0 keptJob keptRow refusal woken ended) :
    ended.fleet.world.db.ownedJob sampleCrates.json ⟨"ab"⟩ (keeper.fingerprint sampleCrates)
      "https://api.openai.com/v1" = .ok endedJob := by
  let row := (Transition.storeOutcome ⟨"ab"⟩ .queued refusal).set sampleCrates.json ⟨"now"⟩ keptRow
  have hdb : ended.fleet.world.db = ⟨[row], [keptRequest]⟩ := by
    rw [h.db ⟨"now"⟩]
    exact congrArg (Database.mk · _) (congrArg ([·]) (if_pos rfl))
  have hid : row.id = "ab" := rfl
  have hread := h.stored
  rw [hdb] at hread ⊢
  have hjoined : (Database.mk [row] [keptRequest]).joined = [(row, keptRequest)] := by
    simp [Database.joined, keptRequest, hid]
  have hget : (Database.mk [row] [keptRequest]).get sampleCrates.json keptJob.id = row.tryFrom sampleCrates.json := by
    simp [Database.get, Database.row?, keptJob, hid]
  unfold Database.ownedJob
  rw [hjoined, List.find?_cons_of_pos (by simp [hid, keptRequest])]
  exact congrArg (Except.mapError ProxyError.persistence) (hget.symm.trans hread)

end Sample

end JobApi
end Kaiion.Proxy

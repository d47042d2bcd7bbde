import Kaiion.Durable.StoreInvariant
import Kaiion.Foundation.Paging
import Kaiion.Json.Object
import Kaiion.Request.TenantIsolation
import Mathlib.Data.String.Basic

/-! The pages of a credential's jobs: what a client that follows them sees, and what a restart takes up
again. -/
namespace Kaiion.Proxy
open Durable Foundation

def summaryView (job : JobSummary) : Value :=
  .object [("id", .string job.id), ("model", .string job.model), ("status", .string job.status),
    ("terminal", .bool job.terminal)]

/-- The body of a page: the jobs, and the last id when the page is full. -/
def jobsView (jobs : List JobSummary) : Value :=
  let next := if jobs.length = 100 then jobs.getLast?.map JobSummary.id else none
  .object [("data", .array (jobs.map summaryView)), ("next_after", next.elim .null .string)]

/-- `list`. -/
def listJobs (crates : Crates) (db : Database) (provider : String) (headers : HeaderMap) (after : String) :
    Except ProxyError Value := do
  let auth ← UpstreamAuth.fromHeaders headers
  return jobsView (db.listOwned (auth.fingerprint crates) provider after 100)

/-- What a client takes from a page: its entries and the cursor of the next one. -/
def readPage (answer : Except ProxyError Value) : List Value × Option String :=
  match answer with
  | .ok page => ((page.items "data").getD [], page.text "next_after")
  | .error _ => ([], none)

/-- A job handed to the workers. -/
structure Subscription where
  job : Job
  auth : UpstreamAuth
  body : Value
  deriving DecidableEq

/-- The credentials in the environment; a variable that is not set or not Unicode is `none`. -/
def authFromEnv (env : String → Option String) : Except ProxyError UpstreamAuth := do
  let key ← okOr (env "OPENAI_API_KEY") (.badRequest "--resume-from-env requires OPENAI_API_KEY")
  if isBlank key then .error (.badRequest "OPENAI_API_KEY cannot be empty")
  else return { authorization := "Bearer " ++ key, organization := env "OPENAI_ORG_ID"
                project := env "OPENAI_PROJECT_ID" }

/-- The jobs of one page: the unfinished ones are read with their requests and subscribed. An error ends
the page after the subscriptions made so far. -/
def resumePage (crates : Crates) (db : Database) (provider : String) (auth : UpstreamAuth) :
    List JobSummary → List Subscription × Except ProxyError Unit
  | [] => ([], .ok ())
  | job :: jobs =>
    if job.terminal then resumePage crates db provider auth jobs
    else
      match db.ownedRequest crates.json ⟨job.id⟩ (auth.fingerprint crates) provider with
      | .error error => ([], .error error)
      | .ok (job, body) =>
        let (subscribed, result) := resumePage crates db provider auth jobs
        (⟨job, auth, body⟩ :: subscribed, result)

/-- The loop of `resume_from_env`. -/
def resumeLoop (crates : Crates) (db : Database) (provider : String) (auth : UpstreamAuth) :
    Nat → String → Option (List Subscription × Except ProxyError Unit)
  | 0, _ => none
  | fuel + 1, after =>
    let jobs := db.listOwned (auth.fingerprint crates) provider after 100
    match jobs.getLast? with
    | none => some ([], .ok ())
    | some last =>
      match resumePage crates db provider auth jobs with
      | (subscribed, .error error) => some (subscribed, .error error)
      | (subscribed, .ok ()) =>
        (resumeLoop crates db provider auth fuel last.id).map fun (rest, result) => (subscribed ++ rest, result)

/-- `resume_from_env`. -/
def resumeFromEnv (crates : Crates) (db : Database) (provider : String) (env : String → Option String)
    (fuel : Nat) : Option (List Subscription × Except ProxyError Unit) :=
  match authFromEnv env with
  | .error error => some ([], .error error)
  | .ok auth => resumeLoop crates db provider auth fuel ""

/-- The request of a job that this credential registered with this provider. -/
structure Owns (db : Database) (authHash provider : String) (row : JobRow) (request : RequestRow) : Prop where
  stored : row ∈ db.jobs
  registered : request ∈ db.jobRequests
  job : row.id = request.jobId
  owner : request.authHash = authHash
  deployment : request.provider = provider

def summaryOf (row : JobRow) : JobSummary :=
  { id := row.id, model := row.model, status := row.status.text, terminal := row.outcomeJson.isSome }

/-- All rows of a credential, by id. -/
def ownedRows (db : Database) (authHash provider : String) : List JobRow :=
  ((db.joined.filter fun (_, request) => request.authHash = authHash && request.provider = provider).map
    Prod.fst).mergeSort (fun a b => a.id ≤ b.id)

variable {crates : Crates} {db : Database} {authHash provider : String}

theorem mem_ownedRows {row : JobRow} :
    row ∈ ownedRows db authHash provider ↔ ∃ request, Owns db authHash provider row request := by
  unfold ownedRows
  rw [List.mem_mergeSort, List.mem_map]
  constructor
  · rintro ⟨⟨found, request⟩, hmem, rfl⟩
    obtain ⟨hjoined, howner⟩ := List.mem_filter.mp hmem
    obtain ⟨hrow, hrequest, hid⟩ := Database.mem_joined.mp hjoined
    obtain ⟨hauth, hprovider⟩ : request.authHash = authHash ∧ request.provider = provider := by simpa using howner
    exact ⟨request, hrow, hrequest, hid, hauth, hprovider⟩
  · rintro ⟨request, hrow, hrequest, hid, hauth, hprovider⟩
    exact ⟨(row, request), List.mem_filter.mpr ⟨Database.mem_joined.mpr ⟨hrow, hrequest, hid⟩,
      by simp [hauth, hprovider]⟩, rfl⟩

/-- A request joins at most one row. -/
private theorem row_ids_sublist (hu : db.UniqueIds) (jobId : String) :
    ((db.jobs.filter (fun row => row.id = jobId)).map JobRow.id).Sublist [jobId] := by
  have hnodup : ((db.jobs.filter (fun row => row.id = jobId)).map JobRow.id).Nodup :=
    hu.sublist (List.filter_sublist.map _)
  have hall : ∀ id ∈ (db.jobs.filter (fun row => row.id = jobId)).map JobRow.id, id = jobId := by
    intro id hid
    obtain ⟨row, hrow, rfl⟩ := List.mem_map.mp hid
    exact of_decide_eq_true (List.mem_filter.mp hrow).2
  generalize (db.jobs.filter (fun row => row.id = jobId)).map JobRow.id = ids at hnodup hall
  match ids with
  | [] => exact List.nil_sublist _
  | [id] => rw [hall id List.mem_cons_self]
  | first :: second :: rest =>
    have hsame : first = second := (hall first (by simp)).trans (hall second (by simp)).symm
    exact absurd (hsame ▸ List.mem_cons_self) (List.nodup_cons.mp hnodup).1

private theorem joined_ids_sublist (hu : db.UniqueIds) :
    (db.joined.map (fun entry => entry.1.id)).Sublist (db.jobRequests.map RequestRow.jobId) := by
  unfold Database.joined
  generalize db.jobRequests = requests
  induction requests with
  | nil => exact List.nil_sublist _
  | cons request rest ih =>
    rw [List.flatMap_cons, List.map_append, List.map_cons, List.map_map]
    exact (row_ids_sublist hu request.jobId).append ih

private theorem pairwise_sorted (rows : List JobRow) :
    (rows.mergeSort (fun a b => a.id ≤ b.id)).Pairwise (fun a b => a.id ≤ b.id) := by
  have htrans : ∀ a b c : JobRow, decide (a.id ≤ b.id) = true → decide (b.id ≤ c.id) = true →
      decide (a.id ≤ c.id) = true := fun a b c hab hbc =>
    decide_eq_true ((of_decide_eq_true hab).trans (of_decide_eq_true hbc))
  have htotal : ∀ a b : JobRow, (decide (a.id ≤ b.id) || decide (b.id ≤ a.id)) = true := fun a b => by
    simpa using le_total a.id b.id
  exact (List.pairwise_mergeSort htrans htotal rows).imp of_decide_eq_true

/-- No job is listed twice. -/
theorem ownedRows_ascending (hw : db.WellFormed) :
    (ownedRows db authHash provider).Pairwise (fun a b => a.id < b.id) := by
  have hnodup : ((ownedRows db authHash provider).map JobRow.id).Nodup := by
    have hperm := (List.mergeSort_perm ((db.joined.filter fun (_, request) =>
      request.authHash = authHash && request.provider = provider).map Prod.fst) (fun a b => a.id ≤ b.id)).map JobRow.id
    refine hperm.nodup_iff.mpr ?_
    rw [List.map_map]
    exact hw.uniqueRequests.sublist ((List.filter_sublist.map _).trans (joined_ids_sublist hw.uniqueIds))
  exact ((pairwise_sorted _).and (List.pairwise_map.mp hnodup)).imp fun ⟨hle, hne⟩ => lt_of_le_of_ne hle hne

/-- Sorting what lies behind the cursor is looking behind the cursor in the sorted rows. -/
private theorem sort_behind (hw : db.WellFormed) (after : String) :
    ((db.joined.filter fun (row, request) => request.authHash = authHash && request.provider = provider &&
      after < row.id).map Prod.fst).mergeSort (fun a b => a.id ≤ b.id) =
      behind JobRow.id (ownedRows db authHash provider) after := by
  have hfilter : (db.joined.filter fun (row, request) => request.authHash = authHash && request.provider = provider &&
      after < row.id).map Prod.fst = ((db.joined.filter fun (_, request) => request.authHash = authHash &&
        request.provider = provider).map Prod.fst).filter (fun row => after < row.id) := by
    rw [List.filter_map, List.filter_filter]
    congr 1
    apply List.filter_congr
    intro entry _
    exact Bool.and_comm _ _
  have hperm : (behind JobRow.id (ownedRows db authHash provider) after).Perm
      ((db.joined.filter fun (row, request) => request.authHash = authHash && request.provider = provider &&
        after < row.id).map Prod.fst) := by
    rw [hfilter]
    exact (List.mergeSort_perm _ _).filter _
  refine List.Perm.eq_of_pairwise ?_ (pairwise_sorted _)
    (((ownedRows_ascending hw).imp le_of_lt).sublist List.filter_sublist) ((List.mergeSort_perm _ _).trans hperm.symm)
  intro a b ha hb hab hba
  obtain ⟨_, howns⟩ := mem_ownedRows.mp (List.mem_filter.mp (hperm.mem_iff.mpr (List.mem_mergeSort.mp ha))).1
  obtain ⟨_, howns'⟩ := mem_ownedRows.mp (List.mem_filter.mp hb).1
  exact hw.uniqueIds.eq_of_id howns.stored howns'.stored (le_antisymm hab hba)

/-- A page of the query is a page of these rows. -/
theorem listOwned_eq (hw : db.WellFormed) (after : String) : db.listOwned authHash provider after 100 =
    (page JobRow.id 100 (ownedRows db authHash provider) after).map summaryOf := by
  unfold Database.listOwned
  rw [sort_behind hw]
  rfl

theorem page_last (hw : db.WellFormed) (after : String) :
    ((db.listOwned authHash provider after 100).getLast?).map JobSummary.id =
      ((page JobRow.id 100 (ownedRows db authHash provider) after).getLast?).map JobRow.id := by
  rw [listOwned_eq hw, List.getLast?_map, Option.map_map]
  rfl

theorem jobsView_data (jobs : List JobSummary) : (jobsView jobs).items "data" = some (jobs.map summaryView) := rfl

theorem jobsView_next (jobs : List JobSummary) : (jobsView jobs).text "next_after" =
    if jobs.length = 100 then jobs.getLast?.map JobSummary.id else none := by
  unfold jobsView
  dsimp only
  generalize (if jobs.length = 100 then jobs.getLast?.map JobSummary.id else none) = next
  cases next <;> rfl

private theorem list_pages (hw : db.WellFormed) {headers : HeaderMap} {auth : UpstreamAuth}
    (hauth : UpstreamAuth.fromHeaders headers = .ok auth) :
    Pages JobRow.id (fun row => summaryView (summaryOf row)) 100 (ownedRows db (auth.fingerprint crates) provider)
      (fun after => readPage (listJobs crates db provider headers after)) := by
  have hread : ∀ after, readPage (listJobs crates db provider headers after) =
      ((db.listOwned (auth.fingerprint crates) provider after 100).map summaryView,
        if (db.listOwned (auth.fingerprint crates) provider after 100).length = 100 then
          (db.listOwned (auth.fingerprint crates) provider after 100).getLast?.map JobSummary.id else none) := by
    intro after
    unfold listJobs
    rw [hauth]
    change ((jobsView _).items "data" |>.getD [], (jobsView _).text "next_after") = _
    rw [jobsView_data, jobsView_next]
    rfl
  have hlength : ∀ after, (db.listOwned (auth.fingerprint crates) provider after 100).length =
      (page JobRow.id 100 (ownedRows db (auth.fingerprint crates) provider) after).length := by
    intro after
    rw [listOwned_eq hw, List.length_map]
  refine ⟨fun after => ?_, fun after hnone => ?_, fun after cursor hcursor => ?_⟩
  · rw [hread, listOwned_eq hw, List.map_map]
    rfl
  · rw [hread] at hnone
    have hle : (page JobRow.id 100 (ownedRows db (auth.fingerprint crates) provider) after).length ≤ 100 :=
      List.length_take_le _ _
    rw [← hlength] at hle ⊢
    dsimp only at hnone
    split at hnone
    next hfull =>
      rw [List.getLast?_eq_none_iff.mp (Option.map_eq_none_iff.mp hnone)] at hfull
      cases hfull
    next hshort => omega
  · rw [hread] at hcursor
    dsimp only at hcursor
    split at hcursor
    · rw [page_last hw] at hcursor
      exact hcursor
    · cases hcursor

/-- The pages the loop reads: it goes on behind the last job of a page and stops at an empty one. -/
def resumeFetch (crates : Crates) (db : Database) (provider : String) (auth : UpstreamAuth) (after : String) :
    List JobSummary × Option String :=
  let jobs := db.listOwned (auth.fingerprint crates) provider after 100
  (jobs, jobs.getLast?.map JobSummary.id)

private theorem resume_pages (hw : db.WellFormed) (auth : UpstreamAuth) :
    Pages JobRow.id summaryOf 100 (ownedRows db (auth.fingerprint crates) provider)
      (resumeFetch crates db provider auth) := by
  refine ⟨fun after => listOwned_eq hw after, fun after hnone => ?_, fun after cursor hcursor => ?_⟩
  · have hempty := List.getLast?_eq_none_iff.mp (Option.map_eq_none_iff.mp hnone)
    rw [listOwned_eq hw] at hempty
    rw [List.map_eq_nil_iff.mp hempty]
    exact Nat.zero_lt_succ _
  · exact (page_last hw after).symm.trans hcursor

theorem resumePage_append (auth : UpstreamAuth) (jobs more : List JobSummary) :
    resumePage crates db provider auth (jobs ++ more) =
      match resumePage crates db provider auth jobs with
      | (subscribed, .error error) => (subscribed, .error error)
      | (subscribed, .ok ()) => ((subscribed ++ (resumePage crates db provider auth more).1,
          (resumePage crates db provider auth more).2)) := by
  generalize hlater : resumePage crates db provider auth more = later
  induction jobs with
  | nil => exact hlater
  | cons job jobs ih =>
    rw [List.cons_append]
    unfold resumePage
    split
    · exact ih
    · split
      · rfl
      next read body hread =>
        rw [ih]
        dsimp only
        rcases hpage : resumePage crates db provider auth jobs with ⟨subscribed, _ | _⟩
        · rfl
        · rfl

/-- The loop does to the jobs of all pages what it does to the jobs of one. -/
private theorem resumeLoop_of_follow {auth : UpstreamAuth} {fuel : Nat} {after : String} {jobs : List JobSummary}
    (h : follow (resumeFetch crates db provider auth) fuel after = some jobs) :
    resumeLoop crates db provider auth fuel after = some (resumePage crates db provider auth jobs) := by
  induction fuel generalizing after jobs with
  | zero => cases h
  | succ fuel ih =>
    unfold follow resumeFetch at h
    unfold resumeLoop
    dsimp only at h ⊢
    cases hlast : (db.listOwned (auth.fingerprint crates) provider after 100).getLast? with
    | none =>
      rw [hlast] at h
      obtain rfl := Option.some.inj h
      rw [List.getLast?_eq_none_iff.mp hlast]
      rfl
    | some last =>
      rw [hlast] at h
      obtain ⟨rest, hrest, rfl⟩ := Option.map_eq_some_iff.mp h
      dsimp only
      rw [resumePage_append, ih hrest]
      rcases resumePage crates db provider auth (db.listOwned (auth.fingerprint crates) provider after 100) with
        ⟨subscribed, _ | _⟩
      · rfl
      · rfl

private theorem absent_of_reject {row : JobRow} {present : Bool} {column : String} {u : Unit}
    (h : row.reject present column = .ok u) : present = false := by
  cases present with
  | false => rfl
  | true => cases h

private theorem outcome_isSome {c : Codec} {row : JobRow} {wrap : Value → StoredOutcome} {state : JobState}
    (h : row.outcome c wrap = .ok state) : row.outcomeJson.isSome = true := by
  unfold JobRow.outcome at h
  obtain ⟨_, -, h⟩ := bind_ok h
  obtain ⟨_, -, h⟩ := bind_ok h
  obtain ⟨_, -, h⟩ := bind_ok h
  obtain ⟨encoded, hencoded, -⟩ := bind_ok h
  cases houtcome : row.outcomeJson with
  | none =>
    rw [houtcome] at hencoded
    cases hencoded
  | some text => rfl

/-- The state of a decoded job is terminal exactly when its row holds an outcome. -/
theorem isTerminal_of_tryFrom {c : Codec} {row : JobRow} {job : Job} (h : row.tryFrom c = .ok job) :
    job.state.isTerminal = row.outcomeJson.isSome := by
  unfold JobRow.tryFrom at h
  obtain ⟨state, hstate, h⟩ := bind_ok h
  obtain rfl := Except.ok.inj h
  cases hs : row.status <;> simp only [hs] at hstate
  case completed | failed | incomplete | expired | cancelled =>
    obtain ⟨value, rfl⟩ := JobRow.outcome_ok hstate
    exact (outcome_isSome hstate).symm
  case queued =>
    obtain ⟨_, -, hstate⟩ := bind_ok hstate
    obtain ⟨_, -, hstate⟩ := bind_ok hstate
    obtain ⟨_, -, hstate⟩ := bind_ok hstate
    obtain ⟨_, houtcome, hstate⟩ := bind_ok hstate
    obtain rfl := Except.ok.inj hstate
    exact (absent_of_reject houtcome).symm
  case uploaded | submitted =>
    obtain ⟨_, -, hstate⟩ := bind_ok hstate
    obtain ⟨_, -, hstate⟩ := bind_ok hstate
    obtain ⟨_, houtcome, hstate⟩ := bind_ok hstate
    obtain ⟨_, -, hstate⟩ := bind_ok hstate
    obtain rfl := Except.ok.inj hstate
    exact (absent_of_reject houtcome).symm
  case submitting | submissionUncertain =>
    obtain ⟨_, -, hstate⟩ := bind_ok hstate
    obtain ⟨_, houtcome, hstate⟩ := bind_ok hstate
    obtain ⟨_, -, hstate⟩ := bind_ok hstate
    obtain ⟨_, -, hstate⟩ := bind_ok hstate
    obtain rfl := Except.ok.inj hstate
    exact (absent_of_reject houtcome).symm

/-- Every row and every body in the store can be read. -/
structure Decodes (c : Codec) (db : Database) : Prop where
  rows : ∀ row ∈ db.jobs, ∃ job, row.tryFrom c = .ok job
  bodies : ∀ request ∈ db.jobRequests, ∃ body, c.parse request.bodyJson = .ok body

/-- A subscription to an unfinished job of the credential, with the stored request. -/
structure Resumes (crates : Crates) (db : Database) (provider : String) (auth : UpstreamAuth) (row : JobRow)
    (request : RequestRow) (subscription : Subscription) : Prop where
  owns : Owns db (auth.fingerprint crates) provider row request
  job : row.tryFrom crates.json = .ok subscription.job
  unfinished : subscription.job.state.isTerminal = false
  body : crates.json.parse request.bodyJson = .ok subscription.body
  auth : subscription.auth = auth

theorem Owns.request_eq (hw : db.WellFormed) {row : JobRow} {request other : RequestRow}
    (h : Owns db authHash provider row request) (hother : other ∈ db.jobRequests) (hid : other.jobId = row.id) :
    other = request :=
  List.inj_on_of_nodup_map hw.uniqueRequests hother h.registered (hid.trans h.job)

/-- The read behind a subscription. -/
theorem Owns.ownedRequest (hw : db.WellFormed) {c : Codec} {row : JobRow} {request : RequestRow}
    (h : Owns db authHash provider row request) {job : Job} (hjob : row.tryFrom c = .ok job) {body : Value}
    (hbody : c.parse request.bodyJson = .ok body) :
    db.ownedRequest c ⟨row.id⟩ authHash provider = .ok (job, body) := by
  unfold Database.ownedRequest Database.get
  rw [hw.uniqueIds.row?_of_mem h.stored]
  cases hfind : db.jobRequests.find? (fun request => request.jobId = row.id && request.authHash = authHash &&
      request.provider = provider) with
  | none =>
    have hnone := List.find?_eq_none.mp hfind request h.registered
    exact absurd (by simp [h.job, h.owner, h.deployment]) hnone
  | some found =>
    have hfound : (found.jobId = row.id ∧ found.authHash = authHash) ∧ found.provider = provider := by
      simpa using List.find?_some hfind
    obtain rfl := h.request_eq hw (List.mem_of_find?_eq_some hfind) hfound.1.1
    simp only [hjob, hbody]
    rfl

/-- Every unfinished job of a list of owned ones is subscribed, in this order. -/
private theorem resumePage_decodes (hw : db.WellFormed) (hdecodes : Decodes crates.json db) (provider : String)
    (auth : UpstreamAuth) (rows : List JobRow)
    (howned : ∀ row ∈ rows, ∃ request, Owns db (auth.fingerprint crates) provider row request) :
    ∃ subscribed, resumePage crates db provider auth (rows.map summaryOf) = (subscribed, .ok ()) ∧
      List.Forall₂ (fun row subscription => ∃ request, Resumes crates db provider auth row request subscription)
        (rows.filter (fun row => row.outcomeJson.isNone)) subscribed := by
  induction rows with
  | nil => exact ⟨[], rfl, .nil⟩
  | cons row rows ih =>
    obtain ⟨request, howns⟩ := howned row List.mem_cons_self
    obtain ⟨subscribed, hrest, hforall⟩ := ih fun other hother => howned other (List.mem_cons_of_mem _ hother)
    obtain ⟨job, hjob⟩ := hdecodes.rows row howns.stored
    obtain ⟨body, hbody⟩ := hdecodes.bodies request howns.registered
    rw [List.map_cons]
    unfold resumePage
    cases houtcome : row.outcomeJson with
    | some outcome =>
      rw [if_pos (by simp [summaryOf, houtcome]), List.filter_cons_of_neg (by simp [houtcome])]
      exact ⟨subscribed, hrest, hforall⟩
    | none =>
      have hread := howns.ownedRequest hw hjob hbody
      rw [if_neg (by simp [summaryOf, houtcome]), List.filter_cons_of_pos (by simp [houtcome])]
      refine ⟨⟨job, auth, body⟩ :: subscribed, ?_, .cons ⟨request, howns, hjob, ?_, hbody, rfl⟩ hforall⟩
      · change (match db.ownedRequest crates.json ⟨row.id⟩ (auth.fingerprint crates) provider with
          | .error error => _
          | .ok (job, body) => _) = _
        rw [hread]
        dsimp only
        rw [hrest]
      · rw [isTerminal_of_tryFrom hjob, houtcome]
        rfl

private theorem resumes_ids {auth : UpstreamAuth} {rows : List JobRow} {subscribed : List Subscription}
    (h : List.Forall₂ (fun row subscription => ∃ request, Resumes crates db provider auth row request subscription)
      rows subscribed) : subscribed.map (fun subscription => subscription.job.id.text) = rows.map JobRow.id := by
  induction h with
  | nil => rfl
  | cons hfirst _ ih =>
    obtain ⟨request, hresumes⟩ := hfirst
    rw [List.map_cons, List.map_cons, ih, (JobRow.tryFrom_ok hresumes.job).1]

/-- A row is resumed in one way. -/
private theorem Resumes.unique (hw : db.WellFormed) {auth : UpstreamAuth} {row : JobRow} {request other : RequestRow}
    {a b : Subscription} (ha : Resumes crates db provider auth row request a)
    (hb : Resumes crates db provider auth row other b) : a = b := by
  obtain rfl := ha.owns.request_eq hw hb.owns.registered hb.owns.job.symm
  have hjob := Except.ok.inj (ha.job.symm.trans hb.job)
  have hbody := Except.ok.inj (ha.body.symm.trans hb.body)
  obtain ⟨job, auth', body⟩ := a
  obtain ⟨job', auth'', body'⟩ := b
  rw [show job = job' from hjob, show body = body' from hbody, show auth' = auth from ha.auth,
    show auth'' = auth from hb.auth]

private theorem mem_of_forall₂ {α β : Type} {R : α → β → Prop} {as : List α} {bs : List β}
    (h : List.Forall₂ R as bs) : (∀ b ∈ bs, ∃ a ∈ as, R a b) ∧ ∀ a ∈ as, ∃ b ∈ bs, R a b := by
  induction h with
  | nil => exact ⟨fun _ h => (nomatch h), fun _ h => (nomatch h)⟩
  | @cons a b as bs hfirst _ ih =>
    constructor
    · intro other hother
      rcases List.mem_cons.mp hother with rfl | hother
      · exact ⟨a, List.mem_cons_self, hfirst⟩
      · obtain ⟨found, hfound, hrel⟩ := ih.1 other hother
        exact ⟨found, List.mem_cons_of_mem _ hfound, hrel⟩
    · intro other hother
      rcases List.mem_cons.mp hother with rfl | hother
      · exact ⟨b, List.mem_cons_self, hfirst⟩
      · obtain ⟨found, hfound, hrel⟩ := ih.2 other hother
        exact ⟨found, List.mem_cons_of_mem _ hfound, hrel⟩

/-- Exactly the unfinished jobs of the credential are resumed, by ascending id. -/
private theorem resumePage_owned (hw : db.WellFormed) (hdecodes : Decodes crates.json db) (auth : UpstreamAuth) :
    ∃ subscribed, resumePage crates db provider auth ((ownedRows db (auth.fingerprint crates) provider).map summaryOf) =
        (subscribed, .ok ()) ∧
      (subscribed.map (fun subscription => subscription.job.id.text)).Pairwise (fun a b => a < b) ∧
      ∀ subscription, subscription ∈ subscribed ↔
        ∃ row request, Resumes crates db provider auth row request subscription := by
  obtain ⟨subscribed, hpage, hforall⟩ := resumePage_decodes hw hdecodes provider auth
    (ownedRows db (auth.fingerprint crates) provider) fun row hrow => mem_ownedRows.mp hrow
  obtain ⟨hright, hleft⟩ := mem_of_forall₂ hforall
  refine ⟨subscribed, hpage, ?_, fun subscription => ⟨fun hmem => ?_, ?_⟩⟩
  · rw [resumes_ids hforall]
    exact List.pairwise_map.mpr ((ownedRows_ascending hw).sublist List.filter_sublist)
  · obtain ⟨row, -, request, hresumes⟩ := hright subscription hmem
    exact ⟨row, request, hresumes⟩
  · rintro ⟨row, request, hresumes⟩
    have houtcome : row.outcomeJson.isNone = true := by
      have hstate := isTerminal_of_tryFrom hresumes.job
      rw [hresumes.unfinished] at hstate
      simpa using hstate.symm
    obtain ⟨found, hfound, other, hother⟩ := hleft row
      (List.mem_filter.mpr ⟨mem_ownedRows.mpr ⟨request, hresumes.owns⟩, houtcome⟩)
    rwa [hresumes.unique hw hother]

private theorem empty_lt {id : String} (h : id ≠ "") : "" < id := by
  rw [String.lt_iff_toList_lt]
  cases hchars : id.toList with
  | nil => exact absurd (String.toList_eq_nil_iff.mp hchars) h
  | cons first rest => exact List.nil_lt_cons first rest

/-- Paging visits every job of a credential once. For every store, whoever follows `next_after` from the
empty cursor sees the jobs that the credential registered with the provider, each once and by ascending
id, and then the list ends; a restart with the credential in its environment takes up these very jobs and
ends; and where every row and body decodes it subscribes the unfinished ones and no others. -/
theorem paging_visits_owned_jobs (hw : db.WellFormed) (hids : ∀ row ∈ db.jobs, row.id ≠ "") (provider : String)
    (auth : UpstreamAuth) : ∃ jobs : List JobSummary,
    (jobs.map JobSummary.id).Pairwise (fun a b => a < b) ∧
    (∀ job, job ∈ jobs ↔ ∃ row request, Owns db (auth.fingerprint crates) provider row request ∧ job = summaryOf row) ∧
    (∀ headers fuel, UpstreamAuth.fromHeaders headers = .ok auth → jobs.length < fuel →
      follow (fun after => readPage (listJobs crates db provider headers after)) fuel "" =
        some (jobs.map summaryView)) ∧
    (∀ env fuel, authFromEnv env = .ok auth → jobs.length < fuel →
      resumeFromEnv crates db provider env fuel = some (resumePage crates db provider auth jobs)) ∧
    (Decodes crates.json db → ∃ subscribed, resumePage crates db provider auth jobs = (subscribed, .ok ()) ∧
      (subscribed.map (fun subscription => subscription.job.id.text)).Pairwise (fun a b => a < b) ∧
      ∀ subscription, subscription ∈ subscribed ↔
        ∃ row request, Resumes crates db provider auth row request subscription) := by
  have hsorted : (ownedRows db (auth.fingerprint crates) provider).Pairwise (fun a b => a.id < b.id) :=
    ownedRows_ascending hw
  -- The empty cursor leaves nothing out.
  have hall : behind JobRow.id (ownedRows db (auth.fingerprint crates) provider) "" =
      ownedRows db (auth.fingerprint crates) provider := by
    apply List.filter_eq_self.mpr
    intro row hrow
    obtain ⟨request, howns⟩ := mem_ownedRows.mp hrow
    exact decide_eq_true (empty_lt (hids row howns.stored))
  refine ⟨(ownedRows db (auth.fingerprint crates) provider).map summaryOf, ?_, fun job => ?_, ?_, ?_, ?_⟩
  · rw [List.map_map]
    exact List.pairwise_map.mpr hsorted
  · rw [List.mem_map]
    constructor
    · rintro ⟨row, hrow, rfl⟩
      obtain ⟨request, howns⟩ := mem_ownedRows.mp hrow
      exact ⟨row, request, howns, rfl⟩
    · rintro ⟨row, request, howns, rfl⟩
      exact ⟨row, mem_ownedRows.mpr ⟨request, howns⟩, rfl⟩
  · intro headers fuel hauth hfuel
    rw [(list_pages hw hauth).follow_eq hsorted (by rwa [hall, ← List.length_map (f := summaryOf)]), hall,
      List.map_map]
    rfl
  · intro env fuel hauth hfuel
    unfold resumeFromEnv
    rw [hauth]
    exact resumeLoop_of_follow (((resume_pages hw auth).follow_eq hsorted
      (by rwa [hall, ← List.length_map (f := summaryOf)])).trans (by rw [hall]))
  · intro hdecodes
    exact resumePage_owned hw hdecodes auth

section Witness

private def listedId (n : Nat) : String := .ofList (List.replicate (n + 1) 'a')

/-- The jobs of the two owners alternate. -/
private noncomputable def listedOwner (n : Nat) : String :=
  if n % 2 = 0 then alice.fingerprint sampleCrates else bob.fingerprint sampleCrates

private noncomputable def listedRow (n : Nat) : JobRow := .queued (listedId n) (listedOwner n) (listedId n) "gpt-5"

private noncomputable def listedRequest (n : Nat) : RequestRow where
  jobId := listedId n
  provider := "https://api.openai.com/v1"
  authHash := listedOwner n
  idempotencyHash := none
  bodyJson := Json.compact.print (.object [])

private noncomputable def listed : Database where
  jobs := (List.range 202).map listedRow
  jobRequests := (List.range 202).map listedRequest

private theorem listedId_injective : Function.Injective listedId := by
  intro m n h
  have hlength := congrArg List.length (String.ofList_injective h)
  simpa using hlength

private theorem listed_nodup {α : Type} {f : Nat → α} (hf : Function.Injective f) : ((List.range 202).map f).Nodup :=
  List.nodup_range.map hf

private theorem listed_wellFormed : listed.WellFormed where
  uniqueIds := by
    unfold Database.UniqueIds listed
    rw [List.map_map]
    exact listed_nodup listedId_injective
  uniqueIdentities := by
    unfold listed
    rw [List.map_map]
    exact listed_nodup fun m n h => listedId_injective (congrArg Prod.snd h)
  uniqueRequests := by
    unfold listed
    rw [List.map_map]
    exact listed_nodup listedId_injective
  uniqueKeys a ha _ _ _ hkey _ := by
    obtain ⟨n, -, rfl⟩ := List.mem_map.mp ha
    cases hkey
  references row hrow := by
    obtain ⟨n, hn, rfl⟩ := List.mem_map.mp hrow
    exact List.mem_map_of_mem (List.mem_map_of_mem hn)

private theorem listed_decodes : Decodes sampleCrates.json listed where
  rows row hrow := by
    obtain ⟨n, -, rfl⟩ := List.mem_map.mp hrow
    exact ⟨_, rfl⟩
  bodies request hrequest := by
    obtain ⟨n, -, rfl⟩ := List.mem_map.mp hrequest
    exact ⟨_, (Json.compact_roundTrips (.object [])).1⟩

private theorem listed_owns {n : Nat} (hn : n < 101) : Owns listed (alice.fingerprint sampleCrates)
    "https://api.openai.com/v1" (listedRow (2 * n)) (listedRequest (2 * n)) where
  stored := List.mem_map_of_mem (List.mem_range.mpr (by omega))
  registered := List.mem_map_of_mem (List.mem_range.mpr (by omega))
  job := rfl
  owner := if_pos (by omega)
  deployment := rfl

/-- The jobs of the other owner stay out. -/
private theorem owns_listed {row : JobRow} {request : RequestRow} (h : Owns listed (alice.fingerprint sampleCrates)
    "https://api.openai.com/v1" row request) : ∃ n < 101, row = listedRow (2 * n) := by
  obtain ⟨n, hn, rfl⟩ := List.mem_map.mp h.stored
  obtain ⟨m, hm, rfl⟩ := List.mem_map.mp h.registered
  obtain rfl := listedId_injective h.job
  have hn := List.mem_range.mp hn
  have hmine : n % 2 = 0 := by
    by_contra hodd
    have howner : bob.fingerprint sampleCrates = alice.fingerprint sampleCrates := (if_neg hodd).symm.trans h.owner
    exact absurd (Tenant.fingerprint_injective sampleCrates_collisionFree howner) (by decide)
  exact ⟨n / 2, by omega, by rw [Nat.mul_div_cancel' (Nat.dvd_of_mod_eq_zero hmine)]⟩

private def aliceEnv (name : String) : Option String := if name = "OPENAI_API_KEY" then some "a" else none

/-- A store with 101 jobs of each of two owners: one owner's are listed, in more than a page, and resumed. -/
theorem paging_visits_many_jobs : ∃ (jobs : List JobSummary) (subscribed : List Subscription),
    (∀ job, job ∈ jobs ↔ ∃ n < 101, job = summaryOf (listedRow (2 * n))) ∧
    follow (fun after => readPage (listJobs sampleCrates listed "https://api.openai.com/v1"
      [("authorization", ⟨utf8 "Bearer a"⟩)] after)) (jobs.length + 1) "" = some (jobs.map summaryView) ∧
    resumeFromEnv sampleCrates listed "https://api.openai.com/v1" aliceEnv (jobs.length + 1) = some (subscribed, .ok ()) ∧
    (subscribed.map (fun subscription => subscription.job.id.text)).Pairwise (fun a b => a < b) ∧
    ∀ n < 101, ∃ subscription ∈ subscribed, subscription.job.id = ⟨listedId (2 * n)⟩ := by
  have hids : ∀ row ∈ listed.jobs, row.id ≠ "" := by
    intro row hrow
    obtain ⟨n, -, rfl⟩ := List.mem_map.mp hrow
    exact fun h => nomatch String.ofList_injective h
  obtain ⟨jobs, -, hmem, hlist, hresume, hsubscribes⟩ := @paging_visits_owned_jobs sampleCrates _ listed_wellFormed hids
    "https://api.openai.com/v1" alice.toUpstreamAuth
  obtain ⟨subscribed, hpage, hascending, hsubscribed⟩ := hsubscribes listed_decodes
  refine ⟨jobs, subscribed, fun job => ?_, hlist _ _ (by decide) (Nat.lt_succ_self _),
    (hresume aliceEnv _ (by decide) (Nat.lt_succ_self _)).trans (congrArg some hpage), hascending, fun n hn => ?_⟩
  · rw [hmem]
    constructor
    · rintro ⟨row, request, howns, rfl⟩
      obtain ⟨n, hn, rfl⟩ := owns_listed howns
      exact ⟨n, hn, rfl⟩
    · rintro ⟨n, hn, rfl⟩
      exact ⟨_, _, listed_owns hn, rfl⟩
  · refine ⟨⟨⟨⟨listedId (2 * n)⟩, "gpt-5", .queued⟩, alice.toUpstreamAuth, .object []⟩, ?_, rfl⟩
    exact (hsubscribed _).mpr ⟨_, _, listed_owns hn, rfl, rfl, (Json.compact_roundTrips (.object [])).1, rfl⟩

end Witness
end Kaiion.Proxy

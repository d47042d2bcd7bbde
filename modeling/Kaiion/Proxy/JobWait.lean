import Kaiion.Proxy.JobAnswers
import Mathlib.Data.List.DropRight

/-! The `jobs` commands of a client, against a proxy in which everything else goes on. -/
namespace Kaiion.Proxy
open Durable Foundation
variable {α β : Type}

inductive JobAction where
  | list (after : Option String)
  | submit (request idempotencyKey : String)
  | «show» (id : String)
  | resume (id : String)
  | wait (id : String)
  | route (request : String)

inductive Method where
  | get
  | post

/-- A request under `/v1/kaiion/`, its path by segments. -/
structure JobRequest where
  method : Method
  path : List String
  after : Option String := none
  body : Option Value := none
  idempotencyKey : Option String := none
  mode : Option String := none

inductive CliOp where
  | readRequest (path : String)
  | send (request : JobRequest)
  | sleep (seconds : Nat)
  | print (value : Value)

abbrev CliOp.Reply : CliOp → Type
  | readRequest _ => Except String Value
  | send _ => Except String (StatusCode × String)
  | sleep _ | print _ => Unit

abbrev JobClient := Prog.Fallible CliOp.Reply String

namespace JobCli

def perform (op : CliOp) : Prog CliOp.Reply op.Reply := Prog.perform op

def given (result : Except String α) : JobClient α := ExceptT.mk (return result)

def isAsciiHexdigit (char : Char) : Bool :=
  char.isDigit || ('a' ≤ char && char ≤ 'f') || ('A' ≤ char && char ≤ 'F')

def jobPath (id : String) : Except String (List String) :=
  if id.toList.isEmpty || !id.toList.all isAsciiHexdigit then .error "job ID must be hexadecimal"
  else .ok ["jobs", id]

def readRequest (path : String) : JobClient Value := ExceptT.mk (perform (.readRequest path))

/-- The request of an action, and whether the command waits for the job. -/
def request : JobAction → JobClient (JobRequest × Bool)
  | .list none => return ({ method := .get, path := ["jobs"] }, false)
  | .list (some after) => do
    let _ ← given (jobPath after)
    return ({ method := .get, path := ["jobs"], after := some after }, false)
  | .submit path key => do
    let body ← readRequest path
    return ({ method := .post, path := ["jobs"], body := some body, idempotencyKey := some key }, false)
  | .route path => do
    let body ← readRequest path
    return ({ method := .post, path := ["route"], body := some body, idempotencyKey := some "route-preview",
              mode := some "auto" }, false)
  | .show id => do
    let path ← given (jobPath id)
    return ({ method := .get, path := path }, false)
  | .resume id => do
    let path ← given (jobPath id)
    return ({ method := .post, path := path ++ ["resume"] }, false)
  | .wait id => do
    let path ← given (jobPath id)
    return ({ method := .post, path := path ++ ["resume"] }, true)

section Run
variable (c : Codec)

def decode (response : StatusCode × String) : Except String Value :=
  if !response.1.isSuccess then .error ("proxy returned " ++ response.1.text ++ ": " ++ response.2)
  else c.parse response.2

def send (request : JobRequest) : JobClient Value := do
  let response : StatusCode × String ← ExceptT.mk (perform (.send request))
  given (decode c response)

/-- The loop of `run`; `none` when the job has not ended after so many polls. -/
def poll (path : List String) : Nat → Value → JobClient (Option Value)
  | 0, result => return if result.get "terminal" = some (.bool false) then none else some result
  | polls + 1, result =>
    if result.get "terminal" = some (.bool false) then do
      let _ ← ExceptT.lift (perform (.sleep 5))
      let result ← send c { method := .get, path := path.rdropWhile (· = "resume") }
      poll path polls result
    else return some result

/-- `run` from where its client is built. -/
def run (action : JobAction) (polls : Nat) : JobClient (Option Unit) := do
  let (request, wait) ← request action
  let first ← send c request
  let last ← if wait then poll c request.path polls first else pure (some first)
  match last with
  | none => return none
  | some result => do
    let _ ← ExceptT.lift (perform (.print result))
    given (if wait && (result.get "status").bind Value.asStr ≠ some "completed" then
      .error "job reached a non-successful terminal state" else .ok (some ()))

end Run

end JobCli

/-- The call of the job API that a request is. -/
def JobRequest.call (pollIntervalSeconds : Nat) (request : JobRequest) : Option JobCall :=
  match request.method, request.path with
  | .get, ["jobs", id] => some (.getJob ⟨id⟩)
  | .post, ["jobs", id, "resume"] => some (.resume ⟨id⟩)
  | .post, ["jobs"] => request.body.map (.submit pollIntervalSeconds)
  | _, _ => none

def JobApi.answer : Except ProxyError Response → Response
  | .ok response => response
  | .error error => errorResponse error

/-- A client, what it has printed, and the process of the proxy it calls. -/
structure Console where
  registry : Registry
  printed : List Value

/-- What goes on between two steps of the client; the proxy's process may be replaced. -/
structure Console.Goes (c : Codec) (a b : Console) : Prop where
  life : Registry.Life c a.registry b.registry
  printed : b.printed = a.printed

theorem Console.Goes.refl {c : Codec} (a : Console) : Console.Goes c a a := ⟨.refl, rfl⟩

theorem Console.Goes.trans {c : Codec} {a b d : Console} (h : Console.Goes c a b) (h' : Console.Goes c b d) :
    Console.Goes c a d := ⟨Relation.ReflTransGen.trans h.life h'.life, h'.printed.trans h.printed⟩

/-- What a call is answered, if it is, is what its handler returned. Whatever else is sent may be answered
in any way. -/
def CliOp.Answers (app : AppState) (received : JobRequest → HeaderMap) (pollIntervalSeconds : Nat) :
    (op : CliOp) → Console → op.Reply → Console → Prop
  | .readRequest _, a, _, b | .sleep _, a, _, b => b = a
  | .send request, a, reply, b => Console.Goes app.router.crates.json a b ∧
      ∀ call status text, request.call pollIntervalSeconds = some call → reply = .ok (status, text) →
        ∃ result s t value, Registry.Life app.router.crates.json a.registry s ∧
          Registry.Life app.router.crates.json t b.registry ∧
          Prog.Executes (Registry.Run app.router.crates.json) (JobOp.Answers app.router.crates.json)
            (call.run app (received request)).run s result t ∧
          (JobApi.answer result).status = status ∧ (JobApi.answer result).body = .json value ∧
          text = app.router.crates.json.print value
  | .print value, a, _, b => b = { a with printed := a.printed ++ [value] }

/-- What is read off a job's view. -/
theorem jobView_terminal (job : Job) : (jobView job).get "terminal" = some (.bool job.state.isTerminal) := by
  unfold jobView
  cases job.state <;> rfl

theorem jobView_completed (job : Job) :
    ((jobView job).get "status").bind Value.asStr = some "completed" ↔
      ∃ value, job.state = .terminal (.completed value) := by
  unfold jobView
  cases hstate : job.state with
  | terminal outcome => cases outcome <;> simp [Value.get, Value.asStr, outcomeStatus]
  | _ => simp [Value.get, Value.asStr]

/-- The value is how the table once held the job, as it was read, and no older than this table. -/
def Shows (c : Codec) (db : Database) (id : JobId) (value : Value) (r : Registry) : Prop :=
  ∃ job : Job, job.id = id ∧ c.parse (c.print (jobView job)) = .ok value ∧ job.Since c db ∧
    job.Past c r.fleet.world.db

/-- What goes on holding in this process and in those that come after it. -/
def Enduring (c : Codec) (P : Registry → Prop) : Prop := ∀ a b, a.Intact c → Registry.Life c a b → P a → P b

theorem Shows.enduring (c : Codec) (db : Database) (id : JobId) (value : Value) : Enduring c (Shows c db id value) := by
  rintro a b ha hlife ⟨job, hid, hvalue, hsince, hpast⟩
  exact ⟨job, hid, hvalue, hsince, hpast.forward (Registry.Life.sound hlife ha.sound).2⟩

/-- Nothing is printed, and the value, if there is one, is right. -/
structure Learns (c : Codec) (s : Console) (Q : α → Registry → Prop) (result : Except String α) (t : Console) :
    Prop where
  goes : Console.Goes c s t
  right : ∀ value, result = .ok value → Q value t.registry

theorem Learns.later {c : Codec} {s : Console} {Q : α → Registry → Prop} (hQ : ∀ value, Enduring c (Q value))
    (hs : s.registry.Intact c) (result : Except String α) (a b : Console) (h : Learns c s Q result a)
    (hgoes : Console.Goes c a b) : Learns c s Q result b where
  goes := h.goes.trans hgoes
  right value hvalue := hQ value _ _ (h.goes.life.intact hs) hgoes.life (h.right value hvalue)

section Client
variable {app : AppState} {received : JobRequest → HeaderMap} {interval : Nat} {s : Console}

/-- The client among everything else. -/
abbrev Proceeds (app : AppState) (received : JobRequest → HeaderMap) (interval : Nat) (p : Prog CliOp.Reply α)
    (post : α → Console → Prop) (s : Console) : Prop :=
  Prog.Safe (Console.Goes app.router.crates.json) (fun _ _ => True) (CliOp.Answers app received interval) p post s

/-- A part of the client that prints nothing. -/
abbrev Asks (app : AppState) (received : JobRequest → HeaderMap) (interval : Nat) (p : JobClient α)
    (Q : α → Registry → Prop) (s : Console) : Prop :=
  Proceeds app received interval p.run (Learns app.router.crates.json s Q) s

namespace Asks

theorem given {Q : α → Registry → Prop} (hQ : ∀ value, Enduring app.router.crates.json (Q value))
    (h : s.registry.Intact app.router.crates.json) {result : Except String α}
    (hresult : ∀ value, result = .ok value → Q value s.registry) :
    Asks app received interval (JobCli.given result) Q s :=
  fun t ht => Learns.later hQ h result s t ⟨.refl s, hresult⟩ ht

theorem ok {Q : α → Registry → Prop} (hQ : ∀ value, Enduring app.router.crates.json (Q value))
    (h : s.registry.Intact app.router.crates.json) {value : α} (hv : Q value s.registry) :
    Asks app received interval (pure value) Q s :=
  given hQ h fun other ho => by cases ho; exact hv

/-- What comes before the rest of the client. -/
theorem before {Q : α → Registry → Prop} {p : JobClient α} {f : α → JobClient β}
    {post : Except String β → Console → Prop}
    (hpost : ∀ r a b, post r a → Console.Goes app.router.crates.json a b → post r b)
    (hp : Asks app received interval p Q s)
    (herror : ∀ error t, Console.Goes app.router.crates.json s t → post (.error error) t)
    (hf : ∀ value t, Console.Goes app.router.crates.json s t → Q value t.registry →
      Proceeds app received interval (f value).run post t) : Proceeds app received interval (p >>= f).run post s := by
  refine Prog.Safe.andThen Console.Goes.refl hpost (Prog.Safe.mono hp fun result t ht => ?_)
  cases result with
  | ok value => exact hf value t ht.goes (ht.right value rfl)
  | error error => exact herror error t ht.goes

theorem andThen {Q : α → Registry → Prop} {Q' : β → Registry → Prop}
    (hQ' : ∀ value, Enduring app.router.crates.json (Q' value)) (h : s.registry.Intact app.router.crates.json)
    {p : JobClient α} {f : α → JobClient β} (hp : Asks app received interval p Q s)
    (hf : ∀ value t, Console.Goes app.router.crates.json s t → Q value t.registry →
      Asks app received interval (f value) Q' t) : Asks app received interval (p >>= f) Q' s :=
  before (Learns.later hQ' h) hp (fun _ _ ht => ⟨ht, nofun⟩) fun value t ht hvalue =>
    Prog.Safe.mono (hf value t ht hvalue) fun _ _ hu => ⟨ht.trans hu.goes, hu.right⟩

end Asks

/-- Call rule, for an operation that prints nothing. -/
theorem proceeds {op : CliOp} {Q : op.Reply → Console → Prop}
    (hQ : ∀ reply a b, Console.Goes app.router.crates.json s a → Q reply a →
      Console.Goes app.router.crates.json a b → Q reply b)
    (hop : ∀ a reply b, Console.Goes app.router.crates.json s a → CliOp.Answers app received interval op a reply b →
      Console.Goes app.router.crates.json s b ∧ Q reply b) :
    Proceeds app received interval (JobCli.perform op)
      (fun reply t => Console.Goes app.router.crates.json s t ∧ Q reply t) s :=
  Prog.Safe.performed (fun a => Console.Goes app.router.crates.json s a) (.refl s) (fun _ _ => Console.Goes.trans)
    (fun reply a b ha hgoes => ⟨ha.1.trans hgoes, hQ reply a b ha.1 ha.2 hgoes⟩)
    fun a reply b ha hb => ⟨trivial, hop a reply b ha hb⟩

namespace JobCli
variable {db : Database}

/-- A request about a job gets a view of that job, or an error. -/
theorem send_shows {request : JobRequest} {call : JobCall} {id : JobId} (hcall : request.call interval = some call)
    (habout : ∀ headers auth other db, call.Names app headers auth other db → other = id)
    (h : s.registry.Intact app.router.crates.json) (hdb : db.Forward s.registry.fleet.world.db) :
    Asks app received interval (send app.router.crates.json request) (Shows app.router.crates.json db id) s := by
  have hshown := Shows.enduring app.router.crates.json db id
  have hsent : Asks app received interval (ExceptT.mk (perform (.send request))) (fun response r =>
      ∀ value, decode app.router.crates.json response = .ok value →
        Shows app.router.crates.json db id value r) s := by
    refine Prog.Safe.mono (@proceeds app received interval s (.send request)
      (fun (reply : Except String (StatusCode × String)) t => ∀ response, reply = .ok response →
        ∀ value, decode app.router.crates.json response = .ok value →
          Shows app.router.crates.json db id value t.registry) ?_ ?_) fun _ _ ht => ⟨ht.1, ht.2⟩
    · intro reply a b ha hshows hgoes response hreply value hvalue
      exact hshown value _ _ (ha.life.intact h) hgoes.life (hshows response hreply value hvalue)
    rintro a reply b ha ⟨hgoes, hanswers⟩
    refine ⟨ha.trans hgoes, ?_⟩
    rintro ⟨status, text⟩ rfl value hdecode
    obtain ⟨result, u, v, sent, hbefore, hafter, hrun, rfl, hbody, rfl⟩ := hanswers call status text hcall rfl
    have hu := hbefore.intact (ha.life.intact h)
    have hforward : db.Forward u.fleet.world.db := hdb.trans
      (Registry.Life.sound (Relation.ReflTransGen.trans ha.life hbefore) h.sound).2
    obtain ⟨hv, htold⟩ := (JobCall.run_gives hu call).executes hrun
    cases result with
    | error error =>
      have hstatus : (JobApi.answer (.error error)).status.isSuccess = false := error.status_unsuccessful
      unfold decode at hdecode
      rw [hstatus] at hdecode
      cases hdecode
    | ok response =>
      obtain ⟨auth, job, hanswered⟩ := htold response rfl
      have hsent : ResponseBody.json sent = .json (jobView job) := hbody.symm.trans hanswered.body
      cases hsent
      unfold decode at hdecode
      split at hdecode
      · cases hdecode
      · exact hshown _ v b.registry hv hafter ⟨job, habout _ _ _ _ hanswered.names, hdecode,
          hanswered.since.earlier hforward, hanswered.past⟩
  exact Asks.andThen hshown h hsent fun response t ht hshows => Asks.given hshown (ht.life.intact h) hshows

/-- What the client holds once it no longer waits: a view that does not say the job goes on, or nothing after
one that does. -/
def Ends (c : Codec) (db : Database) (id : JobId) : Option Value → Registry → Prop
  | some value, r => Shows c db id value r ∧ value.get "terminal" ≠ some (.bool false)
  | none, r => ∃ value, Shows c db id value r ∧ value.get "terminal" = some (.bool false)

theorem Ends.enduring (c : Codec) (db : Database) (id : JobId) (last : Option Value) :
    Enduring c (Ends c db id last) := by
  intro a b ha hlife h
  cases last with
  | none =>
    obtain ⟨value, hshows, hlive⟩ := h
    exact ⟨value, Shows.enduring c db id value a b ha hlife hshows, hlive⟩
  | some value => exact ⟨Shows.enduring c db id value a b ha hlife h.1, h.2⟩

/-- The path of the polls. -/
theorem poll_path {id : String} (hid : id ≠ "resume") :
    ["jobs", id, "resume"].rdropWhile (· = "resume") = ["jobs", id] := by
  simp [List.rdropWhile, hid]

theorem poll_ends {id : String} (hid : id ≠ "resume") (polls : Nat) : ∀ (s : Console) (value : Value),
    s.registry.Intact app.router.crates.json → db.Forward s.registry.fleet.world.db →
    Shows app.router.crates.json db ⟨id⟩ value s.registry →
    Asks app received interval (poll app.router.crates.json ["jobs", id, "resume"] polls value)
      (Ends app.router.crates.json db ⟨id⟩) s := by
  have hlasting := Ends.enduring app.router.crates.json db ⟨id⟩
  induction polls with
  | zero =>
    intro s value h _ hshows
    refine Asks.ok hlasting h ?_
    split
    · next hlive => exact ⟨value, hshows, hlive⟩
    · next hdone => exact ⟨hshows, hdone⟩
  | succ polls ih =>
    intro s value h hdb hshows
    unfold poll
    split
    · have hslept : Proceeds app received interval (perform (.sleep 5)) (fun _ t =>
          Console.Goes app.router.crates.json s t ∧ True) s :=
        proceeds (fun _ _ _ _ _ _ => trivial) (by rintro a reply b ha rfl; exact ⟨ha, trivial⟩)
      refine Prog.Safe.lifted Console.Goes.refl (fun _ _ _ => Console.Goes.trans)
        (Prog.Safe.mono hslept fun _ t ht => ?_)
      have htforward := hdb.trans (Registry.Life.sound ht.1.life h.sound).2
      have htintact := ht.1.life.intact h
      have hcall : JobRequest.call interval { method := .get, path := ["jobs", id] } = some (.getJob ⟨id⟩) := rfl
      have hsent := @send_shows app received interval t db _ _ _ hcall (fun _ _ _ _ hnames => hnames.1) htintact
        htforward
      have hnext := Asks.andThen hlasting htintact hsent fun later u hu hlater => ih u later (hu.life.intact htintact)
        (htforward.trans (Registry.Life.sound hu.life htintact.sound).2) hlater
      rw [poll_path hid]
      exact Prog.Safe.mono hnext fun _ _ hv => ⟨ht.1.trans hv.goes, hv.right⟩
    · next hdone => exact Asks.ok hlasting h ⟨hshows, hdone⟩

theorem jobPath_ok {id : String} {path : List String} (h : jobPath id = .ok path) :
    path = ["jobs", id] ∧ id ≠ "resume" := by
  unfold jobPath at h
  split at h
  · cases h
  · next hhex =>
    cases h
    refine ⟨rfl, ?_⟩
    rintro rfl
    exact hhex (by decide)

/-- The request with which the command starts to wait. -/
def waitRequest (id : String) : JobRequest := { method := .post, path := ["jobs", id, "resume"] }

theorem request_wait (h : s.registry.Intact app.router.crates.json) (id : String) :
    Asks app received interval (request (.wait id))
      (fun pair _ => pair = (waitRequest id, true) ∧ id ≠ "resume") s := by
  have hfixed : ∀ pair : JobRequest × Bool, Enduring app.router.crates.json fun _ =>
      pair = (waitRequest id, true) ∧ id ≠ "resume" := fun _ _ _ _ _ hp => hp
  have hpath : Asks app received interval (given (jobPath id))
      (fun path _ => path = ["jobs", id] ∧ id ≠ "resume") s :=
    Asks.given (fun _ _ _ _ _ hp => hp) h fun path hpath => jobPath_ok hpath
  refine Asks.andThen hfixed h hpath fun path t ht hp => Asks.ok hfixed (ht.life.intact h) ?_
  obtain ⟨rfl, hid⟩ := hp
  exact ⟨rfl, hid⟩

/-- Where the command stands: it has printed nothing, or the last view it got. -/
inductive Waited (c : Codec) (id : String) (s : Console) (result : Except String (Option Unit)) (t : Console) :
    Prop where
  | failed (goes : Console.Goes c s t) (error : String) (failed : result = .error error)
  | waits (goes : Console.Goes c s t) (value : Value)
      (shown : Shows c s.registry.fleet.world.db ⟨id⟩ value t.registry)
      (live : value.get "terminal" = some (.bool false)) (through : result = .ok none)
  | ended (life : Registry.Life c s.registry t.registry) (value : Value)
      (shown : Shows c s.registry.fleet.world.db ⟨id⟩ value t.registry)
      (done : value.get "terminal" ≠ some (.bool false)) (printed : t.printed = s.printed ++ [value])
      (success : result = .ok (some ()) ↔ (value.get "status").bind Value.asStr = some "completed")

theorem Waited.later {c : Codec} {id : String} (hs : s.registry.Intact c) (result : Except String (Option Unit))
    (a b : Console) (h : Waited c id s result a) (hgoes : Console.Goes c a b) : Waited c id s result b := by
  cases h with
  | failed goes error failed => exact .failed (goes.trans hgoes) error failed
  | waits goes value shown live through =>
    exact .waits (goes.trans hgoes) value (Shows.enduring c _ _ _ _ _ (goes.life.intact hs) hgoes.life shown) live
      through
  | ended life value shown done printed success =>
    exact .ended (Relation.ReflTransGen.trans life hgoes.life) value
      (Shows.enduring c _ _ _ _ _ (life.intact hs) hgoes.life shown) done (hgoes.printed.trans printed) success

/-- Printing the last view. -/
theorem prints {s₀ : Console} (h₀ : s₀.registry.Intact app.router.crates.json)
    (hs : Console.Goes app.router.crates.json s₀ s) {id : String} {value : Value}
    (hshows : Shows app.router.crates.json s₀.registry.fleet.world.db ⟨id⟩ value s.registry)
    (hdone : value.get "terminal" ≠ some (.bool false)) :
    Proceeds app received interval
      (do
        let _ ← ExceptT.lift (perform (.print value))
        given (if (true && (value.get "status").bind Value.asStr ≠ some "completed") = true then
          .error "job reached a non-successful terminal state" else .ok (some ())) : JobClient (Option Unit)).run
      (Waited app.router.crates.json id s₀) s := by
  have hprinted : Proceeds app received interval (perform (.print value)) (fun _ t =>
      Registry.Life app.router.crates.json s.registry t.registry ∧ t.printed = s.printed ++ [value]) s := by
    refine Prog.Safe.performed (fun a => Console.Goes app.router.crates.json s a) (.refl s)
      (fun _ _ => Console.Goes.trans) (fun _ a b ha hgoes => ⟨Relation.ReflTransGen.trans ha.1 hgoes.life,
        hgoes.printed.trans ha.2⟩) ?_
    rintro a reply b ha rfl
    exact ⟨trivial, ha.life, congrArg (· ++ [value]) ha.printed⟩
  refine Prog.Safe.lifted Console.Goes.refl (fun _ _ _ => Console.Goes.trans)
    (Prog.Safe.mono hprinted fun _ t ht u hu => Waited.later h₀ _ t u ?_ hu)
  refine .ended (Relation.ReflTransGen.trans hs.life ht.1) value
    (Shows.enduring _ _ _ _ _ _ (hs.life.intact h₀) ht.1 hshows) hdone (by rw [ht.2, hs.printed]) ?_
  by_cases hcompleted : (value.get "status").bind Value.asStr = some "completed" <;> simp [hcompleted]

theorem run_waits (h : s.registry.Intact app.router.crates.json) (id : String) (polls : Nat) :
    Proceeds app received interval (run app.router.crates.json (.wait id) polls).run
      (Waited app.router.crates.json id s) s := by
  refine Asks.before (Waited.later h) (request_wait h id) (fun error t ht => .failed ht error rfl)
    fun pair t ht hpair => ?_
  obtain ⟨rfl, hid⟩ := hpair
  have hcall : (waitRequest id).call interval = some (.resume ⟨id⟩) := rfl
  have htforward := (Registry.Life.sound ht.life h.sound).2
  have hsent := @send_shows app received interval t _ _ _ _ hcall (fun _ _ _ _ hnames => hnames.1)
    (ht.life.intact h) htforward
  refine Asks.before (Waited.later h) hsent (fun error u hu => .failed (ht.trans hu) error rfl)
    fun first u hu hshows => ?_
  have huintact := (ht.trans hu).life.intact h
  have huforward := (Registry.Life.sound (ht.trans hu).life h.sound).2
  refine Asks.before (Waited.later h) (poll_ends hid polls u first huintact huforward hshows)
    (fun error v hv => .failed ((ht.trans hu).trans hv) error rfl) fun last v hv hends => ?_
  have hgoes := (ht.trans hu).trans hv
  cases last with
  | none =>
    obtain ⟨value, hshows, hlive⟩ := hends
    exact fun w hw => Waited.later h _ v w (.waits hgoes value hshows hlive rfl) hw
  | some value => exact prints h hgoes hends.1 hends.2

end JobCli

/-- `jobs wait` prints nothing until the job has ended, and then how it ended, which is what the store
keeps for good; it succeeds only where the job completed, and never waits for a job that had ended before.
The proxy may be replaced meanwhile; its views of this job read back. -/
theorem waiting_prints_the_outcome {start : Registry} {id : String} {polls : Nat} {result : Except String (Option Unit)}
    {t : Console} (hstart : start.Initial) (hlife : Registry.Life app.router.crates.json start s.registry)
    (waited : Prog.Executes (Console.Goes app.router.crates.json) (CliOp.Answers app received interval)
      (JobCli.run app.router.crates.json (.wait id) polls).run s result t)
    (hviews : ∀ job : Job, job.id = ⟨id⟩ → job.Past app.router.crates.json t.registry.fleet.world.db →
      app.router.crates.json.parse (app.router.crates.json.print (jobView job)) = .ok (jobView job)) :
    (t.printed = s.printed ∧ result ≠ .ok (some ()) ∧ (result = .ok none → ∀ old,
      s.registry.fleet.world.db.get app.router.crates.json ⟨id⟩ = .ok old → old.state.isTerminal = false)) ∨
    ∃ job : Job, job.id = ⟨id⟩ ∧ job.state.isTerminal = true ∧ t.printed = s.printed ++ [jobView job] ∧
      (result = .ok (some ()) ↔ ∃ value, job.state = .terminal (.completed value)) ∧
      ∀ later, Registry.Life app.router.crates.json t.registry later →
        later.fleet.world.db.get app.router.crates.json ⟨id⟩ = .ok job := by
  have hs := hlife.intact hstart.intact
  cases (JobCli.run_waits hs id polls).executes waited with
  | failed goes error failed =>
    subst failed
    exact .inl ⟨goes.printed, nofun, nofun⟩
  | waits goes value shown live through =>
    subst through
    obtain ⟨job, hid, hread, hsince, hpast⟩ := shown
    obtain rfl := Except.ok.inj ((hviews job hid hpast).symm.trans hread)
    refine .inl ⟨goes.printed, nofun, fun _ old hget => ?_⟩
    have hold := hsince old ((Database.get_id hget).trans hid.symm)
    cases hterminal : old.state.isTerminal with
    | false => rfl
    | true =>
      have heq := (hold (Database.get_past hget)).2 hterminal
      rw [jobView_terminal, heq, hterminal] at live
      cases live
  | ended life value shown done printed success =>
    obtain ⟨job, hid, hread, -, hpast⟩ := shown
    obtain rfl := Except.ok.inj ((hviews job hid hpast).symm.trans hread)
    have hterminal : job.state.isTerminal = true := by
      rw [jobView_terminal] at done
      cases hstate : job.state.isTerminal with
      | true => rfl
      | false => exact absurd (by rw [hstate]) done
    refine .inr ⟨job, hid, hterminal, printed, success.trans (jobView_completed job), fun later hlater => ?_⟩
    rw [← hid]
    exact (hpast.forward (Registry.Life.sound hlater (life.intact hs).sound).2).final hterminal

section Witness
open JobApi.Sample

private theorem resume_answers : (CliOp.send (JobCli.waitRequest "ab")).Answers keeping (fun _ => keeperHeaders) 0
    ⟨waking, []⟩ (.ok (JobApi.accepted, sampleCrates.json.print (jobView keptJob))) ⟨woken, []⟩ := by
  have hlife : Registry.Life sampleCrates.json waking woken :=
    (resume_returns.leads (fun _ _ _ => .trans) (fun _ _ h => h)
      (fun _ _ _ _ h => JobOp.Answers.run h) : Registry.Run _ _ _).life
  refine ⟨⟨hlife, rfl⟩, ?_⟩
  rintro call status text hcall heq
  cases hcall
  cases heq
  exact ⟨_, waking, woken, _, .refl, .refl, resume_returns, rfl, rfl, rfl⟩

private theorem getJob_answers {r : Registry} {job : Job} (hread : r.fleet.world.db.ownedJob sampleCrates.json ⟨"ab"⟩
    (keeper.fingerprint sampleCrates) "https://api.openai.com/v1" = .ok job) :
    (CliOp.send { method := .get, path := ["jobs", "ab"] }).Answers keeping (fun _ => keeperHeaders) 0 ⟨r, []⟩
      (.ok (ok200, sampleCrates.json.print (jobView job))) ⟨r, []⟩ := by
  refine ⟨.refl _, ?_⟩
  rintro call status text hcall heq
  cases hcall
  cases heq
  exact ⟨_, r, r, _, .refl, .refl, getJob_returns hread, rfl, rfl, rfl⟩

private theorem decode_ok (status : StatusCode) (hok : status.isSuccess = true) (job : Job) :
    JobCli.decode sampleCrates.json (status, sampleCrates.json.print (jobView job)) = .ok (jobView job) := by
  unfold JobCli.decode
  rw [hok]
  exact (Json.compact_roundTrips _).1

private theorem waits_for_end {ended : Registry}
    (h : Registry.Ends sampleCrates.json 0 keptJob keptRow refusal woken ended) :
    Prog.Executes (Console.Goes sampleCrates.json) (CliOp.Answers keeping (fun _ => keeperHeaders) 0)
      (JobCli.run sampleCrates.json (.wait "ab") 1).run ⟨waking, []⟩ (.error "job reached a non-successful terminal state")
      ⟨ended.reopened, [jobView endedJob]⟩ := by
  have hgoes : Console.Goes sampleCrates.json ⟨woken, []⟩ ⟨ended.reopened, []⟩ :=
    ⟨h.run.life.tail (.reopens ended), rfl⟩
  have howned := ended_owned h
  unfold JobCli.run
  rw [show JobCli.request (.wait "ab") = pure (JobCli.waitRequest "ab", true) from rfl]
  refine .call _ (.refl _) resume_answers ?_
  change Prog.Executes _ _ ((JobCli.given (JobCli.decode sampleCrates.json (JobApi.accepted,
    sampleCrates.json.print (jobView keptJob)))).run >>= ExceptT.bindCont _) _ _ _
  rw [decode_ok JobApi.accepted rfl]
  refine .call () (.refl _) rfl (.call _ hgoes (@getJob_answers ended.reopened endedJob howned) ?_)
  change Prog.Executes _ _ (((JobCli.given (JobCli.decode sampleCrates.json (ok200,
    sampleCrates.json.print (jobView endedJob)))).run >>= ExceptT.bindCont _) >>= ExceptT.bindCont _) _ _ _
  rw [decode_ok ok200 rfl]
  exact .call () (.refl _) rfl (.ret _ (.refl _))

/-- The client waits for a job that goes on; its worker ends it, and the next process shows how. -/
theorem waiting_prints_the_outcome_ended : ∃ t : Console, Prog.Executes (Console.Goes sampleCrates.json)
    (CliOp.Answers keeping (fun _ => keeperHeaders) 0) (JobCli.run sampleCrates.json (.wait "ab") 1).run ⟨waking, []⟩
    (.error "job reached a non-successful terminal state") t ∧ ∃ job : Job, job.id = ⟨"ab"⟩ ∧
    job.state.isTerminal = true ∧ t.printed = [jobView job] ∧
    t.registry.fleet.world.db.get sampleCrates.json ⟨"ab"⟩ = .ok job := by
  obtain ⟨ended, hends⟩ := woken_ends
  have hwaits := waits_for_end hends
  refine ⟨_, hwaits, ?_⟩
  rcases @waiting_prints_the_outcome keeping (fun _ => keeperHeaders) 0 ⟨waking, []⟩ _ _ _ _ _
      waking_initial .refl hwaits (fun _ _ _ => (Json.compact_roundTrips _).1) with
    ⟨hprinted, -⟩ | ⟨job, hid, hterminal, hprinted, -, hkept⟩
  · cases hprinted
  · exact ⟨job, hid, hterminal, hprinted, hkept _ .refl⟩

end Witness

end Client
end Kaiion.Proxy

import Kaiion.Durable.Driver
import Kaiion.Durable.JobStore

/-! Any number of batch workers over one store, with the clients that register and resume jobs.
The log remembers every operation with its reply and the tables it left behind, newest first. -/
namespace Kaiion.Durable
open Foundation

inductive Event where
  | stored (after : Database)
  | subscribed (worker : Nat) (job : Job)
  | performed (worker : Nat) (op : Op) (reply : Op.Reply op) (after : Database)

def Event.worker : Event → Option Nat
  | stored _ => none
  | subscribed worker _ | performed worker _ _ _ => some worker

def Event.after : Event → Option Database
  | stored after | performed _ _ _ after => some after
  | subscribed _ _ => none

structure World where
  db : Database
  log : List Event

/-- What the store and the provider may answer: the provider anything, a statement its own result
unless it fails, a read the stored job unless it fails. -/
def Op.Answers (c : Codec) (db : Database) : (op : Op) → Op.Reply op → Database → Prop
  | .transition t, reply, db' => ∃ now, ∃ fault : Fault, fault.apply .database db (t.run c now db) = (db', reply)
  | .get id, reply, db' => db' = db ∧ (reply = db.get c id ∨ ∃ message, reply = .error (.database message))
  | _, _, db' => db' = db

/-- Worker `w` performs an operation. -/
def World.Performs (c : Codec) (w : Nat) (op : Op) (s : World) (reply : Op.Reply op) (s' : World) : Prop :=
  op.Answers c s.db reply s'.db ∧ s'.log = .performed w op reply s'.db :: s.log

inductive Phase where
  | advancing (rest : Driver (Except DriverError JobState))
  | settling (rest : Driver Turn)

/-- `phase` loses its next operation to a reply. -/
inductive Phase.Takes : Phase → (op : Op) → Op.Reply op → Phase → Prop where
  | advancing {op : Op} {next : Op.Reply op → Driver (Except DriverError JobState)} (reply : Op.Reply op) :
      Takes (.advancing (.call op next)) op reply (.advancing (next reply))
  | settling {op : Op} {next : Op.Reply op → Driver Turn} (reply : Op.Reply op) :
      Takes (.settling (.call op next)) op reply (.settling (next reply))

/-- A worker inside the loop of `JobDriver::run`; `job` is the loop's own copy of the job. -/
structure Worker where
  auth : UpstreamAuth
  requestBody : Value
  job : Job
  phase : Phase

/-- A worker at the top of its loop. -/
def Worker.turn (c : Codec) (auth : UpstreamAuth) (requestBody : Value) (job : Job) : Worker :=
  { auth, requestBody, job, phase := .advancing (advance c auth requestBody job) }

/-- `copies` are the job values request handlers have read and may still pass to `subscribe`. -/
structure Fleet where
  world : World
  copies : List Job
  workers : Nat → Option Worker
  nextWorker : Nat

def Fleet.setWorker (fleet : Fleet) (w : Nat) (worker : Option Worker) : Nat → Option Worker :=
  fun other => if other = w then worker else fleet.workers other

namespace Fleet

inductive Step (c : Codec) : Fleet → Fleet → Prop where
  | enqueue (fleet : Fleet) (uuid authHash provider : String) (request : NormalizedRequest) (fault : Fault)
      (fresh : uuid ∉ fleet.world.db.jobs.map JobRow.id) (db : Database)
      (committed : (fault.apply .database fleet.world.db
        (fleet.world.db.enqueue c uuid authHash provider request)).1 = db) :
      Step c fleet { fleet with world := ⟨db, .stored db :: fleet.world.log⟩ }
  | read (fleet : Fleet) (id : JobId) (job : Job) (found : fleet.world.db.get c id = .ok job) :
      Step c fleet { fleet with copies := job :: fleet.copies }
  | subscribe (fleet : Fleet) (auth : UpstreamAuth) (requestBody : Value) (job : Job)
      (held : job ∈ fleet.copies) (live : job.state.isTerminal = false) :
      Step c fleet { fleet with
        world := ⟨fleet.world.db, .subscribed fleet.nextWorker job :: fleet.world.log⟩
        workers := fleet.setWorker fleet.nextWorker (some (.turn c auth requestBody job))
        nextWorker := fleet.nextWorker + 1 }
  | perform (fleet : Fleet) (w : Nat) (worker : Worker) (op : Op) (reply : Op.Reply op) (phase : Phase)
      (db : Database) (found : fleet.workers w = some worker) (takes : worker.phase.Takes op reply phase)
      (answers : op.Answers c fleet.world.db reply db) :
      Step c fleet { fleet with
        world := ⟨db, .performed w op reply db :: fleet.world.log⟩
        workers := fleet.setWorker w (some { worker with phase }) }
  | advanced (fleet : Fleet) (w : Nat) (worker : Worker) (result : Except DriverError JobState)
      (found : fleet.workers w = some worker) (done : worker.phase = .advancing (.ret result)) :
      Step c fleet { fleet with
        workers := fleet.setWorker w (some { worker with phase := .settling (settle worker.job result) }) }
  | looped (fleet : Fleet) (w : Nat) (worker : Worker) (job : Job) (found : fleet.workers w = some worker)
      (done : worker.phase = .settling (.ret (.again job))) :
      Step c fleet { fleet with
        workers := fleet.setWorker w (some (.turn c worker.auth worker.requestBody job)) }
  | stopped (fleet : Fleet) (w : Nat) (worker : Worker) (found : fleet.workers w = some worker)
      (done : worker.phase = .settling (.ret .stop)) :
      Step c fleet { fleet with workers := fleet.setWorker w none }
  /-- The process dies between any two steps; only the tables survive. -/
  | crash (fleet : Fleet) : Step c fleet { fleet with copies := [], workers := fun _ => none }

/-- A process that has just opened its store. -/
structure Initial (fleet : Fleet) : Prop where
  wellFormed : fleet.world.db.WellFormed
  log : fleet.world.log = [.stored fleet.world.db]
  copies : fleet.copies = []
  workers : fleet.workers = fun _ => none

abbrev Run (c : Codec) : Fleet → Fleet → Prop := Relation.ReflTransGen (Step c)

end Fleet
end Kaiion.Durable

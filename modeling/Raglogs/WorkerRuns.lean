import Raglogs.Workers

/-!
Any number of workers on one database, an instruction at a time. A worker that dies loses
what its session has not committed; a job that some session works on stays locked.
-/

namespace Raglogs.WorkerRuns

open LogEntries Transactions Transactions.Script Workers

variable {α ρ κ : Type}

/-- A worker at work on a job: its session and what is left of its program. -/
structure Active (ρ : Type) where
  id : ℕ
  session : Session (Database ρ)
  script : WorkerScript ρ Unit

/-- The committed tables and the workers, the idle ones as `none`. -/
structure World (ρ : Type) where
  db : Database ρ
  workers : List (Option (Active ρ))

def executing (w : World ρ) : List ℕ :=
  w.workers.filterMap (fun worker => worker.map Active.id)

inductive Event (α ρ κ : Type)
  /-- A new job is enqueued. -/
  | enqueue (jobType : String) (createdAt : Timestamp)
  /-- An idle worker claims the next job, whose handler its environment gives. -/
  | claim (worker : ℕ) (env : WorkerEnv α ρ κ)
  /-- A worker goes on by one instruction. -/
  | advance (worker : ℕ)
  /-- A statement of a worker fails for a reason that is not in the tables. -/
  | fault (worker : ℕ)
  /-- A worker stops dead. -/
  | die (worker : ℕ)
  /-- An idle worker enqueues a purge if one is due. -/
  | idle (now : Timestamp) (intervalSeconds : ℤ)

/-- The worker's state after one instruction; at its end it is idle. -/
def advanceActive (db : Database ρ) (a : Active ρ) : Database ρ × Option (Active ρ) :=
  match a.script.step db a.session with
  | (db, none) => (db, none)
  | (db, some (session, script)) => (db, some { a with session := session, script := script })

/-- A statement fails and aborts the transaction. -/
def faultActive (a : Active ρ) : Active ρ :=
  match a.script with
  | .read next => { a with session := a.session.abort, script := next none }
  | .exec false _ next => { a with session := a.session.abort, script := next none }
  | _ => a

def claimBy (w : World ρ) (worker : ℕ) (env : WorkerEnv α ρ κ) : World ρ :=
  match w.workers[worker]?, nextJob (executing w) w.db with
  | some none, some entry =>
      { w with
        workers := w.workers.set worker (some {
          id := entry.2
          session := Session.clean.write (startJob entry.2)
          script := executeJob entry.2 (handlerOf env entry) }) }
  | _, _ => w

def advance (w : World ρ) (worker : ℕ) : World ρ :=
  match w.workers[worker]? with
  | some (some a) => ⟨(advanceActive w.db a).1, w.workers.set worker (advanceActive w.db a).2⟩
  | _ => w

def fault (w : World ρ) (worker : ℕ) : World ρ :=
  match w.workers[worker]? with
  | some (some a) => { w with workers := w.workers.set worker (some (faultActive a)) }
  | _ => w

def stepWorld (w : World ρ) : Event α ρ κ → World ρ
  | .enqueue jobType createdAt =>
      { w with db := enqueueJob ⟨jobType, .pending, none, createdAt⟩ w.db }
  | .claim worker env => claimBy w worker env
  | .advance worker => advance w worker
  | .fault worker => fault w worker
  | .die worker => { w with workers := w.workers.set worker none }
  | .idle now intervalSeconds =>
      { w with db := (maybeEnqueuePurge now intervalSeconds).session w.db }

def runWorld (w : World ρ) (events : List (Event α ρ κ)) : World ρ := events.foldl stepWorld w

/-- No worker is at work and no job is left running. -/
structure Start (w : World ρ) : Prop where
  idle : ∀ worker ∈ w.workers, worker = none
  resting : ∀ job ∈ w.db.workerJobs, job.status ≠ .running

/-- The job that a worker executes is committed as running. -/
def committedRunning (w : World ρ) (worker : ℕ) : Bool :=
  match w.workers[worker]? with
  | some (some a) => (w.db.workerJobs[a.id]?.map WorkerJob.status) = some .running
  | _ => false

/-- The next instruction of a worker is a statement that fails, outside of a savepoint. -/
def statementFails (w : World ρ) (worker : ℕ) : Bool :=
  match w.workers[worker]? with
  | some (some a) =>
      match a.script with
      | .exec false statement _ => (statement (a.session.view w.db)).isNone
      | _ => false
  | _ => false

/-- No worker dies and no statement of it fails while its job is committed as running. -/
def survives (w : World ρ) : Event α ρ κ → Bool
  | .die worker => !committedRunning w worker
  | .fault worker => !committedRunning w worker
  | .advance worker => !(statementFails w worker && committedRunning w worker)
  | _ => true

/-- Every step of a run meets the condition. -/
def allSurvive : World ρ → List (Event α ρ κ) → Bool
  | _, [] => true
  | w, event :: rest => survives w event && allSurvive (stepWorld w event) rest

/-- A purge can be claimed, or one is enqueued and can be claimed as soon as it is due. -/
def PurgeAvailable (w : World ρ) : Prop :=
  (∃ entry ∈ claimable (executing w) w.db, entry.1.jobType = purgeJobType) ∨
    ∀ now intervalSeconds,
      shouldEnqueuePurge w.db.lastPurgeAt false now intervalSeconds = true →
        ∃ entry ∈ claimable (executing w) ((maybeEnqueuePurge now intervalSeconds).session w.db),
          entry.1.jobType = purgeJobType

/-- What a crash must leave: a job that no worker executes is pending or has ended, and
unless a worker executes a purge, a purge can be had. -/
structure CrashSafe (w : World ρ) : Prop where
  resting : ∀ id job, w.db.workerJobs[id]? = some job → id ∉ executing w → job.status ≠ .running
  purge : (∀ id ∈ executing w, ∀ job, w.db.workerJobs[id]? = some job →
    job.jobType ≠ purgeJobType) → PurgeAvailable w

end Raglogs.WorkerRuns

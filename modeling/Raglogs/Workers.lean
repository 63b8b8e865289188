import Raglogs.Collections
import Raglogs.Tailing
import Raglogs.Transactions

/-!
The background worker. A pass claims one pending job, executes it and records how it
ended, ticks the tail jobs that are due, and when idle may enqueue a purge; all of it
in one session. Only the handler of a purge commits on its way. The position of a row
in a table is its identifier: rows are appended and not removed here.
-/

namespace Raglogs.Workers

open Durations Ingestion LogEntries Tailing Text Transactions

inductive WorkerStatus
  | pending
  | running
  | done
  | failed
deriving DecidableEq

structure WorkerJob where
  jobType : String
  status : WorkerStatus
  error : Option String
  createdAt : Timestamp

/-- The tables that a worker uses. -/
structure Database (ρ : Type) where
  workerJobs : List WorkerJob
  tailJobs : List IngestionJob
  rows : List ρ
  lastPurgeAt : Option Timestamp

inductive Failure
  | database
  | raised (message : String)
deriving DecidableEq

/-- The text of an exception. -/
def Failure.message : Failure → String
  | .database => IngestError.database.message
  | .raised message => message

variable {α ρ κ : Type}

abbrev WorkerScript (ρ β : Type) := Script (Database ρ) Failure β

/-- A statement that gives nothing. -/
def execute (statement : Database ρ → Option (Database ρ → Database ρ)) : WorkerScript ρ Unit :=
  .exec false statement (fun seen => if seen.isSome then .ret () else .raise .database)

/-- A read of the tables. -/
def query {β : Type} (next : Database ρ → WorkerScript ρ β) : WorkerScript ρ β :=
  .read (fun seen =>
    match seen with
    | some db => next db
    | none => .raise .database)

/-! Jobs. -/

def updateJob (id : ℕ) (f : WorkerJob → WorkerJob) (db : Database ρ) : Database ρ :=
  { db with workerJobs := db.workerJobs.modify id f }

def enqueueJob (job : WorkerJob) (db : Database ρ) : Database ρ :=
  { db with workerJobs := db.workerJobs ++ [job] }

/-- The pending jobs that no other session has locked, with their identifiers. -/
def claimable (locked : List ℕ) (db : Database ρ) : List (WorkerJob × ℕ) :=
  db.workerJobs.zipIdx.filter
    (fun entry => entry.1.status = .pending && !locked.contains entry.2)

/-- The oldest of them. -/
def nextJob (locked : List ℕ) (db : Database ρ) : Option (WorkerJob × ℕ) :=
  match claimable locked db with
  | [] => none
  | first :: others => some (Collections.minOn (fun entry => entry.1.createdAt) first others)

def startJob (id : ℕ) : Database ρ → Database ρ :=
  updateJob id (fun job => { job with status := .running })

def finishJob (id : ℕ) : Database ρ → Database ρ :=
  updateJob id (fun job => { job with status := .done })

def failJob (id : ℕ) (message : String) : Database ρ → Database ρ :=
  updateJob id (fun job => { job with status := .failed, error := some message })

/-- Claim one pending job. -/
def claimNextJob (locked : List ℕ) : WorkerScript ρ (Option (WorkerJob × ℕ)) :=
  query (fun db =>
    match nextJob locked db with
    | none => .ret none
    | some entry => (execute (fun _ => some (startJob entry.2))).bind (fun _ => .ret (some entry)))

def recordDone (id : ℕ) : WorkerScript ρ Unit := execute (fun _ => some (finishJob id))

/-- Record a failure. The text of the exception is not cleaned of NUL characters. -/
def recordFailed (id : ℕ) (e : Failure) : WorkerScript ρ Unit :=
  execute (fun _ => if nulFree e.message then some (failJob id e.message) else none)

/-- Execute a claimed job, record how it ended and commit. -/
def executeJob (id : ℕ) (handler : WorkerScript ρ Unit) : WorkerScript ρ Unit :=
  ((handler.bind (fun _ => recordDone id)).tryCatch (recordFailed id)).bind
    (fun _ => .commit (.ret ()))

/-! Handlers. -/

/-- The handler of an ingest job: a call of the ingestion service. Only a failure of the
database aborts the transaction. -/
def runIngestJob (ingest : List ρ → IngestRun ρ) : WorkerScript ρ Unit :=
  query (fun db =>
    match (ingest db.rows).error with
    | none => execute (fun _ => some (fun db => { db with rows := (ingest db.rows).rows }))
    | some .database => execute (fun _ => none)
    | some e =>
        (execute (fun _ => some (fun db => { db with rows := (ingest db.rows).rows }))).bind
          (fun _ => .raise (.raised e.message)))

structure PurgeCounts where
  raw : ℕ
  embedding : ℕ
  summary : ℕ
  moreRemaining : Bool

/-- What the retention policies say of a database. -/
structure Retention (ρ : Type) where
  /-- The scopes that have data or a policy of their own. -/
  scopes : Database ρ → List String
  /-- Whether the intervals of a scope's policy can be read. -/
  isValid : Database ρ → String → Bool
  /-- The rows that one chunk of a scope keeps and what it counts, unless a statement fails. -/
  purgeChunk : String → Database ρ → Option ((ρ → Bool) × PurgeCounts)

def purgeJobType : String := "purge"

def purgeJob (now : Timestamp) : WorkerJob := ⟨purgeJobType, .pending, none, now⟩

/-- One chunk of each scope, each in a transaction of its own; whether some chunk was full. -/
def purgeScopes (retention : Retention ρ) : List String → Bool → WorkerScript ρ Bool
  | [], more => .ret more
  | scope :: rest, more =>
      query (fun db =>
        if retention.isValid db scope then
          match retention.purgeChunk scope db with
          | none => (execute (fun _ => none)).bind (fun _ => .ret more)
          | some (keep, counts) =>
              (execute (fun _ => some (fun db => { db with rows := db.rows.filter keep }))).bind
                (fun _ =>
                  let isEmpty := counts.raw = 0 ∧ counts.summary = 0 ∧ counts.embedding = 0
                  .commit (purgeScopes retention rest
                    (more || (!decide isEmpty && counts.moreRemaining))))
        else purgeScopes retention rest more)

/-- The handler of a purge job. A full chunk enqueues another purge. -/
def runPurge (retention : Retention ρ) (now : Timestamp) : WorkerScript ρ Unit :=
  query (fun db =>
    (purgeScopes retention (retention.scopes db) false).bind (fun more =>
      (execute (fun _ => some (if more then enqueueJob (purgeJob now)
        else fun db => { db with lastPurgeAt := some now }))).bind (fun _ => .commit (.ret ()))))

/-- A write that leaves every job as it is, and enqueues pending ones at most. -/
def KeepsJobs (u : Database ρ → Database ρ) : Prop :=
  ∀ db, ∃ added, (u db).workerJobs = db.workerJobs ++ added ∧ ∀ job ∈ added, job.status = .pending

/-- A handler works on the other tables, and an error of the database ends it. -/
def Propagates {β : Type} : WorkerScript ρ β → Prop
  | .ret _ => True
  | .raise _ => True
  | .read next => (∀ db, Propagates (next (some db))) ∧ next none = .raise .database
  | .exec guarded _ next =>
      (∀ db, Propagates (next (some db))) ∧
        (if guarded then Propagates (next none) else next none = .raise .database)
  | .commit next => Propagates next

structure Handler (ρ : Type) where
  script : WorkerScript ρ Unit
  keeps_jobs : script.All KeepsJobs
  propagates : Propagates script

/-! A pass. -/

/-- What a pass meets. -/
structure WorkerEnv (α ρ κ : Type) where
  lockedJobs : List ℕ
  ingestHandler : ℕ → Handler ρ
  purgeHandler : ℕ → Handler ρ
  /-- Whether the lookup of the signing secret fails in the callback of a job. -/
  callbackFails : ℕ → Bool
  lowering : Lowering
  pipeline : Pipeline α ρ κ
  ingestQueueMax : ℕ
  tailPollInterval : ℤ
  tailErrorThreshold : ℕ
  lockedTails : List ℕ
  now : Timestamp
  tick : ℕ → TailTick α
  purgeIntervalSeconds : ℤ

variable (env : WorkerEnv α ρ κ)

/-- The handler of a job by its type. -/
def handlerOf (entry : WorkerJob × ℕ) : WorkerScript ρ Unit :=
  if entry.1.jobType = "ingest" then (env.ingestHandler entry.2).script
  else if entry.1.jobType = purgeJobType then (env.purgeHandler entry.2).script
  else .raise (.raised ("Unknown job type: '" ++ entry.1.jobType ++ "'"))

/-- The callback of an ingest job reads a secret and raises nothing. -/
def deliverCallback (entry : WorkerJob × ℕ) : WorkerScript ρ Unit :=
  if entry.1.jobType = "ingest" then
    .exec false (fun _ => if env.callbackFails entry.2 then none else some id) (fun _ => .ret ())
  else .ret ()

/-- Claim and execute one job, if there is one. -/
def processOne : WorkerScript ρ Bool :=
  (claimNextJob env.lockedJobs).bind (fun claimed =>
    match claimed with
    | none => .ret false
    | some entry =>
        (executeJob entry.2 (handlerOf env entry)).bind
          (fun _ => (deliverCallback env entry).bind (fun _ => .ret true)))

def pendingWorkerJobCount (db : Database ρ) : ℕ :=
  (db.workerJobs.filter (fun job => job.status = .pending)).length

def dueTailJobs (db : Database ρ) : List ℕ :=
  (db.tailJobs.zipIdx.filter (fun entry =>
    isTailJobDue entry.1 env.now env.tailPollInterval && !env.lockedTails.contains entry.2)).map
      Prod.snd

section Ticks

variable [DecidableEq κ]

def storeTick (id : ℕ) (rows : List ρ) (job : IngestionJob) (db : Database ρ) : Database ρ :=
  { db with rows := rows, tailJobs := db.tailJobs.set id job }

/-- What a tick of a job writes, or the exception that leaves it. -/
def tickWrite (db : Database ρ) (id : ℕ) (job : IngestionJob) :
    Except Failure (Database ρ → Database ρ) :=
  match tickOneTailJob env.lowering env.pipeline env.tailErrorThreshold db.rows job
      { env.tick id with now := env.now } with
  | .error (.window e) => .error (.raised (e.message env.lowering))
  | .error .database => .error .database
  | .ok (rows, ticked) =>
      -- the text of the failure goes into a text column
      if (ticked.errorMessage.map nulFree).getD true then .ok (storeTick id rows ticked)
      else .error .database

def tickJob (id : ℕ) : WorkerScript ρ Unit :=
  query (fun db =>
    match db.tailJobs[id]? with
    | none => .ret ()
    | some job =>
        match tickWrite env db id job with
        | .ok u => execute (fun _ => some u)
        | .error .database => execute (fun _ => none)
        | .error e => .raise e)

def tickJobs : List ℕ → WorkerScript ρ Unit
  | [] => .ret ()
  | id :: rest => (tickJob env id).bind (fun _ => tickJobs rest)

/-- Tick every due tail job, unless the queue is full; how many there were. -/
def tickTailJobs : WorkerScript ρ ℕ :=
  query (fun db =>
    if env.ingestQueueMax ≤ pendingWorkerJobCount db then .ret 0
    else (tickJobs env (dueTailJobs env db)).bind (fun _ => .ret (dueTailJobs env db).length))

/-- A purge is pending or running. -/
def hasActivePurge (db : Database ρ) : Bool :=
  db.workerJobs.any (fun job =>
    job.jobType = purgeJobType && (job.status = .pending || job.status = .running))

def shouldEnqueuePurge (lastPurgeAt : Option Timestamp) (hasActive : Bool) (now : Timestamp)
    (intervalSeconds : ℤ) : Bool :=
  if hasActive then false
  else if intervalSeconds ≤ 0 then false
  else
    match lastPurgeAt with
    | none => true
    | some stamp => intervalSeconds * 1000000 ≤ now - stamp

def maybeEnqueuePurge (now : Timestamp) (intervalSeconds : ℤ) : WorkerScript ρ Bool :=
  query (fun db =>
    if shouldEnqueuePurge db.lastPurgeAt (hasActivePurge db) now intervalSeconds then
      (execute (fun _ => some (enqueueJob (purgeJob now)))).bind (fun _ => .ret true)
    else .ret false)

/-- One pass of the loop. -/
def workerPass : WorkerScript ρ Unit :=
  (processOne env).bind (fun processed =>
    (tickTailJobs env).bind (fun _ =>
      if processed then .ret ()
      else (maybeEnqueuePurge env.now env.purgeIntervalSeconds).bind (fun _ => .ret ())))

/-- The committed tables after a pass. -/
def runPass (db : Database ρ) : Database ρ := (workerPass env).session db

end Ticks

end Raglogs.Workers

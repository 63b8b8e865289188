import Mathlib.Logic.Function.Basic
import Raglogs.LogEntries
import Raglogs.Text

/-!
Posts that carry one idempotency key. Each is a transaction of a few statements at read
committed isolation: it sees what is committed when a statement starts, a write of a row
waits for the transaction that has written it, and a key that is taken fails the insert.
-/

namespace Raglogs.IdempotencyKeys

open LogEntries Text

inductive PostMode
  | batch
  | tail
deriving DecidableEq

/-- The identifier of a job: one that was there before, or that of a post. -/
inductive JobId (n : ℕ)
  | existing (id : ℕ)
  | posted (post : Fin n)
deriving DecidableEq

structure Job (n : ℕ) where
  id : JobId n
  /-- The scope in the payload or in the column of the job. -/
  scope : String
deriving DecidableEq

structure KeyRow (n : ℕ) where
  workerJobId : Option (JobId n)
  ingestionJobId : Option (JobId n)
  mode : PostMode
  expiresAt : Timestamp
deriving DecidableEq

variable {n : ℕ}

def isActive (row : KeyRow n) (now : Timestamp) : Bool := now < row.expiresAt

/-- The row that a lookup finds active. -/
def lookupActiveKey (row : Option (KeyRow n)) (now : Timestamp) : Option (KeyRow n) :=
  row.filter (fun row => isActive row now)

def payloadScope (scope : String) : String := if strip scope = "" then "default" else strip scope

def jobScope (jobs : List (Job n)) (id : Option (JobId n)) : Option String :=
  id.bind (fun id => (jobs.find? (fun job => job.id = id)).map (fun job => payloadScope job.scope))

/-- Scope of the job that a row is bound to. -/
def scopeOfIdempotencyRow (jobs : List (Job n)) (row : KeyRow n) : String :=
  ((jobScope jobs row.workerJobId).or (jobScope jobs row.ingestionJobId)).getD "default"

structure EnqueuedResponse (n : ℕ) where
  workerJobId : Option (JobId n)
  status : String
  ingestionJobId : Option (JobId n)
  mode : PostMode
deriving DecidableEq

inductive Response (n : ℕ)
  | enqueued (response : EnqueuedResponse n)
  | scopeConflict
  | queueFull
  /-- An exception leaves the request. -/
  | failed
deriving DecidableEq

def enqueuedFromIdempotency (row : KeyRow n) : EnqueuedResponse n :=
  match row.mode with
  | .tail => ⟨none, "running", row.ingestionJobId, .tail⟩
  | .batch => ⟨row.workerJobId, "pending", row.ingestionJobId, .batch⟩

/-- A post: its scope is resolved, and the clock is read before each of the two lookups. -/
structure Post where
  scope : String
  scope_resolved : strip scope = scope ∧ scope ≠ ""
  mode : PostMode
  lookupAt : Timestamp
  bindAt : Timestamp

/-- The job that a post creates. -/
def newJob (posts : Fin n → Post) (i : Fin n) : Job n := ⟨.posted i, (posts i).scope⟩

/-- The mapping that a post stores. -/
def newRow (posts : Fin n → Post) (ttl : ℤ) (i : Fin n) : KeyRow n :=
  match (posts i).mode with
  | .batch => ⟨some (.posted i), none, .batch, (posts i).bindAt + ttl⟩
  | .tail => ⟨none, some (.posted i), .tail, (posts i).bindAt + ttl⟩

/-- The response of a post that created its job. -/
def createdResponse (posts : Fin n → Post) (i : Fin n) : EnqueuedResponse n :=
  match (posts i).mode with
  | .batch => ⟨some (.posted i), "pending", none, .batch⟩
  | .tail => ⟨none, "running", some (.posted i), .tail⟩

/-- The next statement of a post. -/
inductive Pc (n : ℕ)
  | lookup
  /-- Read the scope of the job of an active row. -/
  | scope (row : KeyRow n)
  | queue
  | create
  /-- The second read of the row, with the job in place. -/
  | read
  /-- Delete by key, after a read that gave this row. -/
  | delete (seen : KeyRow n)
  /-- The deletion has its snapshot and may wait for the row. -/
  | deleting (target : Option (KeyRow n))
  | insert
  | reread
  /-- Remove the job of a post that has lost. -/
  | discard (response : Response n)
  | commit (response : Response n)
  | done (response : Response n)
deriving DecidableEq

/-- A post and what its transaction has written. -/
structure Local (n : ℕ) where
  pc : Pc n
  created : Bool
  deleted : Option (KeyRow n)
  inserted : Option (KeyRow n)
deriving DecidableEq

def Local.start : Local n := ⟨.lookup, false, none, none⟩

/-- The committed row of the key, the committed jobs, and the posts. -/
structure World (n : ℕ) where
  row : Option (KeyRow n)
  jobs : List (Job n)
  locals : Fin n → Local n

def World.goto (w : World n) (i : Fin n) (l : Local n) : World n :=
  { w with locals := Function.update w.locals i l }

/-- Another transaction has deleted this row and not committed. -/
def isLockedBy (w : World n) (i : Fin n) (row : KeyRow n) : Bool :=
  (List.finRange n).any (fun j => j ≠ i && (w.locals j).deleted = some row)

/-- Another transaction has inserted the key and not committed. -/
def hasPendingInsert (w : World n) (i : Fin n) : Bool :=
  (List.finRange n).any (fun j => j ≠ i && (w.locals j).inserted.isSome)

/-- The committed row as a post sees it. -/
def visibleRow (w : World n) (l : Local n) : Option (KeyRow n) :=
  if l.deleted = w.row then none else w.row

def visibleJobs (posts : Fin n → Post) (w : World n) (i : Fin n) : List (Job n) :=
  if (w.locals i).created then w.jobs ++ [newJob posts i] else w.jobs

/-- What a post answers from an active row. -/
def replayResponse (posts : Fin n → Post) (w : World n) (i : Fin n) (row : KeyRow n) :
    Response n :=
  if scopeOfIdempotencyRow (visibleJobs posts w i) row ≠ (posts i).scope then .scopeConflict
  else .enqueued (enqueuedFromIdempotency row)

/-- The end of a transaction. -/
def commitWrites (posts : Fin n → Post) (w : World n) (i : Fin n) (response : Response n) :
    World n where
  row :=
    match (w.locals i).inserted with
    | some row => some row
    | none => visibleRow w (w.locals i)
  jobs := visibleJobs posts w i
  locals := Function.update w.locals i ⟨.done response, false, none, none⟩

/-- One statement of a post. A statement that has to wait changes nothing; whether the queue
is full depends on all the rest of the system. -/
def stepPost (posts : Fin n → Post) (ttl : ℤ) (w : World n) (i : Fin n) (full : Bool) : World n :=
  let l := w.locals i
  match l.pc with
  | .lookup =>
      match lookupActiveKey w.row (posts i).lookupAt with
      | some row => w.goto i { l with pc := .scope row }
      | none => w.goto i { l with pc := .queue }
  | .scope row =>
      let response := replayResponse posts w i row
      w.goto i { l with pc := if l.created then .discard response else .commit response }
  | .queue => w.goto i { l with pc := if full then .commit .queueFull else .create }
  | .create => w.goto i { l with pc := .read, created := true }
  | .read =>
      match visibleRow w l with
      | none => w.goto i { l with pc := .insert }
      | some row =>
          if isActive row (posts i).bindAt then w.goto i { l with pc := .scope row }
          else w.goto i { l with pc := .delete row }
  | .delete _ => w.goto i { l with pc := .deleting w.row }
  | .deleting target =>
      match target with
      | none => w.goto i { l with pc := .insert }
      | some row =>
          if isLockedBy w i row then w
          -- a row that was deleted meanwhile is passed over
          else if w.row = some row then w.goto i { l with pc := .insert, deleted := some row }
          else w.goto i { l with pc := .insert }
  | .insert =>
      if hasPendingInsert w i then w
      else
        match visibleRow w l with
        | none =>
            w.goto i { l with
              pc := .commit (.enqueued (createdResponse posts i))
              inserted := some (newRow posts ttl i) }
        | some row => if isLockedBy w i row then w else w.goto i { l with pc := .reread }
  | .reread =>
      match lookupActiveKey (visibleRow w l) (posts i).bindAt with
      | some row => w.goto i { l with pc := .scope row }
      | none => w.goto i ⟨.done .failed, false, none, none⟩
  | .discard response => w.goto i { l with pc := .commit response, created := false }
  | .commit response => commitWrites posts w i response
  | .done _ => w

/-- The posts before any of them has started. -/
def startWorld (row : Option (KeyRow n)) (jobs : List (Job n)) : World n :=
  ⟨row, jobs, fun _ => Local.start⟩

/-- A run: which post goes on, and whether it would find the queue full. -/
def runPosts (posts : Fin n → Post) (ttl : ℤ) (w : World n) (schedule : List (Fin n × Bool)) :
    World n :=
  schedule.foldl (fun w event => stepPost posts ttl w event.1 event.2) w

end Raglogs.IdempotencyKeys

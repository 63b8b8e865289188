import Mathlib.Logic.Function.Basic
import Raglogs.Tailing

/-!
Requests that pause, resume or stop a tail job, and ticks of it, each in a transaction of
its own. A request reads the row without a lock and writes the columns it has changed; a
tick locks the row when it selects it and keeps it until its transaction ends.
-/

namespace Raglogs.TailControl

open Ingestion LogEntries Tailing Text

variable {α ρ κ : Type} {n : ℕ}

inductive ControlState
  | read
  /-- About to write; the status is among the changed columns if it is another one. -/
  | write (status : Option JobStatus)
  | commit (status : Option JobStatus)
  | done (committed : Bool)
deriving DecidableEq

inductive TickState
  | select
  /-- The row is locked and the adapter is about to be read. -/
  | poll (job : IngestionJob)
  | commit (job : IngestionJob)
  | done (polled : Bool)

/-- What a tick of the job meets. -/
structure TickEnv (α ρ κ : Type) where
  lowering : Lowering
  pipeline : Pipeline α ρ κ
  errorThreshold : ℕ
  pollInterval : ℤ
  rows : List ρ
  tick : TailTick α

inductive Party (α ρ κ : Type)
  | control (action : TailAction) (scope : String) (state : ControlState)
  | tick (env : TickEnv α ρ κ) (state : TickState)

/-- The committed row of the job, who has locked it, and the parties. -/
structure World (n : ℕ) (α ρ κ : Type) where
  row : IngestionJob
  lock : Option (Fin n)
  parties : Fin n → Party α ρ κ

def World.goto (w : World n α ρ κ) (i : Fin n) (p : Party α ρ κ) : World n α ρ κ :=
  { w with parties := Function.update w.parties i p }

/-- The lock after the end of a transaction. -/
def release (w : World n α ρ κ) (i : Fin n) : Option (Fin n) :=
  if w.lock = some i then none else w.lock

/-- What a request does with the row it has read. -/
def applyTailAction (row : IngestionJob) (scope : String) (action : TailAction) : ControlState :=
  if row.scope ≠ scope then .done false
  else
    match applyTailLifecycle row.mode row.status action with
    | .error _ => .done false
    | .ok status =>
        if status ≠ row.status then .write (some status)
        -- a stop writes the time it was made in any case
        else if action = .stop then .write none
        else .commit none

/-- The end of a transaction that is rolled back. -/
def abandonParty : Party α ρ κ → Party α ρ κ
  | .control action scope (.done committed) => .control action scope (.done committed)
  | .control action scope _ => .control action scope (.done false)
  | .tick env .select => .tick env (.done false)
  | .tick env (.done polled) => .tick env (.done polled)
  | .tick env _ => .tick env (.done true)

def abandon (w : World n α ρ κ) (i : Fin n) : World n α ρ κ :=
  { w with
    lock := release w i
    parties := Function.update w.parties i (abandonParty (w.parties i)) }

section Steps

variable [DecidableEq κ]

/-- One statement of a request. A write waits for the lock. -/
def stepControl (w : World n α ρ κ) (i : Fin n) (action : TailAction) (scope : String) :
    ControlState → World n α ρ κ
  | .read => w.goto i (.control action scope (applyTailAction w.row scope action))
  | .write status =>
      if w.lock = none then
        { w.goto i (.control action scope (.commit status)) with lock := some i }
      else w
  | .commit status =>
      { w.goto i (.control action scope (.done true)) with
        row := { w.row with status := status.getD w.row.status }
        lock := release w i }
  | .done _ => w

/-- One statement of a tick. A row that is locked is skipped. -/
def stepTick (w : World n α ρ κ) (i : Fin n) (env : TickEnv α ρ κ) : TickState → World n α ρ κ
  | .select =>
      if w.lock = none ∧ isTailJobDue w.row env.tick.now env.pollInterval = true then
        { w.goto i (.tick env (.poll w.row)) with lock := some i }
      else w.goto i (.tick env (.done false))
  | .poll job =>
      match tickOneTailJob env.lowering env.pipeline env.errorThreshold env.rows job env.tick with
      | .error _ => { w.goto i (.tick env (.done true)) with lock := release w i }
      | .ok (_, job) => w.goto i (.tick env (.commit job))
  | .commit job => { w.goto i (.tick env (.done true)) with row := job, lock := release w i }
  | .done _ => w

/-- A party goes on, or its transaction is rolled back. -/
def stepParty (w : World n α ρ κ) (i : Fin n) (rollback : Bool) : World n α ρ κ :=
  if rollback then abandon w i
  else
    match w.parties i with
    | .control action scope state => stepControl w i action scope state
    | .tick env state => stepTick w i env state

def runParties (w : World n α ρ κ) (schedule : List (Fin n × Bool)) : World n α ρ κ :=
  schedule.foldl (fun w event => stepParty w event.1 event.2) w

end Steps

/-- No party has started. -/
structure Start (w : World n α ρ κ) : Prop where
  unlocked : w.lock = none
  parties : ∀ i, (∃ action scope, w.parties i = .control action scope .read) ∨
    ∃ env, w.parties i = .tick env .select

/-- Some request to stop has committed. -/
def StopCommitted (w : World n α ρ κ) : Prop :=
  ∃ i scope, w.parties i = .control .stop scope (.done true)

/-- A request that has read the row before a stop writes another status after it. -/
def overwritesStop (w : World n α ρ κ) (i : Fin n) (rollback : Bool) : Bool :=
  match w.parties i with
  | .control _ _ (.write (some status)) =>
      !rollback && decide (w.lock = none) && decide (w.row.status = .stopped) &&
        decide (status ≠ .stopped)
  | _ => false

/-- No step of a run overwrites a stop. -/
def neverOverwrites [DecidableEq κ] : World n α ρ κ → List (Fin n × Bool) → Bool
  | _, [] => true
  | w, (i, rollback) :: rest =>
      !overwritesStop w i rollback && neverOverwrites (stepParty w i rollback) rest

end Raglogs.TailControl

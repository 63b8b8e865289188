import Raglogs.Durations
import Raglogs.Ingestion

/-!
Tail mode: a job that is polled again and again. A tick reads the window from the last
poll to now, unless some stream was left in the middle of a page; then it reads the
window of that page again. What a tick stores decides the window of the next one.
-/

namespace Raglogs.Tailing

open Dicts LogEntries Text Upserts Ingestion Durations

inductive TailAction
  | pause
  | resume
  | stop
deriving DecidableEq

inductive TailLifecycleError
  | notTail
  | conflict
deriving DecidableEq

/-- The next status of a tail job. -/
def applyTailLifecycle (mode : JobMode) (status : JobStatus) (action : TailAction) :
    Except TailLifecycleError JobStatus :=
  if mode ≠ .tail then .error .notTail
  else
    match action with
    | .stop => .ok .stopped
    | .pause => if status = .stopped then .error .conflict else .ok .paused
    | .resume => if status = .stopped then .error .conflict else .ok .running

/-- The new count of failed ticks in a row, and whether the job is to pause. -/
def consecutiveErrorsAfterFailure (current threshold : ℕ) : ℕ × Bool :=
  (current + 1, threshold ≤ current + 1)

def cursorsFromJob (job : IngestionJob) : Cursors :=
  match job.cursor with
  | .object cursors => cursors
  | _ => job.metadata.cursors.getD ∅

/-- A pagination token; the empty one counts as none. -/
def isOpen (cursor : Option String) : Bool := (truthy cursor).isSome

/-- Some stream still has a pagination token. -/
def hasOpenCursors (cursors : Cursors) : Bool :=
  !decide (∀ p ∈ cursors.entries, isOpen p.2 = false)

def isTailJobDue (job : IngestionJob) (now : Timestamp) (pollInterval : ℤ) : Bool :=
  if job.mode ≠ .tail ∨ job.status ≠ .running then false
  else
    match job.lastPolledAt with
    | none => true
    | some polled => polled ≤ now - pollInterval

def parseStoredDatetime : Option StoredTime → Option Timestamp
  | some (.instant t) => some t
  | _ => none

/-- The stored paging window, while an open cursor needs it. -/
def heldPagingWindow (job : IngestionJob) : Option TimeWindow :=
  if hasOpenCursors (cursorsFromJob job) then
    match parseStoredDatetime job.metadata.tailWindowStart,
      parseStoredDatetime job.metadata.tailWindowEnd with
    | some start, some stop => some ⟨start, stop⟩
    | _, _ => none
  else none

/-- Parse a bound of the first window; a malformed one raises. -/
def fromIsoformat : Option StoredTime → Except WindowError (Option Timestamp)
  | none => .ok none
  | some (.instant t) => .ok (some t)
  | some .malformed => .error .malformed

/-- The first window of a job, resolved at the instant `clock`. -/
def firstWindow (lowering : Lowering) (job : IngestionJob) (clock : Timestamp) :
    Except WindowError TimeWindow :=
  if (truthy job.metadata.since).isSome ∨ job.metadata.fromTime.isSome ∨
      job.metadata.toTime.isSome then do
    let fromTime ← fromIsoformat job.metadata.fromTime
    let toTime ← fromIsoformat job.metadata.toTime
    resolveWindow lowering clock job.metadata.since fromTime toTime
  else resolveWindow lowering clock (some "1m") none none

def tickWindowForJob (lowering : Lowering) (job : IngestionJob) (now clock : Timestamp) :
    Except WindowError TimeWindow :=
  match heldPagingWindow job with
  | some held => .ok held
  | none =>
      match job.lastPolledAt with
      | some polled => .ok ⟨polled, now⟩
      | none => firstWindow lowering job clock

/-- Record the poll clock and hold or release the paging window. -/
def applyTailWindowProgress (job : IngestionJob) (window : TimeWindow) (now : Timestamp) :
    IngestionJob :=
  let document :=
    if hasOpenCursors (cursorsFromJob job) then
      { job.metadata with
        tailWindowStart := some (.instant window.start)
        tailWindowEnd := some (.instant window.stop) }
    else { job.metadata with tailWindowStart := none, tailWindowEnd := none }
  { job with lastPolledAt := some now, metadata := document }

/-- What one tick meets: the poll clock, the instant at which a first window is resolved,
and what the adapter does with a window. -/
structure TailTick (α : Type*) where
  now : Timestamp
  clock : Timestamp
  adapter : TimeWindow → Except String (List (LogStreamRef α))

/-- Why a tick itself raises. -/
inductive TickError
  | window (e : WindowError)
  /-- The failure was of the database, and so is the flush that records it. -/
  | database
deriving DecidableEq

section Ticks

variable {α ρ κ : Type*} [DecidableEq κ]

/-- The request of a tick: every stream again, from its stored cursor. -/
def tickRequest (job : IngestionJob) (t : TailTick α) (window : TimeWindow) :
    SourceRequest α where
  adapter := job.sourceAdapter
  spec := job.sourceAdapter
  discover := t.adapter window
  resumeCursors := cursorsFromJob job
  resumeCompletedStreams := ∅
  scope := job.scope

/-- The job after a poll that raised. -/
def failedTick (job : IngestionJob) (e : IngestError) (errorThreshold : ℕ) (now : Timestamp) :
    IngestionJob :=
  let (newCount, shouldPause) :=
    consecutiveErrorsAfterFailure job.consecutiveErrors errorThreshold
  { job with
    consecutiveErrors := newCount
    errorMessage := some e.message
    status := if shouldPause then .paused else job.status
    -- stamped so that the job is not due again at once
    lastPolledAt := some now }

/-- Run one adapter poll against a tail job. -/
def tickOneTailJob (lowering : Lowering) (p : Pipeline α ρ κ) (errorThreshold : ℕ)
    (rows : List ρ) (job : IngestionJob) (t : TailTick α) :
    Except TickError (List ρ × IngestionJob) :=
  match tickWindowForJob lowering job t.now t.clock with
  | .error e => .error (.window e)
  | .ok window =>
      let run := ingestFromSource p rows (tickRequest job t window) (some job) false
      let ran := run.job.getD job
      match run.error with
      | none =>
          let done := { ran with consecutiveErrors := 0, errorMessage := none }
          .ok (run.rows, applyTailWindowProgress done window t.now)
      | some .database => .error .database
      | some e => .ok (run.rows, failedTick ran e errorThreshold t.now)

end Ticks

end Raglogs.Tailing

import Mathlib.Data.Finset.Basic
import Raglogs.Dicts
import Raglogs.LogEntries
import Raglogs.Upserts

/-!
The ingestion service. Raw lines become rows of one batch, which is written when it
is full and once more at the end; the three entry points differ in where the lines
come from. What a raw line becomes and which rows the database takes are parameters.
A function that may raise returns its variables together with the exception, since
the handlers read them.
-/

namespace Raglogs.Ingestion

open Dicts LogEntries Upserts

structure IngestionStats where
  filesProcessed : ℕ
  linesRead : ℕ
  parsedCount : ℕ
  errorCount : ℕ
  dedupedCount : ℕ
  servicesDetected : Finset String
deriving DecidableEq

def IngestionStats.zero : IngestionStats := ⟨0, 0, 0, 0, 0, ∅⟩

/-- What a raw line becomes; a line that is not parsed to anything counts as blank. -/
inductive LineOutcome (ρ : Type*)
  | blank
  | error
  | row (r : ρ)

def LineOutcome.row? {ρ : Type*} : LineOutcome ρ → Option ρ
  | .row r => some r
  | _ => none

/-- Who refuses a row: the database, or its client before anything is sent. -/
inductive Refusal
  | database
  | client
deriving DecidableEq

/-- How raw lines of type `α` become rows of type `ρ`, and how the table takes them. -/
structure Pipeline (α ρ κ : Type*) where
  batchSize : ℕ
  processLine : α → LineOutcome ρ
  service : ρ → Option String
  /-- The unique key of the table, where the row has one. -/
  key : ρ → Option κ
  /-- Who refuses the row, unless the table takes it. -/
  refusal : ρ → Option Refusal

/-- Whether the table takes a row. -/
def Pipeline.accepts {α ρ κ : Type*} (p : Pipeline α ρ κ) (r : ρ) : Bool := (p.refusal r).isNone

inductive IngestError
  | noFiles (paths : String)
  | noStreams (spec : String)
  | adapterUnavailable (reason : String)
  | raised (reason : String)
  /-- The database rejected a statement; the transaction takes no more of them. -/
  | database
  /-- The client refused the values of a statement; nothing of it was sent. -/
  | unsent
deriving DecidableEq

/-- The text of an exception. -/
def IngestError.message : IngestError → String
  | .noFiles paths => "No files found for paths: " ++ paths
  | .noStreams spec => "No streams discovered for " ++ spec
  | .adapterUnavailable reason => reason
  | .raised reason => reason
  | .database => "the database rejected a statement"
  | .unsent => "PostgreSQL text fields cannot contain NUL (0x00) bytes"

/-- The rows of the table and the local variables of a run over lines. -/
structure Progress (ρ : Type*) where
  rows : List ρ
  batch : List ρ
  stats : IngestionStats

section Lines

variable {α ρ κ : Type*} [DecidableEq κ]

def recordLine (p : Pipeline α ρ κ) (stats : IngestionStats) (line : α) : IngestionStats :=
  let stats := { stats with linesRead := stats.linesRead + 1 }
  match p.processLine line with
  | .blank => stats
  | .error => { stats with errorCount := stats.errorCount + 1 }
  | .row r =>
      { stats with
        parsedCount := stats.parsedCount + 1
        servicesDetected :=
          match Text.truthy (p.service r) with
          | some service => insert service stats.servicesDetected
          | none => stats.servicesDetected }

/-- Write the batch. One row that is not taken fails the statement, and the client looks at
all of them before the database sees one. -/
def flushAndCount (p : Pipeline α ρ κ) (s : Progress ρ) : Progress ρ × Option IngestError :=
  if s.batch.all p.accepts then
    let rows := upsertAll p.key s.rows s.batch
    let inserted := rows.length - s.rows.length
    let skipped := s.batch.length - inserted
    (⟨rows, [], { s.stats with dedupedCount := s.stats.dedupedCount + skipped }⟩, none)
  else if s.batch.any (fun r => p.refusal r = some .client) then (s, some .unsent)
  else (s, some .database)

/-- The body of the loop over lines. -/
def addLine (p : Pipeline α ρ κ) (s : Progress ρ) (line : α) :
    Progress ρ × Option IngestError :=
  let stats := recordLine p s.stats line
  match (p.processLine line).row? with
  | none => (⟨s.rows, s.batch, stats⟩, none)
  | some r =>
      let s : Progress ρ := ⟨s.rows, s.batch ++ [r], stats⟩
      if p.batchSize ≤ s.batch.length then flushAndCount p s else (s, none)

def addLines (p : Pipeline α ρ κ) : Progress ρ → List α → Progress ρ × Option IngestError
  | s, [] => (s, none)
  | s, line :: rest =>
      match addLine p s line with
      | (s, none) => addLines p s rest
      | (s, some e) => (s, some e)

/-- The write of what is left in the batch. -/
def finishLines (p : Pipeline α ρ κ) (s : Progress ρ) : Progress ρ × Option IngestError :=
  if s.batch = [] then (s, none) else flushAndCount p s

end Lines

/-! Jobs. -/

inductive JobStatus
  | pending
  | running
  | paused
  | stopped
  | completed
  | failed
deriving DecidableEq

inductive JobMode
  | batch
  | push
  | tail
deriving DecidableEq

/-- For each stream the place to resume it from. -/
abbrev Cursors := Dict String (Option String)

/-- The cursor column: null, the text of a JSON object, or other text. -/
inductive CursorColumn
  | null
  | object (cursors : Cursors)
  | other

/-- An instant written in a document. -/
inductive StoredTime
  | instant (t : Timestamp)
  | malformed

/-- The keys of the metadata document that ingestion and tailing read. -/
structure JobMetadata where
  cursors : Option Cursors
  completedStreams : Option (Finset String)
  isPartial : Bool
  since : Option String
  fromTime : Option StoredTime
  toTime : Option StoredTime
  tailWindowStart : Option StoredTime
  tailWindowEnd : Option StoredTime

def JobMetadata.none : JobMetadata :=
  ⟨.none, .none, false, .none, .none, .none, .none, .none⟩

structure IngestionJob where
  status : JobStatus
  mode : JobMode
  sourceAdapter : String
  sourceRef : Option String
  fileCount : ℕ
  lineCount : ℕ
  errorCount : ℕ
  parsedCount : ℕ
  metadata : JobMetadata
  errorMessage : Option String
  cursor : CursorColumn
  lastPolledAt : Option Timestamp
  consecutiveErrors : ℕ
  scope : String

/-- A job as an ingest function creates it. -/
def newJob (mode : JobMode) (sourceAdapter : String) (sourceRef : Option String)
    (fileCount : ℕ) (scope : String) : IngestionJob where
  status := .running
  mode := mode
  sourceAdapter := sourceAdapter
  sourceRef := sourceRef
  fileCount := fileCount
  lineCount := 0
  errorCount := 0
  parsedCount := 0
  metadata := JobMetadata.none
  errorMessage := none
  cursor := .null
  lastPolledAt := none
  consecutiveErrors := 0
  scope := if scope = "" then "default" else scope

def applyIngestCounts (job : IngestionJob) (stats : IngestionStats) (additive : Bool) :
    IngestionJob :=
  if additive then
    { job with
      lineCount := job.lineCount + stats.linesRead
      errorCount := job.errorCount + stats.errorCount
      parsedCount := job.parsedCount + stats.parsedCount }
  else
    { job with
      lineCount := stats.linesRead
      errorCount := stats.errorCount
      parsedCount := stats.parsedCount }

def storeJobCursors (job : IngestionJob) (cursors : Cursors) (completedStreams : Finset String)
    (adapterErrors : List String) (finalize : Bool) : IngestionJob :=
  let document := { job.metadata with cursors := some cursors }
  let document :=
    if finalize then
      { document with
        completedStreams := some completedStreams
        isPartial := document.isPartial || !adapterErrors.isEmpty }
    else document
  { job with cursor := .object cursors, metadata := document }

/-- What a call of an ingest function leaves: the rows, the job, and the exception if any.
After a database error the transaction is aborted and its caller rolls it back. -/
structure IngestRun (ρ : Type*) where
  rows : List ρ
  job : Option IngestionJob
  stats : IngestionStats
  error : Option IngestError

/-! Files and pushed lines. -/

section Batches

variable {α ρ κ : Type*} [DecidableEq κ]

/-- The end of a run over lines: the status of the job and the exception, if any. -/
def closeBatch (job : IngestionJob) (outcome : Progress ρ × Option IngestError) : IngestRun ρ :=
  let job := applyIngestCounts job outcome.1.stats false
  match outcome.2 with
  | none => ⟨outcome.1.rows, some { job with status := .completed }, outcome.1.stats, none⟩
  | some e =>
      ⟨outcome.1.rows, some { job with status := .failed, errorMessage := some e.message },
        outcome.1.stats, some e⟩

/-- Read lines to the end and write what is left. -/
def ingestLines (p : Pipeline α ρ κ) (s : Progress ρ) (lines : List α) :
    Progress ρ × Option IngestError :=
  match addLines p s lines with
  | (s, none) => finishLines p s
  | (s, some e) => (s, some e)

/-- Ingest the lines of discovered files, one file after the other. -/
def ingestFiles (p : Pipeline (String × α) ρ κ) (rows : List ρ) (paths : String)
    (files : List (String × List α)) (scope : String) : IngestRun ρ :=
  let stats := { IngestionStats.zero with filesProcessed := files.length }
  if files = [] then ⟨rows, none, stats, some (.noFiles paths)⟩
  else
    let sourceRef := ", ".intercalate ((files.take 5).map Prod.fst)
    let job := newJob .batch "file" (some sourceRef) files.length scope
    closeBatch job (ingestLines p ⟨rows, [], stats⟩
      (files.flatMap (fun file => file.2.map (fun line => (file.1, line)))))

def ingestPushLines (p : Pipeline α ρ κ) (rows : List ρ) (rawLines : List α) (scope : String) :
    IngestRun ρ :=
  closeBatch (newJob .push "push" (some "push") 0 scope)
    (ingestLines p ⟨rows, [], IngestionStats.zero⟩ rawLines)

end Batches

/-! Streams of an adapter. -/

/-- How the read of a stream ends. -/
inductive Ending
  | exhausted
  | unavailable (reason : String)
  | raised (reason : String)
deriving DecidableEq

/-- A read of a stream: its lines, each with the cursor the stream has when the line
comes out, how it ends, and the cursor it leaves. -/
structure StreamRead (α : Type*) where
  lines : List (α × Option String)
  ending : Ending
  cursor : Option String

/-- A discovered stream, with what the adapter reads from it in the window. -/
structure LogStreamRef (α : Type*) where
  streamId : String
  cursor : Option String
  read : Option String → StreamRead α

/-- The local variables of a run over streams. -/
structure SourceProgress (ρ : Type*) where
  progress : Progress ρ
  cursors : Cursors
  completedStreams : Finset String
  adapterErrors : List String

section Streams

variable {α ρ κ : Type*} [DecidableEq κ]

/-- The cursor a stream is read from. -/
def startCursor (resumeCursors : Cursors) (completedAtStart : Finset String)
    (ref : LogStreamRef α) : Option String :=
  if ref.streamId ∈ completedAtStart then ref.cursor
  else (resumeCursors.lookup ref.streamId).getD ref.cursor

/-- Read lines; a failed write stops at the line, with the cursor the stream has there. -/
def readLines (p : Pipeline α ρ κ) : Progress ρ → List (α × Option String) →
    Progress ρ × Option (IngestError × Option String)
  | s, [] => (s, none)
  | s, line :: rest =>
      match addLine p s line.1 with
      | (s, none) => readLines p s rest
      | (s, some e) => (s, some (e, line.2))

/-- The end of a stream's read, after the last line. -/
def endStream (finalize : Bool) (s : SourceProgress ρ) (streamId : String) (read : StreamRead α) :
    SourceProgress ρ × Option IngestError :=
  let s := { s with cursors := s.cursors.insert streamId read.cursor }
  match read.ending with
  | .exhausted =>
      if finalize && read.cursor.isNone then
        ({ s with completedStreams := insert streamId s.completedStreams }, none)
      else (s, none)
  | .unavailable reason => ({ s with adapterErrors := s.adapterErrors ++ [reason] }, none)
  | .raised reason => (s, some (.raised reason))

/-- Read one stream. Whatever happens, the cursor it is left with is recorded. -/
def readStream (p : Pipeline α ρ κ) (finalize : Bool) (s : SourceProgress ρ) (streamId : String)
    (read : StreamRead α) : SourceProgress ρ × Option IngestError :=
  match readLines p s.progress read.lines with
  | (progress, some (e, cursor)) =>
      ({ s with progress := progress, cursors := s.cursors.insert streamId cursor }, some e)
  | (progress, none) => endStream finalize { s with progress := progress } streamId read

def readStreams (p : Pipeline α ρ κ) (finalize : Bool) :
    SourceProgress ρ → List (String × StreamRead α) → SourceProgress ρ × Option IngestError
  | s, [] => (s, none)
  | s, (streamId, read) :: rest =>
      match readStream p finalize s streamId read with
      | (s, none) => readStreams p finalize s rest
      | (s, some e) => (s, some e)

/-- What follows the loop over the streams inside the try block. -/
def finishStreams (p : Pipeline α ρ κ) (s : SourceProgress ρ) :
    SourceProgress ρ × Option IngestError :=
  if s.adapterErrors ≠ [] ∧ s.progress.stats.linesRead = 0 then
    -- every stream failed before yielding anything
    (s, some (.adapterUnavailable ("; ".intercalate s.adapterErrors)))
  else
    match finishLines p s.progress with
    | (progress, e) => ({ s with progress := progress }, e)

def ingestStreams (p : Pipeline α ρ κ) (finalize : Bool) (s : SourceProgress ρ)
    (reads : List (String × StreamRead α)) : SourceProgress ρ × Option IngestError :=
  match readStreams p finalize s reads with
  | (s, none) => finishStreams p s
  | (s, some e) => (s, some e)

/-- The reads of the discovered streams that are not completed yet, in order. -/
def streamReads (refs : List (LogStreamRef α)) (resumeCursors : Cursors)
    (completedAtStart : Finset String) : List (String × StreamRead α) :=
  (refs.filter (fun ref => ref.streamId ∉ completedAtStart)).map
    (fun ref => (ref.streamId, ref.read (startCursor resumeCursors completedAtStart ref)))

/-- What a call of `ingestFromSource` is about. -/
structure SourceRequest (α : Type*) where
  adapter : String
  /-- The adapter and its parameters as text. -/
  spec : String
  /-- The streams found, or the exception raised before any is. -/
  discover : Except String (List (LogStreamRef α))
  resumeCursors : Cursors
  resumeCompletedStreams : Finset String
  scope : String

/-- The job the lines are appended to, or a new one. -/
def sourceJob (request : SourceRequest α) (refs : List (LogStreamRef α))
    (existingJob : Option IngestionJob) : IngestionJob :=
  let sourceRef := ", ".intercalate ((refs.take 5).map LogStreamRef.streamId)
  match existingJob with
  | some job =>
      { job with
        sourceRef := if (Text.truthy job.sourceRef).isNone then some sourceRef else job.sourceRef
        fileCount := max job.fileCount refs.length }
  | none => newJob .batch request.adapter (some sourceRef) refs.length request.scope

/-- Ingest from an adapter. With `finalize` the job ends completed or failed and its
cursors are stored in both cases; without it they are stored only on success. -/
def ingestFromSource (p : Pipeline α ρ κ) (rows : List ρ) (request : SourceRequest α)
    (existingJob : Option IngestionJob) (finalize : Bool) : IngestRun ρ :=
  match request.discover with
  | .error reason => ⟨rows, existingJob, IngestionStats.zero, some (.raised reason)⟩
  | .ok refs =>
      let stats := { IngestionStats.zero with filesProcessed := refs.length }
      if refs = [] then ⟨rows, existingJob, stats, some (.noStreams request.spec)⟩
      else
        let job := sourceJob request refs existingJob
        let reads := streamReads refs request.resumeCursors request.resumeCompletedStreams
        match ingestStreams p finalize
          ⟨⟨rows, [], stats⟩, ∅, request.resumeCompletedStreams, []⟩ reads with
        | (s, none) =>
            let job := applyIngestCounts job s.progress.stats existingJob.isSome
            let job := storeJobCursors job s.cursors s.completedStreams s.adapterErrors finalize
            let job := if finalize then { job with status := .completed } else job
            ⟨s.progress.rows, some job, s.progress.stats, none⟩
        | (s, some e) =>
            if finalize then
              let job := { job with status := .failed, errorMessage := some e.message }
              let job := applyIngestCounts job s.progress.stats existingJob.isSome
              let job := storeJobCursors job s.cursors s.completedStreams s.adapterErrors true
              ⟨s.progress.rows, some job, s.progress.stats, some e⟩
            else ⟨s.progress.rows, some job, s.progress.stats, some e⟩

end Streams

end Raglogs.Ingestion

import Raglogs.Accounting
import Raglogs.LineProcessing
import Raglogs.ParsingLaws

/-!
Whether one bad line is contained. A call of the ingestion service contains its lines
when it returns, accounts for every line, and stores of the other lines what it would
store if a line were absent. The columns decide: a value that its column does not take
fails the write of the whole batch, and only two columns cut their values.
-/

namespace Raglogs.Containment

open Accounting Collections Ingestion IngestionLaws LineProcessing LogEntries Normalization
open Parsing ParsingLaws Text Timestamps Upserts

/-- A call of one of the three entry points. -/
inductive Call
  | files (request : FilesRequest)
  | source (request : AdapterRequest)
  | push (request : PushRequest)

/-- The reads of the streams that a request to an adapter reaches. -/
def reads (request : AdapterRequest) : List (String × StreamRead RawLogLine) :=
  match request.source.discover with
  | .error _ => []
  | .ok refs => streamReads refs request.source.resumeCursors request.source.resumeCompletedStreams

namespace Call

/-- The lines that a call processes, each with its context. -/
def lines : Call → List RawLine
  | .files request => request.files.flatMap (fun file => file.lines.map (request.prepare file))
  | .source request => (linesOf (reads request)).map request.prepare
  | .push request => request.rawLines.map request.prepare

/-- The formats that are found once for a whole file. -/
def formats : Call → List String
  | .files request => request.files.map (fun file => detectFormat file request.format)
  | _ => []

def run (rt : Runtime) (batchSize : ℕ) (rows : List LogEntry) : Call → IngestRun LogEntry
  | .files request => ingestLogFiles rt batchSize rows request
  | .source request => ingestAdapter rt batchSize rows request
  | .push request => ingestPushedLines rt batchSize rows request

/-- The lines reach the service: there are files or streams, and no adapter fails. -/
inductive Delivers : Call → Prop
  | files {request : FilesRequest} (hfiles : request.files ≠ []) : Delivers (.files request)
  | source {request : AdapterRequest} {refs : List (LogStreamRef RawLogLine)}
      (hdiscover : request.source.discover = .ok refs) (hrefs : refs ≠ [])
      (hfailure : failureOf (reads request) = none) (hsome : ¬AllUnavailable (reads request)) :
      Delivers (.source request)
  | push (request : PushRequest) : Delivers (.push request)

/-- The same call where one line of a file, a stream or a push is absent. -/
inductive Without : Call → RawLine → Call → Prop
  | files {request : FilesRequest} {file : LogFile} {first last : List LogFile}
      {line : IncomingLine} {before after : List IncomingLine}
      (hfiles : request.files = first ++ file :: last)
      (hlines : file.lines = before ++ line :: after) :
      Without (.files request) (request.prepare file line)
        (.files { request with
          files := first ++ { file with lines := before ++ after } :: last })
  | source {request : AdapterRequest} {discover : Except String (List (LogStreamRef RawLogLine))}
      {streamId : String} {read : StreamRead RawLogLine}
      {first last : List (String × StreamRead RawLogLine)}
      {line : RawLogLine × Option String} {before after : List (RawLogLine × Option String)}
      (hreads : reads request = first ++ (streamId, read) :: last)
      (hlines : read.lines = before ++ line :: after)
      (hwithout : reads { request with source := { request.source with discover := discover } } =
        first ++ (streamId, { read with lines := before ++ after }) :: last) :
      Without (.source request) (request.prepare line.1)
        (.source { request with source := { request.source with discover := discover } })
  | push {request : PushRequest} {line : IncomingLine} {before after : List IncomingLine}
      (hlines : request.rawLines = before ++ line :: after) :
      Without (.push request) (request.prepare line)
        (.push { request with rawLines := before ++ after })

/-- A line that is absent is missing from the lines and nothing else changes, as long as
its file keeps its format. -/
theorem Without.lines_eq {call call' : Call} {line : RawLine} (h : call.Without line call')
    (hformats : call'.formats = call.formats) :
    ∃ before after, call.lines = before ++ line :: after ∧ call'.lines = before ++ after := by
  cases h with
  | @files request file first last line before after hfiles hlines =>
    simp only [formats, hfiles, List.map_append, List.map_cons, List.append_cancel_left_eq,
      List.cons.injEq, and_true] at hformats
    have hprepare : request.prepare { file with lines := before ++ after } =
        request.prepare file := by
      funext l
      simp only [FilesRequest.prepare, hformats]
    refine ⟨first.flatMap (fun f => f.lines.map (request.prepare f)) ++
        before.map (request.prepare file),
      after.map (request.prepare file) ++
        last.flatMap (fun f => f.lines.map (request.prepare f)), ?_, ?_⟩
    · simp [lines, hfiles, hlines]
    · have hother : ∀ f, FilesRequest.prepare { request with
          files := first ++ { file with lines := before ++ after } :: last } f =
          request.prepare f := fun _ => rfl
      simp [lines, hother, hprepare]
  | @source request discover streamId read first last line before after hreads hlines hwithout =>
    refine ⟨(linesOf first).map request.prepare ++ (before.map Prod.fst).map request.prepare,
      (after.map Prod.fst).map request.prepare ++ (linesOf last).map request.prepare, ?_, ?_⟩
    · simp [lines, hreads, linesOf, hlines]
    · have hsame : AdapterRequest.prepare
          { request with source := { request.source with discover := discover } } =
          request.prepare := rfl
      simp [lines, hwithout, linesOf, hsame]
  | @push request line before after hlines =>
    refine ⟨before.map request.prepare, after.map request.prepare, ?_, ?_⟩
    · simp [lines, hlines]
    · have hsame : PushRequest.prepare { request with rawLines := before ++ after } =
          request.prepare := rfl
      simp [lines, hsame]

end Call

/-! What the columns take. -/

/-- The values of a parsed line fit their columns. -/
structure Fits (rt : Runtime) (context : LineContext) (parsed : ParsedLogLine) : Prop where
  service : takes (some 255) (orElse parsed.service context.defaultService) = true
  environment : takes (some 100) (orElse parsed.environment context.defaultEnv) = true
  level : takes (some 50) parsed.level = true
  traceId : takes (some 255) parsed.traceId = true
  requestId : takes (some 255) parsed.requestId = true
  host : takes (some 255) (orElse parsed.host context.defaultHost) = true
  rawMessage : nulFree (take 4096 parsed.rawLine) = true
  normalizedMessage :
    nulFree (take 2048 (normalizeMessage rt.isWord (parsed.message.getD ""))) = true
  extra : fieldsNulFree (mergeExtra context.extra parsed.extra) = true
  sourceAdapter : takes (some 50) (some context.sourceAdapter) = true
  sourceRef : nulFree (context.sourceRef.getD "") = true
  scope : takes (some 255) (some context.scope) = true

/-- What a line parses to, if anything, fits. -/
def Storable (rt : Runtime) (line : RawLine) : Prop :=
  strip line.text ≠ "" → ∀ parsed,
    parseLine rt line.text line.context.format line.context.defaultService = .ok (some parsed) →
    truthy parsed.parseError = none → Fits rt line.context parsed

theorem nulFree_of_digits {s : String}
    (h : s.toList.all (fun c => asciiDigit c || hexLetter c) = true) : nulFree s = true := by
  rw [nulFree, List.all_eq_true]
  intro c hc
  have hdigit := List.all_eq_true.mp h c hc
  rw [bne_iff_ne]
  rintro rfl
  exact absurd hdigit (by decide)

theorem takes_sha256 (rt : Runtime) (text : String) :
    takes (some 64) (some (rt.sha256 text)) = true := by
  obtain ⟨hlength, hdigits⟩ := rt.sha256_digits text
  simp [takes, nulFree_of_digits hdigits, hlength]

theorem takes_fingerprint (rt : Runtime) (normalized : String) :
    takes (some 64) (some (computeFingerprint rt.sha256 normalized)) = true := by
  unfold computeFingerprint
  split
  · decide
  · obtain ⟨hlength, hdigits⟩ := rt.sha256_digits normalized
    have hsub : (take 16 (rt.sha256 normalized)).toList.all
        (fun c => asciiDigit c || hexLetter c) = true := by
      rw [List.all_eq_true] at hdigits ⊢
      intro c hc
      rw [take, String.toList_ofList] at hc
      exact hdigits c (List.mem_of_mem_take hc)
    have hshort : (take 16 (rt.sha256 normalized)).length ≤ 64 := by
      rw [take, String.length_ofList, List.length_take]
      omega
    simp [takes, nulFree_of_digits hsub, hshort]

/-- A column without a limit minds NUL characters only, also in a value cut to a length. -/
theorem takes_cut (n : ℕ) (s : String) :
    takes none ((truthy (some s)).map (take n)) = nulFree (take n s) := by
  by_cases hs : s = ""
  · subst hs
    have hempty : take n "" = "" := by
      rw [take, String.toList_empty, List.take_nil]
    rw [hempty]
    rfl
  · have htruthy : truthy (some s) = some s := truthy_eq_some.mpr ⟨rfl, hs⟩
    rw [htruthy]
    simp [takes]

theorem takes_scope (scope : String) :
    takes (some 255) (some (if scope = "" then "default" else scope)) =
      takes (some 255) (some scope) := by
  split
  · rename_i h
    subst h
    decide
  · rfl

theorem takesDocument_extra (extra : List (String × Json)) :
    takesDocument (if extra = [] then none else some (.obj extra)) = fieldsNulFree extra := by
  split
  · rename_i h
    rw [h]
    rfl
  · simp [takesDocument, jsonNulFree]

/-- The database takes the row of a parsed line exactly when its values fit. -/
theorem takesEntry_logEntry (rt : Runtime) (line : RawLine) (parsed : ParsedLogLine)
    (htype : takes (some 50) (some parsed.parserType) = true) :
    takesEntry (logEntry rt line parsed) = true ↔ Fits rt line.context parsed := by
  simp only [takesEntry, textColumns, logEntry, List.all_cons, List.all_nil, Bool.and_eq_true,
    Bool.and_true, takes_cut, takes_scope, takesDocument_extra, takes_sha256, htype,
    fingerprintParsed, fingerprintMessage, takes_fingerprint, true_and]
  constructor
  · rintro ⟨⟨h₁, h₂, h₃, h₄, h₅, h₆, h₇, h₈, h₉, h₁₀, h₁₁⟩, h₁₂⟩
    exact ⟨h₁, h₂, h₃, h₄, h₅, h₆, h₇, h₈, h₁₂, h₉, by simpa [takes] using h₁₀, h₁₁⟩
  · intro h
    exact ⟨⟨h.service, h.environment, h.level, h.traceId, h.requestId, h.host, h.rawMessage,
      h.normalizedMessage, h.sourceAdapter, by simpa [takes] using h.sourceRef, h.scope⟩, h.extra⟩

theorem takes_parserType {rt : Runtime} {line format : String} {defaultService : Option String}
    {parsed : ParsedLogLine} (h : parseLine rt line format defaultService = .ok (some parsed)) :
    takes (some 50) (some parsed.parserType) = true := by
  unfold parseLine at h
  split at h
  · rw [parseJsonLine_parserType h]
    decide
  · rw [(parseTextLine_isText line h).parserType_eq]
    decide

/-- The rows of a line: the row of what it parses to. -/
theorem processLine_eq_row {rt : Runtime} {line : RawLine} {e : LogEntry} :
    (processLine rt line).row? = some e ↔
      strip line.text ≠ "" ∧ ∃ parsed,
        parseLine rt line.text line.context.format line.context.defaultService =
          .ok (some parsed) ∧ truthy parsed.parseError = none ∧ logEntry rt line parsed = e := by
  unfold processLine
  split
  · rename_i hblank
    simp [LineOutcome.row?, hblank]
  · rename_i htext
    split
    · rename_i hparse
      simp [LineOutcome.row?, hparse]
    · rename_i hparse
      simp [LineOutcome.row?, hparse]
    · rename_i parsed hparse
      cases herror : truthy parsed.parseError with
      | none => simp [LineOutcome.row?, htext, hparse, herror]
      | some reason => simp [LineOutcome.row?, hparse, herror]

/-! What a call leaves. -/

/-- The rows that lines become. -/
def entriesOf (rt : Runtime) (lines : List RawLine) : List LogEntry :=
  lines.filterMap (fun line => (processLine rt line).row?)

/-- The lines that are errors. -/
def failuresOf (rt : Runtime) (lines : List RawLine) : List RawLine :=
  lines.filter (fun line => isError (processLine rt line))

theorem pipeline_processLine {α : Type} (rt : Runtime) (batchSize : ℕ) (prepare : α → RawLine) :
    (pipeline rt batchSize prepare).processLine = fun line => processLine rt (prepare line) := by
  simp only [pipeline]

theorem rowsOf_pipeline {α : Type} (rt : Runtime) (batchSize : ℕ) (prepare : α → RawLine)
    (lines : List α) :
    rowsOf (pipeline rt batchSize prepare) lines = entriesOf rt (lines.map prepare) := by
  simp only [rowsOf, pipeline_processLine, entriesOf, List.filterMap_map, Function.comp_def]

theorem length_errorsOf_pipeline {α : Type} (rt : Runtime) (batchSize : ℕ) (prepare : α → RawLine)
    (lines : List α) :
    (errorsOf (pipeline rt batchSize prepare) lines).length =
      (failuresOf rt (lines.map prepare)).length := by
  simp only [errorsOf, pipeline_processLine, failuresOf, List.filter_map, List.length_map,
    Function.comp_def]

/-- Every row that lines become is taken exactly when every line is storable. -/
theorem accepted_iff_storable {α : Type} (rt : Runtime) (batchSize : ℕ) (prepare : α → RawLine)
    (lines : List RawLine) :
    Accepted (pipeline rt batchSize prepare) (entriesOf rt lines) ↔
      ∀ line ∈ lines, Storable rt line := by
  simp only [Accepted, pipeline_accepts]
  constructor
  · intro h line hline htext parsed hparse herror
    rw [← takesEntry_logEntry rt line parsed (takes_parserType hparse)]
    refine h _ (List.mem_filterMap.mpr ⟨line, hline, ?_⟩)
    exact processLine_eq_row.mpr ⟨htext, parsed, hparse, herror, rfl⟩
  · intro h e he
    obtain ⟨line, hline, hrow⟩ := List.mem_filterMap.mp he
    obtain ⟨htext, parsed, hparse, herror, rfl⟩ := processLine_eq_row.mp hrow
    rw [takesEntry_logEntry rt line parsed (takes_parserType hparse)]
    exact h line hline htext parsed hparse herror

/-- What a call over lines leaves when it returns. -/
structure Returned (rt : Runtime) (rows : List LogEntry) (lines : List RawLine)
    (run : IngestRun LogEntry) : Prop where
  storable : ∀ line ∈ lines, Storable rt line
  rows_eq : run.rows = upsertAll dedupKey rows (entriesOf rt lines)
  linesRead_eq : run.stats.linesRead = lines.length
  parsedCount_eq : run.stats.parsedCount = (entriesOf rt lines).length
  errorCount_eq : run.stats.errorCount = (failuresOf rt lines).length
  balance : run.rows.length + run.stats.dedupedCount = rows.length + (entriesOf rt lines).length

/-- The state that every call starts from. -/
def startStats (files : ℕ) : IngestionStats := { IngestionStats.zero with filesProcessed := files }

theorem returned_of_counted {α : Type} {rt : Runtime} {batchSize files : ℕ}
    {prepare : α → RawLine} {rows : List LogEntry} {lines : List α} {s : Progress LogEntry}
    {run : IngestRun LogEntry}
    (haccepted : Accepted (pipeline rt batchSize prepare)
      (rowsOf (pipeline rt batchSize prepare) lines))
    (hrows : s.rows = upsertAll dedupKey rows (rowsOf (pipeline rt batchSize prepare) lines))
    (hcounted : Counted (pipeline rt batchSize prepare) lines ⟨rows, [], startStats files⟩ s)
    (hbatch : s.batch = []) (hrun : run.rows = s.rows ∧ run.stats = s.stats) :
    Returned rt rows (lines.map prepare) run := by
  obtain ⟨hrunRows, hstats⟩ := hrun
  have hread := hcounted.linesRead_eq
  have hparsed := hcounted.parsedCount_eq
  have herrors := hcounted.errorCount_eq
  have hbalance := hcounted.rows_eq
  rw [rowsOf_pipeline] at haccepted hrows hparsed hbalance
  rw [length_errorsOf_pipeline] at herrors
  refine ⟨(accepted_iff_storable rt _ _ _).mp haccepted, by rw [hrunRows, hrows], ?_, ?_, ?_, ?_⟩
  · rw [hstats, hread, List.length_map]
    exact Nat.zero_add _
  · rw [hstats, hparsed]
    exact Nat.zero_add _
  · rw [hstats, herrors]
    exact Nat.zero_add _
  · rw [hbatch] at hbalance
    rw [hrunRows, hstats]
    exact hbalance

/-- A batch over lines returns when every line is storable, and leaves their rows. -/
theorem closeBatch_returned {α : Type} {rt : Runtime} {batchSize files : ℕ}
    {prepare : α → RawLine} {rows : List LogEntry} {lines : List α} (job : IngestionJob)
    {run : IngestRun LogEntry}
    (hrun : run = closeBatch job (ingestLines (pipeline rt batchSize prepare)
      ⟨rows, [], startStats files⟩ lines)) :
    (run.error = none → Returned rt rows (lines.map prepare) run) ∧
      ((∀ line ∈ lines.map prepare, Storable rt line) → run.error = none) := by
  have hiff := accepted_iff_storable rt batchSize prepare (lines.map prepare)
  rw [← rowsOf_pipeline rt batchSize] at hiff
  by_cases h : Accepted (pipeline rt batchSize prepare)
      (rowsOf (pipeline rt batchSize prepare) lines)
  · obtain ⟨s, hlines, hrows⟩ := ingestLines_of_accepted rows
      (startStats files) h
    obtain ⟨hcounted, hbatch⟩ := counted_ingestLines hlines
    rw [hlines] at hrun
    subst hrun
    exact ⟨fun _ => returned_of_counted h hrows hcounted hbatch ⟨rfl, rfl⟩, fun _ => rfl⟩
  · obtain ⟨s, e, hlines⟩ := ingestLines_of_rejected rows (startStats files) h
    rw [hlines] at hrun
    subst hrun
    exact ⟨fun herror => absurd herror (by simp [closeBatch]), fun hall => absurd (hiff.mpr hall) h⟩

namespace Call

/-- The errors that the job of a call has before it. -/
def priorErrors : Call → ℕ
  | .source request =>
      match request.existingJob with
      | some job => job.errorCount
      | none => 0
  | _ => 0

/-- Whether a call ends its job. -/
def finalizes : Call → Bool
  | .source request => request.finalize
  | _ => true

/-- The job of a call has its errors, and is completed when the call ends it. -/
def Recorded (call : Call) (run : IngestRun LogEntry) : Prop :=
  ∃ job, run.job = some job ∧ job.errorCount = call.priorErrors + run.stats.errorCount ∧
    (call.finalizes = true → job.status = .completed)

variable {rt : Runtime} {batchSize : ℕ} {rows : List LogEntry}

theorem closeBatch_recorded {call : Call} {job : IngestionJob}
    {outcome : Progress LogEntry × Option IngestError} (hprior : call.priorErrors = 0)
    (herror : (closeBatch job outcome).error = none) : call.Recorded (closeBatch job outcome) := by
  unfold closeBatch at herror ⊢
  split at herror
  · refine ⟨_, rfl, ?_, fun _ => rfl⟩
    rw [hprior, Nat.zero_add]
    rfl
  · cases herror

/-- The lines of a request with the paths of their files. -/
def pathLines (request : FilesRequest) : List (String × RawLine) :=
  request.files.flatMap (fun file =>
    file.lines.map (fun line => (file.path, request.prepare file line)))

theorem pathLines_lines (request : FilesRequest) :
    (pathLines request).map Prod.snd = (Call.files request).lines := by
  simp [pathLines, lines, List.map_flatMap, Function.comp_def]

variable (rt batchSize rows) in
theorem files_run {request : FilesRequest} (hfiles : request.files ≠ []) :
    ∃ job, (Call.files request).run rt batchSize rows = closeBatch job
      (ingestLines (pipeline rt batchSize Prod.snd) ⟨rows, [], startStats request.files.length⟩
        (pathLines request)) := by
  have hne : request.files.map
      (fun file => (file.path, file.lines.map (request.prepare file))) ≠ [] :=
    fun h => hfiles (List.map_eq_nil_iff.mp h)
  have hlines : (request.files.map
      (fun file => (file.path, file.lines.map (request.prepare file)))).flatMap
      (fun file => file.2.map (fun line => (file.1, line))) = pathLines request := by
    simp [pathLines, List.flatMap_map, Function.comp_def]
  rw [run, ingestLogFiles, ingestFiles, if_neg hne, hlines, List.length_map]
  exact ⟨_, rfl⟩

theorem files_nonempty {request : FilesRequest}
    (herror : ((Call.files request).run rt batchSize rows).error = none) :
    request.files ≠ [] := by
  intro hempty
  simp [run, ingestLogFiles, ingestFiles, hempty] at herror

variable (rt batchSize rows) in
theorem push_run (request : PushRequest) :
    ∃ job, (Call.push request).run rt batchSize rows = closeBatch job
      (ingestLines (pipeline rt batchSize request.prepare) ⟨rows, [], startStats 0⟩
        request.rawLines) :=
  ⟨_, rfl⟩

variable (rt batchSize rows) in
/-- The run over the streams of an adapter decides what its call leaves. -/
theorem source_run {request : AdapterRequest} {refs : List (LogStreamRef RawLogLine)}
    (hdiscover : request.source.discover = .ok refs) (hrefs : refs ≠ []) :
    ∃ s e, ingestStreams (pipeline rt batchSize request.prepare) request.finalize
        (startState rows (startStats refs.length) request.source.resumeCompletedStreams)
        (reads request) = (s, e) ∧
      ((Call.source request).run rt batchSize rows).rows = s.progress.rows ∧
      ((Call.source request).run rt batchSize rows).stats = s.progress.stats ∧
      ((Call.source request).run rt batchSize rows).error = e ∧
      (e = none → (Call.source request).Recorded
        ((Call.source request).run rt batchSize rows)) := by
  have hreads : reads request = streamReads refs request.source.resumeCursors
      request.source.resumeCompletedStreams := by rw [reads, hdiscover]
  rw [hreads]
  unfold run ingestAdapter ingestFromSource
  simp only [hdiscover, if_neg hrefs]
  unfold startState
  split
  · rename_i s hstreams
    refine ⟨s, none, hstreams, rfl, rfl, rfl, fun _ => ⟨_, rfl, ?_, ?_⟩⟩
    · cases hjob : request.existingJob <;> cases hfinalize : request.finalize <;>
        simp [priorErrors, hjob, applyIngestCounts, storeJobCursors, sourceJob]
    · intro hfinalize
      rw [finalizes] at hfinalize
      rw [if_pos hfinalize]
  · rename_i s e hstreams
    refine ⟨s, some e, hstreams, ?_⟩
    split <;> exact ⟨rfl, rfl, rfl, fun h => absurd h (Option.some_ne_none e)⟩

theorem source_discovers {request : AdapterRequest}
    (herror : ((Call.source request).run rt batchSize rows).error = none) :
    ∃ refs, request.source.discover = .ok refs ∧ refs ≠ [] := by
  unfold run ingestAdapter ingestFromSource at herror
  cases hdiscover : request.source.discover with
  | error reason => simp [hdiscover] at herror
  | ok refs =>
    refine ⟨refs, rfl, ?_⟩
    rintro rfl
    simp [hdiscover] at herror

/-- A call that returns has stored and counted its lines. -/
theorem run_returned {call : Call} (herror : (call.run rt batchSize rows).error = none) :
    Returned rt rows call.lines (call.run rt batchSize rows) ∧
      call.Recorded (call.run rt batchSize rows) := by
  cases call with
  | files request =>
    obtain ⟨job, hrun⟩ := files_run rt batchSize rows (files_nonempty herror)
    rw [← pathLines_lines]
    refine ⟨(closeBatch_returned job hrun).1 herror, ?_⟩
    rw [hrun] at herror ⊢
    exact closeBatch_recorded rfl herror
  | push request =>
    obtain ⟨job, hrun⟩ := push_run rt batchSize rows request
    refine ⟨(closeBatch_returned job hrun).1 herror, ?_⟩
    rw [hrun] at herror ⊢
    exact closeBatch_recorded rfl herror
  | source request =>
    obtain ⟨refs, hdiscover, hrefs⟩ := source_discovers herror
    obtain ⟨s, e, hstreams, hrunRows, hstats, hrunError, hrecorded⟩ :=
      source_run rt batchSize rows hdiscover hrefs
    have houtcome := ingestStreams_outcome (pipeline rt batchSize request.prepare)
      request.finalize rows (startStats refs.length) rfl request.source.resumeCompletedStreams
      (reads request)
    rw [herror] at hrunError
    subst hrunError
    rw [hstreams] at houtcome
    cases houtcome with
    | finished hfailure hsome hread haccepted hrows =>
      obtain ⟨hcounted, hbatch⟩ := counted_ingestStreams hstreams
      exact ⟨returned_of_counted haccepted hrows hcounted hbatch ⟨hrunRows, hstats⟩,
        hrecorded rfl⟩

variable (batchSize rows) in
/-- A call whose lines reach the service returns when they are all storable. -/
theorem run_of_storable {call : Call} (hcall : call.Delivers)
    (h : ∀ line ∈ call.lines, Storable rt line) : (call.run rt batchSize rows).error = none := by
  cases hcall with
  | @files request hfiles =>
    obtain ⟨job, hrun⟩ := files_run rt batchSize rows hfiles
    rw [← pathLines_lines] at h
    exact (closeBatch_returned job hrun).2 h
  | push request =>
    obtain ⟨job, hrun⟩ := push_run rt batchSize rows request
    exact (closeBatch_returned job hrun).2 h
  | @source request refs hdiscover hrefs hfailure hsome =>
    obtain ⟨s, e, hstreams, -, -, hrunError, -⟩ := source_run rt batchSize rows hdiscover hrefs
    have houtcome := ingestStreams_outcome (pipeline rt batchSize request.prepare)
      request.finalize rows (startStats refs.length) rfl request.source.resumeCompletedStreams
      (reads request)
    rw [hstreams] at houtcome
    rw [hrunError]
    cases houtcome with
    | rejected hrejected _ =>
      rw [attempted_eq_of_failure_none hfailure, rowsOf_pipeline] at hrejected
      exact absurd ((accepted_iff_storable rt _ _ _).mpr h) hrejected
    | raised hraised _ _ =>
      rw [hfailure] at hraised
      cases hraised
    | unavailable _ hall _ _ => exact absurd hall hsome
    | finished _ _ _ _ _ => rfl

end Call

/-- The service contains the lines of a call: none of their contents makes it fail, each
is stored or accounted for, and if a line were absent the others would be stored the same. -/
structure Contained (rt : Runtime) (batchSize : ℕ) (rows : List LogEntry) (call : Call) :
    Prop where
  returned : (call.run rt batchSize rows).error = none
  recorded : call.Recorded (call.run rt batchSize rows)
  linesRead_eq : (call.run rt batchSize rows).stats.linesRead = call.lines.length
  errorCount_eq :
    (call.run rt batchSize rows).stats.errorCount = (failuresOf rt call.lines).length
  balance : (call.run rt batchSize rows).rows.length +
      (call.run rt batchSize rows).stats.dedupedCount =
    rows.length + (entriesOf rt call.lines).length
  stored : ∀ e ∈ entriesOf rt call.lines, Holds dedupKey (call.run rt batchSize rows).rows e
  others : ∀ line call', call.Without line call' →
    (call'.run rt batchSize rows).error = none →
      AgreeOff dedupKey (entriesOf rt [line]) (call.run rt batchSize rows).rows
        (call'.run rt batchSize rows).rows

/-- The other lines parse to the same rows with a line as without it, as far as they are new
to the table and the first of their key. -/
def SameElsewhere (rt : Runtime) (rows : List LogEntry) (call : Call) (line : RawLine)
    (call' : Call) : Prop :=
  (∀ line ∈ call'.lines, Storable rt line) → ∀ e,
    (∀ g ∈ entriesOf rt [line], identity dedupKey e ≠ identity dedupKey g) →
      e ∉ rows → conflicts dedupKey rows e = false →
        (FirstOf dedupKey (entriesOf rt call.lines) e ↔
          FirstOf dedupKey (entriesOf rt call'.lines) e)

theorem sameElsewhere_iff {rt : Runtime} {rows : List LogEntry} {call call' : Call}
    {line : RawLine} :
    SameElsewhere rt rows call line call' ↔ ((∀ line ∈ call'.lines, Storable rt line) →
      AgreeOff dedupKey (entriesOf rt [line]) (upsertAll dedupKey rows (entriesOf rt call.lines))
        (upsertAll dedupKey rows (entriesOf rt call'.lines))) := by
  refine forall_congr' fun _ => forall₂_congr fun e _ => ?_
  rw [mem_upsertAll, mem_upsertAll]
  tauto

theorem agreeOff_of_formats {rt : Runtime} {rows : List LogEntry} {call call' : Call}
    {line : RawLine} (h : call.Without line call') (hformats : call'.formats = call.formats) :
    AgreeOff dedupKey (entriesOf rt [line]) (upsertAll dedupKey rows (entriesOf rt call.lines))
      (upsertAll dedupKey rows (entriesOf rt call'.lines)) := by
  obtain ⟨before, after, hlines, hlines'⟩ := h.lines_eq hformats
  have hsplit : entriesOf rt call.lines =
      entriesOf rt before ++ entriesOf rt [line] ++ entriesOf rt after := by
    rw [hlines, entriesOf, entriesOf, entriesOf, entriesOf, ← List.filterMap_append,
      ← List.filterMap_append, List.append_assoc, List.singleton_append]
  have hsplit' : entriesOf rt call'.lines = entriesOf rt before ++ entriesOf rt after := by
    rw [hlines', entriesOf, entriesOf, entriesOf, List.filterMap_append]
  rw [hsplit, hsplit']
  exact agreeOff_of_left_out rows _ _ _

/-- The service contains the lines of a call exactly when what every line parses to fits
its columns, and the format of a file hangs on none of its lines unless that makes no
difference to the others. -/
theorem contained_iff (rt : Runtime) (batchSize : ℕ) (rows : List LogEntry) (call : Call)
    (hcall : call.Delivers) :
    Contained rt batchSize rows call ↔
      (∀ line ∈ call.lines, Storable rt line) ∧
        ∀ line call', call.Without line call' →
          call'.formats = call.formats ∨ SameElsewhere rt rows call line call' := by
  constructor
  · intro h
    obtain ⟨hreturned, -⟩ := Call.run_returned h.returned
    refine ⟨hreturned.storable, fun line call' hwithout => ?_⟩
    by_cases hformats : call'.formats = call.formats
    · exact .inl hformats
    · refine .inr (sameElsewhere_iff.mpr fun hstorable => ?_)
      have hdelivers : call'.Delivers := by
        cases hwithout with
        | files _ _ => exact .files (by simp)
        | source _ _ _ => exact absurd rfl hformats
        | push _ => exact .push _
      have herror := Call.run_of_storable batchSize rows hdelivers hstorable
      have hothers := h.others line call' hwithout herror
      rwa [hreturned.rows_eq, (Call.run_returned herror).1.rows_eq] at hothers
  · rintro ⟨hstorable, hformats⟩
    have herror := Call.run_of_storable batchSize rows hcall hstorable
    obtain ⟨hreturned, hrecorded⟩ := Call.run_returned herror
    refine ⟨herror, hrecorded, hreturned.linesRead_eq, hreturned.errorCount_eq,
      hreturned.balance, ?_, ?_⟩
    · intro e he
      rw [hreturned.rows_eq, holds_upsertAll]
      exact .inr (holds_of_mem he)
    · intro line call' hwithout herror'
      have hreturned' := (Call.run_returned herror').1
      rw [hreturned.rows_eq, hreturned'.rows_eq]
      rcases hformats line call' hwithout with hkept | hsame
      · exact agreeOff_of_formats hwithout hkept
      · exact sameElsewhere_iff.mp hsame hreturned'.storable

/-! Pushed lines. -/

def goodLine : String := "\x7b\"msg\":\"ok\"\x7d"

def lateLine : String := "\x7b\"msg\":\"late\"\x7d"

/-- A line that writes a NUL character as an escape. -/
def nulLine : String := "\x7b\"msg\":\"\\u0000\"\x7d"

/-- The digests of the lines and of their messages. -/
def sampleDigest (text : String) : String :=
  if text = goodLine then
    "5ed04047792d91867d5074d8d50e9542c3b85bf936bf826e7348ad57aca57671"
  else if text = lateLine then
    "96dbc86c9f03d6c0561e872dce82547c0cfd2799de57465bc9f9a0895521a9c2"
  else if text = "late" then
    "089001a35679a33ef3db0ca350db9b9a2f0136e0e327577b04b3b98127470961"
  else if text = nulLine then
    "f38bf8acb29575a7afa823a242f37ad86c51e706a0a5e97683cd657010d17755"
  else if text = "ok" then
    "2689367b205c16ce32ed4200942b8b8b1e262dfc70d9bc9fbc77c49699a4f1df"
  else
    "6e340b9cffb37a989ca544e6bb780a2c78901d3fb33738768511a30617afa01d"

theorem sampleDigest_digits (text : String) : (sampleDigest text).length = 64 ∧
    (sampleDigest text).toList.all (fun c => asciiDigit c || hexLetter c) = true := by
  unfold sampleDigest
  split_ifs <;> decide

def sampleLoads (text : String) : Except String Json :=
  if text = goodLine then .ok (.obj [("msg", .str "ok")])
  else if text = lateLine then .ok (.obj [("msg", .str "late")])
  else if text = nulLine then .ok (.obj [("msg", .str "\x00")])
  else .error "unexpected character"

def sampleRuntime : Runtime where
  isWord c := asciiLetter c || asciiDigit c || c == '_'
  lowering := asciiLowering
  loads := sampleLoads
  repr _ := ""
  fromIsoformat _ := .error .value
  dateutilParse _ := .error .value
  fromTimestamp _ := .error .overflow
  toFloat _ := none
  thousandth x := x / 1000
  sha256 := sampleDigest
  sha256_digits := sampleDigest_digits

def pushOf (rawLines : List IncomingLine) : Call :=
  .push ⟨rawLines, none, none, "auto", 0, "default"⟩

/-- Lines that fit, one of them blank. -/
def goodLines : List IncomingLine := [(1, goodLine), (2, "  "), (3, lateLine)]

/-- A push of lines that fit is contained. -/
theorem good_lines_contained : Contained sampleRuntime 2 [] (pushOf goodLines) := by
  refine (contained_iff sampleRuntime 2 [] (pushOf goodLines) (.push _)).mpr ⟨?_, ?_⟩
  · refine (accepted_iff_storable sampleRuntime 2 id _).mp ?_
    have hall : ∀ e ∈ entriesOf sampleRuntime (pushOf goodLines).lines, takesEntry e = true := by
      decide +kernel
    exact fun e he => (pipeline_accepts sampleRuntime 2 id e).trans (hall e he)
  · intro line call' hwithout
    cases hwithout
    exact .inl rfl

/-- One line with a NUL character fails the push of another. -/
theorem nul_line_not_contained :
    (pushOf [(1, goodLine), (2, nulLine)]).Delivers ∧
      ¬Contained sampleRuntime 500 [] (pushOf [(1, goodLine), (2, nulLine)]) := by
  refine ⟨.push _, fun h => ?_⟩
  have hreturned := h.returned
  revert hreturned
  decide +kernel

end Raglogs.Containment

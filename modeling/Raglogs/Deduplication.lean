import Raglogs.Containment

/-!
The accounts of an ingestion and the rows it stores. Every line is blank, an error or
parsed, every parsed one inserted or a duplicate. The unique index holds whatever is
ingested, however the rows are batched, and a repeated line with the same timestamp
inserts nothing.
-/

namespace Raglogs.Deduplication

open Accounting Collections Containment Ingestion IngestionLaws LineProcessing LogEntries Parsing
  Text Timestamps Upserts

section Inserts

variable {ρ κ : Type*} [DecidableEq κ] (key : ρ → Option κ)

/-- What an insert of some rows adds: rows of them, with keys that were free. -/
theorem exists_inserted (rows batch : List ρ) : ∃ inserted,
    upsertAll key rows batch = rows ++ inserted ∧
      ∀ r ∈ inserted, r ∈ batch ∧ conflicts key rows r = false := by
  induction batch generalizing rows with
  | nil => exact ⟨[], (List.append_nil rows).symm, by simp⟩
  | cons b batch ih =>
    obtain ⟨inserted, hrows, hall⟩ := ih (upsert key rows b)
    rw [upsertAll, List.foldl_cons, ← upsertAll, hrows]
    by_cases hconflicts : conflicts key rows b = true
    · rw [upsert, if_pos hconflicts] at hall ⊢
      exact ⟨inserted, rfl, fun r hr => ⟨List.mem_cons_of_mem b (hall r hr).1, (hall r hr).2⟩⟩
    · rw [upsert, if_neg hconflicts, List.append_assoc]
      rw [upsert, if_neg hconflicts] at hall
      refine ⟨[b] ++ inserted, rfl, ?_⟩
      intro r hr
      rcases List.mem_cons.mp hr with rfl | hr
      · exact ⟨List.mem_cons_self, Bool.eq_false_iff.mpr hconflicts⟩
      · obtain ⟨hmem, hfree⟩ := hall r hr
        refine ⟨List.mem_cons_of_mem b hmem, Bool.eq_false_iff.mpr fun htaken => ?_⟩
        -- a key that is taken before an insert is taken after it
        obtain ⟨k, hk, r', hr', hkey⟩ := conflicts_iff.mp htaken
        have htaken' := conflicts_iff.mpr ⟨k, hk, r', List.mem_append_left [b] hr', hkey⟩
        rw [hfree] at htaken'
        cases htaken'

end Inserts

/-- Rows as the unique index admits them. -/
structure LogTable where
  rows : List LogEntry
  unique : rows.Pairwise fun e e' => ∀ k, dedupKey e = some k → dedupKey e' ≠ some k

/-! Lines and what they count as. -/

def blankLines (lines : List RawLine) : List RawLine :=
  lines.filter fun line => strip line.text = ""

section Lines

variable {rt : Runtime}

theorem parseTextLine_isSome {line : String} {defaultService : Option String}
    (hline : strip line ≠ "") : parseTextLine rt line defaultService true false ≠ .ok none := by
  have hok : ∀ parsed : ParsedLogLine, (pure (some parsed) : Except Raised _) ≠ .ok none :=
    fun parsed h => Option.some_ne_none parsed (Except.ok.inj h)
  intro h
  rw [parseTextLine, parseTextLineBy, if_neg hline] at h
  split at h
  · obtain ⟨_, -, h⟩ := bind_eq_ok.mp h
    obtain ⟨_, -, h⟩ := bind_eq_ok.mp h
    exact hok _ h
  · split at h
    · obtain ⟨_, -, h⟩ := bind_eq_ok.mp h
      exact hok _ h
    · obtain ⟨_, -, h⟩ := bind_eq_ok.mp h
      exact hok _ h

theorem parseJsonLine_isSome {line : String} {defaultService : Option String}
    (hline : strip line ≠ "") : parseJsonLine rt line defaultService ≠ .ok none := by
  have hok : ∀ parsed : ParsedLogLine, (pure (some parsed) : Except Raised _) ≠ .ok none :=
    fun parsed h => Option.some_ne_none parsed (Except.ok.inj h)
  intro h
  rw [parseJsonLine, if_neg hline] at h
  split at h
  · exact hok _ h
  · obtain ⟨_, -, h⟩ := bind_eq_ok.mp h
    exact hok _ h
  · exact hok _ h

/-- A line that is not blank is parsed or an error. -/
theorem parseLine_isSome {line format : String} {defaultService : Option String}
    (hline : strip line ≠ "") : parseLine rt line format defaultService ≠ .ok none := by
  unfold parseLine
  split
  · exact parseJsonLine_isSome hline
  · exact parseTextLine_isSome hline

/-- Each line counts once. -/
theorem length_eq (lines : List RawLine) : lines.length =
    (blankLines lines).length + (failuresOf rt lines).length + (entriesOf rt lines).length := by
  induction lines with
  | nil => rfl
  | cons line lines ih =>
    rw [blankLines, failuresOf, entriesOf, List.filter_cons, List.filter_cons,
      List.filterMap_cons, ← blankLines, ← failuresOf, ← entriesOf, List.length_cons, ih]
    by_cases hblank : strip line.text = ""
    · simp [processLine, hblank, isError, LineOutcome.row?]
      omega
    · cases hparse : parseLine rt line.text line.context.format line.context.defaultService with
      | error e =>
        simp [processLine, hblank, hparse, isError, LineOutcome.row?]
        omega
      | ok parsed? =>
        cases parsed? with
        | none => exact absurd hparse (parseLine_isSome hblank)
        | some parsed =>
          cases herror : truthy parsed.parseError with
          | none =>
            simp [processLine, hblank, hparse, herror, isError, LineOutcome.row?]
            omega
          | some reason =>
            simp [processLine, hblank, hparse, herror, isError, LineOutcome.row?]
            omega

/-- The timestamp of the row that a line becomes. -/
def resolvedTimestamp (rt : Runtime) (line : RawLine) : Option Timestamp :=
  (processLine rt line).row?.bind LogEntry.timestamp

/-- A line comes again: the same text from the same place in the same scope, with the same
timestamp. -/
structure Repeats (rt rt' : Runtime) (line line' : RawLine) : Prop where
  text : line'.text = line.text
  sourceRef : line'.context.sourceRef = line.context.sourceRef
  scope : line'.context.scope = line.context.scope
  timestamp : resolvedTimestamp rt' line' = resolvedTimestamp rt line

theorem dedupKey_logEntry (line : RawLine) (parsed : ParsedLogLine) :
    dedupKey (logEntry rt line parsed) =
      (logEntry rt line parsed).timestamp.map fun t => ((logEntry rt line parsed).scope,
        line.context.sourceRef.getD "", rt.sha256 line.text, t) := by
  cases ht : (logEntry rt line parsed).timestamp with
  | none =>
    unfold dedupKey
    rw [ht]
    rfl
  | some t =>
    unfold dedupKey
    rw [ht]
    rfl

/-- A line that comes again makes a row with the key of the row of the first one. -/
theorem Repeats.key {rt' : Runtime} {line line' : RawLine} (h : Repeats rt rt' line line')
    (hdigest : rt'.sha256 = rt.sha256) {e' : LogEntry}
    (he' : (processLine rt' line').row? = some e') {t : Timestamp} (ht : e'.timestamp = some t) :
    ∃ e k, (processLine rt line).row? = some e ∧ dedupKey e = some k ∧ dedupKey e' = some k := by
  have htimestamp : resolvedTimestamp rt line = some t := by
    rw [← h.timestamp, resolvedTimestamp, he', Option.bind_some, ht]
  obtain ⟨e, he, hte⟩ := Option.bind_eq_some_iff.mp htimestamp
  obtain ⟨-, parsed, -, -, rfl⟩ := processLine_eq_row.mp he
  obtain ⟨-, parsed', -, -, rfl⟩ := processLine_eq_row.mp he'
  refine ⟨_, ((logEntry rt line parsed).scope, line.context.sourceRef.getD "",
    rt.sha256 line.text, t), he, ?_, ?_⟩
  · rw [dedupKey_logEntry, hte]
    rfl
  · rw [dedupKey_logEntry, ht, h.text, h.sourceRef, hdigest, Option.map_some]
    have hscope : (logEntry rt' line' parsed').scope = (logEntry rt line parsed).scope := by
      change (if line'.context.scope = "" then "default" else line'.context.scope) = _
      rw [h.scope]
      rfl
    rw [hscope]

end Lines

/-! Calls. -/

section Calls

variable {rt : Runtime} {batchSize : ℕ} {call : Call}

theorem delivers_of_returns {rows : List LogEntry}
    (hsuccess : (call.run rt batchSize rows).error = none) : call.Delivers := by
  cases call with
  | files request => exact .files (Call.files_nonempty hsuccess)
  | push request => exact .push request
  | source request =>
    obtain ⟨refs, hdiscover, hrefs⟩ := Call.source_discovers hsuccess
    obtain ⟨s, e, hstreams, -, -, hrunError, -⟩ :=
      Call.source_run rt batchSize rows hdiscover hrefs
    have houtcome := ingestStreams_outcome (pipeline rt batchSize request.prepare)
      request.finalize rows (startStats refs.length) rfl request.source.resumeCompletedStreams
      (reads request)
    rw [hsuccess] at hrunError
    subst hrunError
    rw [hstreams] at houtcome
    cases houtcome with
    | finished hfailure hsome _ _ _ => exact .source hdiscover hrefs hfailure hsome

/-- A call that returns does so with any batch size, and leaves the same rows. -/
theorem run_of_batchSize {rows : List LogEntry}
    (hsuccess : (call.run rt batchSize rows).error = none) (batchSize' : ℕ) :
    (call.run rt batchSize' rows).error = none ∧
      (call.run rt batchSize' rows).rows = (call.run rt batchSize rows).rows := by
  have hreturned := (Call.run_returned hsuccess).1
  have hsuccess' : (call.run rt batchSize' rows).error = none :=
    Call.run_of_storable batchSize' rows (delivers_of_returns hsuccess) hreturned.storable
  exact ⟨hsuccess', by rw [(Call.run_returned hsuccess').1.rows_eq, hreturned.rows_eq]⟩

/-- What a second call inserts that repeats lines of the first one has no timestamp. -/
theorem timestamp_of_repeated {rt' : Runtime} {batchSize' : ℕ} {call' : Call}
    {rows rows' : List LogEntry} (hsuccess : (call.run rt batchSize rows).error = none)
    (hrows : (call.run rt batchSize rows).rows ⊆ rows') (hdigest : rt'.sha256 = rt.sha256)
    (hrepeats : ∀ line' ∈ call'.lines, ∃ line ∈ call.lines, Repeats rt rt' line line')
    (hsuccess' : (call'.run rt' batchSize' rows').error = none) :
    ∃ inserted, (call'.run rt' batchSize' rows').rows = rows' ++ inserted ∧
      ∀ e ∈ inserted, e.timestamp = none := by
  obtain ⟨inserted, hinserted, hall⟩ :=
    exists_inserted dedupKey rows' (entriesOf rt' call'.lines)
  refine ⟨inserted, by rw [(Call.run_returned hsuccess').1.rows_eq, hinserted], ?_⟩
  intro e' he'
  obtain ⟨hentry, hfree⟩ := hall e' he'
  obtain ⟨line', hline', hrow'⟩ := List.mem_filterMap.mp hentry
  obtain ⟨line, hline, hrepeat⟩ := hrepeats line' hline'
  by_contra htimestamp
  obtain ⟨t, ht⟩ := Option.ne_none_iff_exists'.mp htimestamp
  obtain ⟨e, k, hrow, hkey, hkey'⟩ := hrepeat.key hdigest hrow' ht
  -- the row of the first line, or one with its key, is stored
  have hstored : Holds dedupKey (call.run rt batchSize rows).rows e := by
    rw [(Call.run_returned hsuccess).1.rows_eq, holds_upsertAll]
    exact Or.inr (holds_of_mem (List.mem_filterMap.mpr ⟨line, hline, hrow⟩))
  obtain ⟨r, hr, hidentity⟩ := hstored
  have hrkey : dedupKey r = some k := by
    unfold identity at hidentity
    rw [hkey] at hidentity
    split at hidentity
    · rename_i k' hk'
      rw [hk', Sum.inl.inj hidentity]
    · cases hidentity
  have htaken := conflicts_iff.mpr ⟨k, hkey', r, hrows hr, hrkey⟩
  rw [hfree] at htaken
  cases htaken

/-- What an ingestion that returns counts and stores. -/
theorem ingest_accounting (rt : Runtime) (batchSize : ℕ) (table : LogTable) (call : Call)
    (hsuccess : (call.run rt batchSize table.rows).error = none) :
    (call.run rt batchSize table.rows).stats.linesRead =
      (blankLines call.lines).length + (call.run rt batchSize table.rows).stats.errorCount +
        (call.run rt batchSize table.rows).stats.parsedCount ∧
    (∃ inserted, (call.run rt batchSize table.rows).rows = table.rows ++ inserted ∧
      (call.run rt batchSize table.rows).stats.parsedCount =
        inserted.length + (call.run rt batchSize table.rows).stats.dedupedCount) ∧
    (∃ table' : LogTable, table'.rows = (call.run rt batchSize table.rows).rows) ∧
    (∀ batchSize', (call.run rt batchSize' table.rows).error = none ∧
      (call.run rt batchSize' table.rows).rows = (call.run rt batchSize table.rows).rows) ∧
    ∀ (rt' : Runtime) (batchSize' : ℕ) (table' : LogTable) (call' : Call),
      (call.run rt batchSize table.rows).rows ⊆ table'.rows → rt'.sha256 = rt.sha256 →
      (∀ line' ∈ call'.lines, ∃ line ∈ call.lines, Repeats rt rt' line line') →
      (call'.run rt' batchSize' table'.rows).error = none →
      ∃ inserted, (call'.run rt' batchSize' table'.rows).rows = table'.rows ++ inserted ∧
        ∀ e ∈ inserted, e.timestamp = none := by
  have hreturned := (Call.run_returned hsuccess).1
  obtain ⟨inserted, hinserted, -⟩ :=
    exists_inserted dedupKey table.rows (entriesOf rt call.lines)
  have hrows := hreturned.rows_eq.trans hinserted
  have hbalance := hreturned.balance
  rw [hrows, List.length_append] at hbalance
  have hunique := pairwise_upsertAll table.unique (entriesOf rt call.lines)
  rw [← hreturned.rows_eq] at hunique
  refine ⟨?_, ⟨inserted, hrows, ?_⟩, ⟨⟨_, hunique⟩, rfl⟩, run_of_batchSize hsuccess, ?_⟩
  · rw [hreturned.linesRead_eq, hreturned.errorCount_eq, hreturned.parsedCount_eq]
    exact length_eq call.lines
  · rw [hreturned.parsedCount_eq]
    omega
  · intro rt' batchSize' table' call' hsub hdigest hrepeats hsuccess'
    exact timestamp_of_repeated hsuccess hsub hdigest hrepeats hsuccess'

/-- A blank line between two others. -/
theorem ingest_accounting_blank :
    ((pushOf [(1, goodLine), (2, ""), (3, goodLine)]).run sampleRuntime 2 []).stats.linesRead =
      1 + 0 + 2 := by
  have hsuccess : ((pushOf [(1, goodLine), (2, ""), (3, goodLine)]).run sampleRuntime 2
      ({ rows := [], unique := List.Pairwise.nil } : LogTable).rows).error = none := by
    decide +kernel
  have hcounts := (ingest_accounting sampleRuntime 2 ⟨[], List.Pairwise.nil⟩ _ hsuccess).1
  rw [hcounts]
  decide +kernel

end Calls

end Raglogs.Deduplication

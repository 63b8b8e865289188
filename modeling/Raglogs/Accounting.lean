import Raglogs.IngestionLaws

/-!
What a run counts. Every line is counted once as read, and as an error or as parsed
where it is one; every row built is in the table, in the batch or counted as a
duplicate. A run that fails stops counting, so these are facts about runs that do not.
-/

namespace Raglogs.Accounting

open Upserts Ingestion IngestionLaws

variable {α ρ κ : Type*}

def isError : LineOutcome ρ → Bool
  | .error => true
  | _ => false

/-- The lines that become an error. -/
def errorsOf (p : Pipeline α ρ κ) (lines : List α) : List α :=
  lines.filter (fun line => isError (p.processLine line))

theorem errorsOf_append (p : Pipeline α ρ κ) (lines lines' : List α) :
    errorsOf p (lines ++ lines') = errorsOf p lines ++ errorsOf p lines' :=
  List.filter_append _ _

/-- The counters of a run over lines against the lines. -/
structure Counted (p : Pipeline α ρ κ) (lines : List α) (s s' : Progress ρ) : Prop where
  linesRead_eq : s'.stats.linesRead = s.stats.linesRead + lines.length
  errorCount_eq : s'.stats.errorCount = s.stats.errorCount + (errorsOf p lines).length
  parsedCount_eq : s'.stats.parsedCount = s.stats.parsedCount + (rowsOf p lines).length
  rows_eq : s'.rows.length + s'.batch.length + s'.stats.dedupedCount =
    s.rows.length + s.batch.length + s.stats.dedupedCount + (rowsOf p lines).length

theorem Counted.refl (p : Pipeline α ρ κ) (s : Progress ρ) : Counted p [] s s :=
  ⟨rfl, rfl, rfl, rfl⟩

theorem Counted.append {p : Pipeline α ρ κ} {lines lines' : List α} {s s₁ s₂ : Progress ρ}
    (h : Counted p lines s s₁) (h' : Counted p lines' s₁ s₂) :
    Counted p (lines ++ lines') s s₂ where
  linesRead_eq := by
    rw [h'.linesRead_eq, h.linesRead_eq, List.length_append, Nat.add_assoc]
  errorCount_eq := by
    rw [h'.errorCount_eq, h.errorCount_eq, errorsOf_append, List.length_append, Nat.add_assoc]
  parsedCount_eq := by
    rw [h'.parsedCount_eq, h.parsedCount_eq, rowsOf_append, List.length_append, Nat.add_assoc]
  rows_eq := by
    rw [h'.rows_eq, h.rows_eq, rowsOf_append, List.length_append, Nat.add_assoc]

/-- A line is counted once, and its row is one more row to account for. -/
theorem counted_recordLine (p : Pipeline α ρ κ) (s : Progress ρ) (line : α) :
    Counted p [line] s
      ⟨s.rows, s.batch ++ rowsOf p [line], recordLine p s.stats line⟩ := by
  unfold recordLine
  cases h : p.processLine line with
  | blank => constructor <;> simp [errorsOf, isError, rowsOf, LineOutcome.row?, h]
  | error => constructor <;> simp [errorsOf, isError, rowsOf, LineOutcome.row?, h]
  | row r =>
    constructor <;> simp [errorsOf, isError, rowsOf, LineOutcome.row?, h]
    omega

variable [DecidableEq κ]

/-- A write that does not fail empties the batch and accounts for all of it. -/
theorem counted_flush {p : Pipeline α ρ κ} {s s' : Progress ρ}
    (h : flushAndCount p s = (s', none)) : Counted p [] s s' ∧ s'.batch = [] := by
  unfold flushAndCount at h
  split at h
  · cases h
    have hle := length_upsertAll_le p.key s.rows s.batch
    have hge := length_le_upsertAll p.key s.rows s.batch
    refine ⟨⟨rfl, rfl, rfl, ?_⟩, rfl⟩
    simp only [rowsOf_nil, List.length_nil]
    omega
  · split at h <;> cases h

theorem counted_addLine {p : Pipeline α ρ κ} {s s' : Progress ρ} {line : α}
    (h : addLine p s line = (s', none)) : Counted p [line] s s' := by
  have hrecord := counted_recordLine p s line
  unfold addLine at h
  cases hr : (p.processLine line).row? with
  | none =>
    have hnone : rowsOf p [line] = [] := by simp [rowsOf, hr]
    rw [hnone, List.append_nil] at hrecord
    simp only [hr] at h
    cases h
    exact hrecord
  | some r =>
    have hsome : rowsOf p [line] = [r] := by simp [rowsOf, hr]
    rw [hsome] at hrecord
    simp only [hr] at h
    split at h
    · exact hrecord.append (counted_flush h).1
    · cases h
      exact hrecord

theorem counted_addLines {p : Pipeline α ρ κ} {lines : List α} :
    ∀ {s s' : Progress ρ}, addLines p s lines = (s', none) → Counted p lines s s' := by
  induction lines with
  | nil =>
    intro s s' h
    cases h
    exact Counted.refl p s
  | cons line rest ih =>
    intro s s' h
    rw [addLines] at h
    split at h
    · rename_i s₁ hline
      exact (counted_addLine hline).append (ih h)
    · cases h

theorem counted_finishLines {p : Pipeline α ρ κ} {s s' : Progress ρ}
    (h : finishLines p s = (s', none)) : Counted p [] s s' ∧ s'.batch = [] := by
  unfold finishLines at h
  split at h
  · rename_i hempty
    cases h
    exact ⟨Counted.refl p s, hempty⟩
  · exact counted_flush h

/-! Streams. -/

theorem addLines_of_readLines {p : Pipeline α ρ κ} {lines : List (α × Option String)} :
    ∀ {s s' : Progress ρ}, readLines p s lines = (s', none) →
      addLines p s (lines.map Prod.fst) = (s', none) := by
  induction lines with
  | nil =>
    intro s s' h
    cases h
    rfl
  | cons line rest ih =>
    intro s s' h
    rw [readLines] at h
    rw [List.map_cons, addLines]
    split at h
    · exact ih h
    · cases h

theorem counted_readStream {p : Pipeline α ρ κ} {finalize : Bool} {s s' : SourceProgress ρ}
    {streamId : String} {read : StreamRead α}
    (h : readStream p finalize s streamId read = (s', none)) :
    Counted p (read.lines.map Prod.fst) s.progress s'.progress := by
  unfold readStream at h
  split at h
  · cases h
  · rename_i progress hlines
    obtain ⟨s₁, hend, -, hprogress⟩ :=
      endStream_spec finalize { s with progress := progress } streamId read
    rw [hend] at h
    have hs : s₁ = s' := congrArg Prod.fst h
    rw [← hs, hprogress]
    exact counted_addLines (addLines_of_readLines hlines)

theorem counted_readStreams {p : Pipeline α ρ κ} {finalize : Bool}
    {reads : List (String × StreamRead α)} :
    ∀ {s s' : SourceProgress ρ}, readStreams p finalize s reads = (s', none) →
      Counted p (linesOf reads) s.progress s'.progress := by
  induction reads with
  | nil =>
    intro s s' h
    cases h
    exact Counted.refl p s.progress
  | cons q rest ih =>
    intro s s' h
    rw [readStreams] at h
    split at h
    · rename_i s₁ hstream
      exact (counted_readStream hstream).append (ih h)
    · cases h

/-- A run over streams that does not fail has accounted for every row. -/
theorem counted_ingestStreams {p : Pipeline α ρ κ} {finalize : Bool} {s s' : SourceProgress ρ}
    {reads : List (String × StreamRead α)} (h : ingestStreams p finalize s reads = (s', none)) :
    Counted p (linesOf reads) s.progress s'.progress ∧ s'.progress.batch = [] := by
  unfold ingestStreams at h
  split at h
  · rename_i s₁ hreads
    unfold finishStreams at h
    split at h
    · cases h
    · cases hfinish : finishLines p s₁.progress with
      | mk progress e =>
        rw [hfinish] at h
        cases h
        obtain ⟨hcounted, hbatch⟩ := counted_finishLines hfinish
        have hall := (counted_readStreams hreads).append hcounted
        rw [List.append_nil] at hall
        exact ⟨hall, hbatch⟩
  · cases h

/-- A run over lines that does not fail has accounted for every row. -/
theorem counted_ingestLines {p : Pipeline α ρ κ} {s s' : Progress ρ} {lines : List α}
    (h : ingestLines p s lines = (s', none)) : Counted p lines s s' ∧ s'.batch = [] := by
  unfold ingestLines at h
  split at h
  · rename_i s₁ hlines
    obtain ⟨hcounted, hbatch⟩ := counted_finishLines h
    have hall := (counted_addLines hlines).append hcounted
    rw [List.append_nil] at hall
    exact ⟨hall, hbatch⟩
  · cases h

/-! The table. -/

theorem subset_upsertAll (key : ρ → Option κ) (rows batch : List ρ) :
    rows ⊆ upsertAll key rows batch := by
  induction batch generalizing rows with
  | nil => exact fun r hr => hr
  | cons b batch ih => exact fun r hr => ih (upsert key rows b) (mem_upsert.mpr (.inl hr))

theorem flushAndCount_rows (p : Pipeline α ρ κ) (s : Progress ρ) :
    s.rows ⊆ (flushAndCount p s).1.rows := by
  unfold flushAndCount
  split
  · exact subset_upsertAll p.key s.rows s.batch
  · split <;> exact List.Subset.refl _

theorem addLine_rows (p : Pipeline α ρ κ) (s : Progress ρ) (line : α) :
    s.rows ⊆ (addLine p s line).1.rows := by
  unfold addLine
  cases (p.processLine line).row? with
  | none => exact List.Subset.refl _
  | some r =>
    dsimp only
    split
    · exact flushAndCount_rows p ⟨s.rows, s.batch ++ [r], recordLine p s.stats line⟩
    · exact List.Subset.refl _

theorem readLines_rows (p : Pipeline α ρ κ) (lines : List (α × Option String)) :
    ∀ s : Progress ρ, s.rows ⊆ (readLines p s lines).1.rows := by
  induction lines with
  | nil => exact fun s => List.Subset.refl _
  | cons line rest ih =>
    intro s
    have hline := addLine_rows p s line.1
    rw [readLines]
    split
    · rename_i s₁ h₁
      rw [h₁] at hline
      exact List.Subset.trans hline (ih s₁)
    · rename_i s₁ e h₁
      rw [h₁] at hline
      exact hline

theorem finishLines_rows (p : Pipeline α ρ κ) (s : Progress ρ) :
    s.rows ⊆ (finishLines p s).1.rows := by
  unfold finishLines
  split
  · exact List.Subset.refl _
  · exact flushAndCount_rows p s

theorem endStream_rows (finalize : Bool) (s : SourceProgress ρ) (streamId : String)
    (read : StreamRead α) :
    (endStream finalize s streamId read).1.progress.rows = s.progress.rows := by
  unfold endStream
  cases read.ending with
  | exhausted =>
    dsimp only
    split <;> rfl
  | unavailable reason => rfl
  | raised reason => rfl

theorem readStream_rows (p : Pipeline α ρ κ) (finalize : Bool) (s : SourceProgress ρ)
    (streamId : String) (read : StreamRead α) :
    s.progress.rows ⊆ (readStream p finalize s streamId read).1.progress.rows := by
  have hlines := readLines_rows p read.lines s.progress
  unfold readStream
  split
  · rename_i progress e cursor h
    rw [h] at hlines
    exact hlines
  · rename_i progress h
    rw [h] at hlines
    rw [endStream_rows]
    exact hlines

theorem readStreams_rows (p : Pipeline α ρ κ) (finalize : Bool)
    (reads : List (String × StreamRead α)) :
    ∀ s : SourceProgress ρ, s.progress.rows ⊆ (readStreams p finalize s reads).1.progress.rows := by
  induction reads with
  | nil => exact fun s => List.Subset.refl _
  | cons q rest ih =>
    intro s
    have hstream := readStream_rows p finalize s q.1 q.2
    rw [readStreams]
    split
    · rename_i s₁ h₁
      rw [h₁] at hstream
      exact List.Subset.trans hstream (ih s₁)
    · rename_i s₁ e h₁
      rw [h₁] at hstream
      exact hstream

theorem ingestStreams_rows (p : Pipeline α ρ κ) (finalize : Bool) (s : SourceProgress ρ)
    (reads : List (String × StreamRead α)) :
    s.progress.rows ⊆ (ingestStreams p finalize s reads).1.progress.rows := by
  have hreads := readStreams_rows p finalize reads s
  unfold ingestStreams
  split
  · rename_i s₁ h₁
    rw [h₁] at hreads
    refine List.Subset.trans hreads ?_
    unfold finishStreams
    split
    · exact List.Subset.refl _
    · exact finishLines_rows p s₁.progress
  · rename_i s₁ e h₁
    rw [h₁] at hreads
    exact hreads

/-- The table only grows. -/
theorem ingestFromSource_rows (p : Pipeline α ρ κ) (rows : List ρ) (request : SourceRequest α)
    (existingJob : Option IngestionJob) (finalize : Bool) :
    rows ⊆ (ingestFromSource p rows request existingJob finalize).rows := by
  unfold ingestFromSource
  cases request.discover with
  | error reason => exact List.Subset.refl _
  | ok refs =>
    dsimp only
    split
    · exact List.Subset.refl _
    · have hstreams := ingestStreams_rows p finalize
        ⟨⟨rows, [], { IngestionStats.zero with filesProcessed := refs.length }⟩, ∅,
          request.resumeCompletedStreams, []⟩
        (streamReads refs request.resumeCursors request.resumeCompletedStreams)
      split
      · rename_i s₁ h₁
        rw [h₁] at hstreams
        exact hstreams
      · rename_i s₁ e h₁
        rw [h₁] at hstreams
        split
        · exact hstreams
        · exact hstreams

end Raglogs.Accounting

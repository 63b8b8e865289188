import Raglogs.Collections
import Raglogs.Ingestion

/-!
What a run over lines leaves. The rows it has built are the full pages, which are in
the table, and the last page, which is in the batch; a row the database does not take
fails the run when its page is written. A run over streams adds the cursor of each
stream it reached and the set of those it read to the end.
-/

namespace Raglogs.IngestionLaws

open Dicts Upserts Ingestion

variable {α ρ κ : Type*} [DecidableEq κ]

/-- The rows that lines become. -/
def rowsOf (p : Pipeline α ρ κ) (lines : List α) : List ρ :=
  lines.filterMap (fun line => (p.processLine line).row?)

/-- The rows that one write takes. -/
def page (p : Pipeline α ρ κ) : ℕ := max p.batchSize 1

/-- The database takes every one of the rows. -/
def Accepted (p : Pipeline α ρ κ) (rows : List ρ) : Prop := ∀ r ∈ rows, p.accepts r = true

/-- The full pages of the rows built so far are in the table, the rest is in the batch. -/
structure Paged (p : Pipeline α ρ κ) (rows : List ρ) (built : List ρ) (s : Progress ρ) : Prop where
  rows_eq : s.rows = upsertAll p.key rows (written (page p) built)
  batch_eq : s.batch = pending (page p) built

omit [DecidableEq κ] in
@[simp]
theorem rowsOf_nil (p : Pipeline α ρ κ) : rowsOf p [] = [] := rfl

omit [DecidableEq κ] in
theorem rowsOf_cons (p : Pipeline α ρ κ) (line : α) (lines : List α) :
    rowsOf p (line :: lines) = rowsOf p [line] ++ rowsOf p lines := by
  rw [rowsOf, rowsOf, rowsOf, ← List.filterMap_append]
  rfl

omit [DecidableEq κ] in
theorem rowsOf_append (p : Pipeline α ρ κ) (lines lines' : List α) :
    rowsOf p (lines ++ lines') = rowsOf p lines ++ rowsOf p lines' :=
  List.filterMap_append

omit [DecidableEq κ] in
theorem mem_rowsOf {p : Pipeline α ρ κ} {lines : List α} {r : ρ} :
    r ∈ rowsOf p lines ↔ ∃ line ∈ lines, (p.processLine line).row? = some r :=
  List.mem_filterMap

theorem written_of_append (n : ℕ) (rows rows' : List ρ) :
    written n rows <+: written n (rows ++ rows') := by
  have hle : rows.length / n * n ≤ rows.length := Nat.div_mul_le_self _ _
  have hmono : rows.length / n * n ≤ (rows ++ rows').length / n * n := by
    refine Nat.mul_le_mul_right n (Nat.div_le_div_right ?_)
    rw [List.length_append]
    omega
  have htake : (rows ++ rows').take (rows.length / n * n) = rows.take (rows.length / n * n) :=
    List.take_append_of_le_length hle
  unfold written
  rw [← htake]
  exact List.take_prefix_take_left hmono

omit [DecidableEq κ] in
theorem Accepted.of_prefix {p : Pipeline α ρ κ} {rows rows' : List ρ} (h : Accepted p rows')
    (hpre : rows <+: rows') : Accepted p rows :=
  fun r hr => h r (hpre.subset hr)

theorem paged_nil (p : Pipeline α ρ κ) (rows : List ρ) (stats : IngestionStats) :
    Paged p rows [] ⟨rows, [], stats⟩ :=
  ⟨by simp [written, upsertAll], by simp [pending]⟩

/-! One write. -/

theorem flushAndCount_of_accepted {p : Pipeline α ρ κ} {s : Progress ρ}
    (h : Accepted p s.batch) :
    ∃ stats, flushAndCount p s = (⟨upsertAll p.key s.rows s.batch, [], stats⟩, none) ∧
      stats.linesRead = s.stats.linesRead := by
  refine ⟨_, if_pos (List.all_eq_true.mpr h), rfl⟩

/-- How a write of some of the rows fails: in the database, or on a row that the client
does not send. -/
inductive Rejects (p : Pipeline α ρ κ) (rows : List ρ) : IngestError → Prop
  | database : Rejects p rows .database
  | unsent {r : ρ} (hr : r ∈ rows) (hrefused : p.refusal r = some .client) :
      Rejects p rows .unsent

omit [DecidableEq κ] in
theorem Rejects.mono {p : Pipeline α ρ κ} {rows rows' : List ρ} (h : rows ⊆ rows')
    {e : IngestError} (hrejects : Rejects p rows e) : Rejects p rows' e := by
  cases hrejects with
  | database => exact .database
  | unsent hr hrefused => exact .unsent (h hr) hrefused

theorem flushAndCount_of_not_accepted {p : Pipeline α ρ κ} {s : Progress ρ}
    (h : ¬Accepted p s.batch) : ∃ e, flushAndCount p s = (s, some e) ∧ Rejects p s.batch e := by
  rw [flushAndCount, if_neg (fun hall => h (List.all_eq_true.mp hall))]
  by_cases hclient : s.batch.any (fun r => p.refusal r = some .client) = true
  · rw [if_pos hclient]
    obtain ⟨r, hr, hrefused⟩ := List.any_eq_true.mp hclient
    exact ⟨_, rfl, .unsent hr (of_decide_eq_true hrefused)⟩
  · rw [if_neg hclient]
    exact ⟨_, rfl, .database⟩

omit [DecidableEq κ] in
theorem recordLine_linesRead (p : Pipeline α ρ κ) (stats : IngestionStats) (line : α) :
    (recordLine p stats line).linesRead = stats.linesRead + 1 := by
  unfold recordLine
  cases p.processLine line <;> rfl

/-! One line. -/

section OneLine

variable {p : Pipeline α ρ κ} {rows built : List ρ} {s : Progress ρ} {line : α}

/-- A line without a row changes the counters only. -/
theorem addLine_of_none (h : (p.processLine line).row? = none) :
    addLine p s line = (⟨s.rows, s.batch, recordLine p s.stats line⟩, none) := by
  simp only [addLine, h]

/-- The row of a line is one more row built. -/
theorem addLine_of_some {r : ρ} (hr : (p.processLine line).row? = some r)
    (hs : Paged p rows built s) (haccepted : Accepted p (written (page p) (built ++ [r]))) :
    ∃ s', addLine p s line = (s', none) ∧ Paged p rows (built ++ [r]) s' ∧
      s'.stats.linesRead = s.stats.linesRead + 1 := by
  have hlt : (pending (page p) built).length < page p := by
    rw [length_pending]
    exact Nat.mod_lt _ (lt_of_lt_of_le Nat.one_pos (le_max_right _ _))
  simp only [addLine, hr]
  by_cases hfull : (pending (page p) built).length + 1 = page p
  · obtain ⟨hwritten, hpending⟩ := pages_of_full r hfull
    have hsize : p.batchSize ≤ (s.batch ++ [r]).length := by
      rw [hs.batch_eq, List.length_append, List.length_singleton, hfull]
      exact le_max_left _ _
    have hbatch : Accepted p (s.batch ++ [r]) := by
      intro r' hr'
      rw [hwritten] at haccepted
      exact haccepted r' (List.mem_append_right _ (hs.batch_eq ▸ hr'))
    rw [if_pos hsize]
    obtain ⟨stats, hflush, hread⟩ := flushAndCount_of_accepted
      (s := ⟨s.rows, s.batch ++ [r], recordLine p s.stats line⟩) hbatch
    refine ⟨_, hflush, ⟨?_, hpending.symm⟩, ?_⟩
    · change upsertAll p.key s.rows (s.batch ++ [r]) = _
      rw [hwritten, upsertAll_append rows, ← hs.rows_eq, ← hs.batch_eq]
    · rw [hread, recordLine_linesRead]
  · have hroom : (pending (page p) built).length + 1 < page p := lt_of_le_of_ne hlt hfull
    obtain ⟨hwritten, hpending⟩ := pages_of_lt r hroom
    have hsize : ¬p.batchSize ≤ (s.batch ++ [r]).length := by
      rw [hs.batch_eq, List.length_append, List.length_singleton]
      have hpage : page p ≤ max p.batchSize 1 := le_refl _
      omega
    rw [if_neg hsize]
    refine ⟨_, rfl, ⟨?_, ?_⟩, recordLine_linesRead p s.stats line⟩
    · rw [hwritten]
      exact hs.rows_eq
    · rw [hpending, ← hs.batch_eq]

/-- A page with a row that is not taken fails when it is written. -/
theorem addLine_of_rejected (hs : Paged p rows built s)
    (hbefore : Accepted p (written (page p) built))
    (hrejected : ¬Accepted p (written (page p) (built ++ rowsOf p [line]))) :
    ∃ s' e, addLine p s line = (s', some e) ∧ Rejects p (built ++ rowsOf p [line]) e := by
  cases hr : (p.processLine line).row? with
  | none =>
    have hnone : rowsOf p [line] = [] := by simp [rowsOf, hr]
    rw [hnone, List.append_nil] at hrejected
    exact absurd hbefore hrejected
  | some r =>
    have hsome : rowsOf p [line] = [r] := by simp [rowsOf, hr]
    rw [hsome] at hrejected ⊢
    have hfull : (pending (page p) built).length + 1 = page p := by
      by_contra hne
      have hlt : (pending (page p) built).length < page p := by
        rw [length_pending]
        exact Nat.mod_lt _ (lt_of_lt_of_le Nat.one_pos (le_max_right _ _))
      rw [(pages_of_lt r (lt_of_le_of_ne hlt hne)).1] at hrejected
      exact hrejected hbefore
    have hwritten := (pages_of_full r hfull).1
    have hsize : p.batchSize ≤ (s.batch ++ [r]).length := by
      rw [hs.batch_eq, List.length_append, List.length_singleton, hfull]
      exact le_max_left _ _
    simp only [addLine, hr, if_pos hsize]
    have hbatch : ¬Accepted p (s.batch ++ [r]) := by
      intro hbatch
      refine hrejected ?_
      intro r' hr'
      rw [hwritten, List.mem_append] at hr'
      rcases hr' with hr' | hr'
      · exact hbefore r' hr'
      · exact hbatch r' (hs.batch_eq ▸ hr')
    obtain ⟨e, hflush, hrejects⟩ := flushAndCount_of_not_accepted
      (s := ⟨s.rows, s.batch ++ [r], recordLine p s.stats line⟩) hbatch
    refine ⟨_, e, hflush, hrejects.mono ?_⟩
    exact List.append_subset.mpr
      ⟨fun r' hr' => List.mem_append_left _ (List.mem_of_mem_drop (hs.batch_eq ▸ hr')),
        List.subset_append_right _ _⟩

end OneLine

/-! All lines. -/

theorem addLine_spec {p : Pipeline α ρ κ} {rows built : List ρ} {s : Progress ρ} (line : α)
    (hs : Paged p rows built s)
    (haccepted : Accepted p (written (page p) (built ++ rowsOf p [line]))) :
    ∃ s', addLine p s line = (s', none) ∧ Paged p rows (built ++ rowsOf p [line]) s' ∧
      s'.stats.linesRead = s.stats.linesRead + 1 := by
  cases hr : (p.processLine line).row? with
  | none =>
    have hnone : rowsOf p [line] = [] := by simp [rowsOf, hr]
    rw [hnone, List.append_nil]
    exact ⟨_, addLine_of_none hr, ⟨hs.rows_eq, hs.batch_eq⟩, recordLine_linesRead p s.stats line⟩
  | some r =>
    have hsome : rowsOf p [line] = [r] := by simp [rowsOf, hr]
    rw [hsome] at haccepted ⊢
    exact addLine_of_some hr hs haccepted

/-- Lines whose full pages are taken leave the pages they make. -/
theorem addLines_spec {p : Pipeline α ρ κ} {rows : List ρ} (lines : List α) :
    ∀ {built : List ρ} {s : Progress ρ}, Paged p rows built s →
      Accepted p (written (page p) (built ++ rowsOf p lines)) →
      ∃ s', addLines p s lines = (s', none) ∧ Paged p rows (built ++ rowsOf p lines) s' ∧
        s'.stats.linesRead = s.stats.linesRead + lines.length := by
  induction lines with
  | nil =>
    intro built s hs _
    refine ⟨s, rfl, ?_, rfl⟩
    rwa [rowsOf_nil, List.append_nil]
  | cons line rest ih =>
    intro built s hs haccepted
    rw [rowsOf_cons, ← List.append_assoc] at haccepted ⊢
    obtain ⟨s₁, hline, hs₁, hread₁⟩ :=
      addLine_spec line hs (haccepted.of_prefix (written_of_append _ _ _))
    obtain ⟨s₂, hrest, hs₂, hread₂⟩ := ih hs₁ haccepted
    refine ⟨s₂, ?_, hs₂, ?_⟩
    · rw [addLines, hline]
      exact hrest
    · rw [hread₂, hread₁, List.length_cons]
      omega

/-- Lines with a row in a full page that is not taken fail. -/
theorem addLines_of_rejected {p : Pipeline α ρ κ} {rows : List ρ} (lines : List α) :
    ∀ {built : List ρ} {s : Progress ρ}, Paged p rows built s →
      Accepted p (written (page p) built) →
      ¬Accepted p (written (page p) (built ++ rowsOf p lines)) →
      ∃ s' e, addLines p s lines = (s', some e) ∧ Rejects p (built ++ rowsOf p lines) e := by
  induction lines with
  | nil =>
    intro built s _ hbefore hrejected
    rw [rowsOf_nil, List.append_nil] at hrejected
    exact absurd hbefore hrejected
  | cons line rest ih =>
    intro built s hs hbefore hrejected
    by_cases hline : Accepted p (written (page p) (built ++ rowsOf p [line]))
    · obtain ⟨s₁, hadd, hs₁, -⟩ := addLine_spec line hs hline
      rw [rowsOf_cons, ← List.append_assoc] at hrejected
      obtain ⟨s₂, e, hrest, hrejects⟩ := ih hs₁ hline hrejected
      rw [rowsOf_cons, ← List.append_assoc]
      refine ⟨s₂, e, ?_, hrejects⟩
      rw [addLines, hadd]
      exact hrest
    · obtain ⟨s₁, e, hadd, hrejects⟩ := addLine_of_rejected hs hbefore hline
      rw [rowsOf_cons, ← List.append_assoc]
      refine ⟨s₁, e, ?_, hrejects.mono (List.subset_append_left _ _)⟩
      rw [addLines, hadd]

/-- The last write leaves every row built in the table. -/
theorem finishLines_spec {p : Pipeline α ρ κ} {rows built : List ρ} {s : Progress ρ}
    (hs : Paged p rows built s) (haccepted : Accepted p (pending (page p) built)) :
    ∃ s', finishLines p s = (s', none) ∧ s'.rows = upsertAll p.key rows built ∧
      s'.stats.linesRead = s.stats.linesRead := by
  have hall : upsertAll p.key rows built = upsertAll p.key s.rows s.batch := by
    rw [hs.rows_eq, hs.batch_eq, ← upsertAll_append, written_append_pending]
  unfold finishLines
  split
  · rename_i hempty
    refine ⟨s, rfl, ?_, rfl⟩
    rw [hall, hempty]
    rfl
  · obtain ⟨stats, hflush, hread⟩ := flushAndCount_of_accepted (hs.batch_eq ▸ haccepted)
    exact ⟨_, hflush, hall.symm, hread⟩

theorem finishLines_of_rejected {p : Pipeline α ρ κ} {rows built : List ρ} {s : Progress ρ}
    (hs : Paged p rows built s) (hrejected : ¬Accepted p (pending (page p) built)) :
    ∃ e, finishLines p s = (s, some e) ∧ Rejects p built e := by
  have hne : s.batch ≠ [] := by
    intro hempty
    rw [← hs.batch_eq, hempty] at hrejected
    exact hrejected (fun r hr => absurd hr List.not_mem_nil)
  unfold finishLines
  rw [if_neg hne]
  obtain ⟨e, hflush, hrejects⟩ := flushAndCount_of_not_accepted (hs.batch_eq ▸ hrejected)
  exact ⟨e, hflush, hrejects.mono fun r hr => List.mem_of_mem_drop (hs.batch_eq ▸ hr)⟩

omit [DecidableEq κ] in
theorem accepted_pages {p : Pipeline α ρ κ} {rows : List ρ} :
    Accepted p rows ↔ Accepted p (written (page p) rows) ∧ Accepted p (pending (page p) rows) := by
  constructor
  · intro h
    exact ⟨fun r hr => h r (List.mem_of_mem_take hr), fun r hr => h r (List.mem_of_mem_drop hr)⟩
  · rintro ⟨hwritten, hpending⟩ r hr
    rw [← written_append_pending (page p) rows, List.mem_append] at hr
    exact hr.elim (hwritten r) (hpending r)

/-- A run over lines puts all of their rows into the table. -/
theorem ingestLines_of_accepted {p : Pipeline α ρ κ} (rows : List ρ) (stats : IngestionStats)
    {lines : List α} (h : Accepted p (rowsOf p lines)) :
    ∃ s', ingestLines p ⟨rows, [], stats⟩ lines = (s', none) ∧
      s'.rows = upsertAll p.key rows (rowsOf p lines) := by
  obtain ⟨hwritten, hpending⟩ := accepted_pages.mp h
  obtain ⟨s₁, hlines, hpaged, -⟩ := addLines_spec lines (paged_nil p rows stats) hwritten
  rw [List.nil_append] at hpaged
  obtain ⟨s₂, hfinish, hrows, -⟩ := finishLines_spec hpaged hpending
  refine ⟨s₂, ?_, hrows⟩
  rw [ingestLines, hlines]
  exact hfinish

/-- A row that is not taken fails the run. -/
theorem ingestLines_of_rejected {p : Pipeline α ρ κ} (rows : List ρ) (stats : IngestionStats)
    {lines : List α} (h : ¬Accepted p (rowsOf p lines)) :
    ∃ s' e, ingestLines p ⟨rows, [], stats⟩ lines = (s', some e) := by
  unfold ingestLines
  by_cases hwritten : Accepted p (written (page p) (rowsOf p lines))
  · obtain ⟨s₁, hlines, hpaged, -⟩ := addLines_spec lines (paged_nil p rows stats) hwritten
    rw [List.nil_append] at hpaged
    have hpending : ¬Accepted p (pending (page p) (rowsOf p lines)) :=
      fun hpending => h (accepted_pages.mpr ⟨hwritten, hpending⟩)
    obtain ⟨e, hfinish, -⟩ := finishLines_of_rejected hpaged hpending
    rw [hlines]
    exact ⟨s₁, e, hfinish⟩
  · obtain ⟨s₁, e, hlines, -⟩ := addLines_of_rejected lines (paged_nil p rows stats)
      (fun r hr => absurd (List.mem_of_mem_take hr) List.not_mem_nil) hwritten
    rw [hlines]
    exact ⟨s₁, e, rfl⟩

/-! Streams. -/

/-- The exception that ends a read of a stream and is not caught there. -/
def raisedBy (read : StreamRead α) : Option IngestError :=
  match read.ending with
  | .raised reason => some (.raised reason)
  | _ => none

/-- The reads that are reached: up to the first that raises. -/
def attempted : List (String × StreamRead α) → List (String × StreamRead α)
  | [] => []
  | q :: rest => if (raisedBy q.2).isSome then [q] else q :: attempted rest

/-- The exception of the first read that raises. -/
def failureOf : List (String × StreamRead α) → Option IngestError
  | [] => none
  | q :: rest => if (raisedBy q.2).isSome then raisedBy q.2 else failureOf rest

def linesOf (reads : List (String × StreamRead α)) : List α :=
  reads.flatMap (fun q => q.2.lines.map Prod.fst)

def cursorsOf (cursors : Cursors) (reads : List (String × StreamRead α)) : Cursors :=
  reads.foldl (fun d q => d.insert q.1 q.2.cursor) cursors

/-- The streams read to the end. -/
def exhaustedOf (reads : List (String × StreamRead α)) : Finset String :=
  ((reads.filter (fun q => q.2.ending = .exhausted && q.2.cursor.isNone)).map Prod.fst).toFinset

/-- Why streams were unavailable. -/
def reasonsOf (reads : List (String × StreamRead α)) : List String :=
  reads.filterMap (fun q => match q.2.ending with
    | .unavailable reason => some reason
    | _ => none)

/-- What reads leave in the variables besides rows and counters. -/
structure ReadThrough (finalize : Bool) (s : SourceProgress ρ)
    (reads : List (String × StreamRead α)) (s' : SourceProgress ρ) : Prop where
  cursors_eq : s'.cursors = cursorsOf s.cursors reads
  completed_eq : s'.completedStreams =
    if finalize then s.completedStreams ∪ exhaustedOf reads else s.completedStreams
  errors_eq : s'.adapterErrors = s.adapterErrors ++ reasonsOf reads

theorem readThrough_nil (finalize : Bool) (s : SourceProgress ρ) :
    ReadThrough finalize s ([] : List (String × StreamRead α)) s :=
  ⟨rfl, by simp [exhaustedOf], by simp [reasonsOf]⟩

theorem ReadThrough.append {finalize : Bool} {s s₁ s₂ : SourceProgress ρ}
    {reads reads' : List (String × StreamRead α)} (h : ReadThrough finalize s reads s₁)
    (h' : ReadThrough finalize s₁ reads' s₂) : ReadThrough finalize s (reads ++ reads') s₂ where
  cursors_eq := by
    rw [h'.cursors_eq, h.cursors_eq, cursorsOf, cursorsOf, cursorsOf, List.foldl_append]
  completed_eq := by
    rw [h'.completed_eq, h.completed_eq]
    cases finalize
    · rfl
    · simp [exhaustedOf, List.toFinset_append, Finset.union_assoc]
  errors_eq := by
    rw [h'.errors_eq, h.errors_eq, List.append_assoc, reasonsOf, reasonsOf, reasonsOf,
      List.filterMap_append]

theorem endStream_spec (finalize : Bool) (s : SourceProgress ρ) (streamId : String)
    (read : StreamRead α) :
    ∃ s', endStream finalize s streamId read = (s', raisedBy read) ∧
      ReadThrough finalize s [(streamId, read)] s' ∧ s'.progress = s.progress := by
  unfold endStream raisedBy
  cases hending : read.ending with
  | exhausted =>
    cases hcursor : read.cursor.isNone <;> cases finalize <;>
      refine ⟨_, rfl, ⟨?_, ?_, ?_⟩, ?_⟩ <;>
      simp [cursorsOf, exhaustedOf, reasonsOf, hending, hcursor]
  | unavailable reason =>
    refine ⟨_, rfl, ⟨rfl, ?_, ?_⟩, rfl⟩
    · cases finalize <;> simp [exhaustedOf, hending]
    · simp [reasonsOf, hending]
  | raised reason =>
    refine ⟨_, rfl, ⟨rfl, ?_, ?_⟩, rfl⟩
    · cases finalize <;> simp [exhaustedOf, hending]
    · simp [reasonsOf, hending]

theorem attempted_cons (q : String × StreamRead α) (rest : List (String × StreamRead α)) :
    attempted (q :: rest) = if (raisedBy q.2).isSome then [q] else q :: attempted rest := rfl

theorem failureOf_cons (q : String × StreamRead α) (rest : List (String × StreamRead α)) :
    failureOf (q :: rest) = if (raisedBy q.2).isSome then raisedBy q.2 else failureOf rest := rfl

theorem attempted_eq_of_failure_none {reads : List (String × StreamRead α)}
    (h : failureOf reads = none) : attempted reads = reads := by
  induction reads with
  | nil => rfl
  | cons q rest ih =>
    rw [failureOf_cons] at h
    rw [attempted_cons]
    split at h
    · rename_i hraised
      rw [h] at hraised
      cases hraised
    · rename_i hraised
      rw [if_neg hraised, ih h]

theorem attempted_subset {reads : List (String × StreamRead α)} {q : String × StreamRead α}
    (h : q ∈ attempted reads) : q ∈ reads := by
  induction reads with
  | nil => exact h
  | cons q' rest ih =>
    rw [attempted_cons] at h
    split at h
    · rw [List.mem_singleton] at h
      rw [h]
      exact List.mem_cons_self
    · rcases List.mem_cons.mp h with h | h
      · rw [h]
        exact List.mem_cons_self
      · exact List.mem_cons_of_mem q' (ih h)

/-- A cursor is recorded by the last read of its stream. -/
theorem lookup_cursorsOf {reads : List (String × StreamRead α)} {streamId : String}
    {c : Option String} (h : (cursorsOf ∅ reads).lookup streamId = some c) :
    ∃ q ∈ reads, q.1 = streamId ∧ q.2.cursor = c := by
  induction reads using List.reverseRecOn with
  | nil =>
    rw [cursorsOf, List.foldl_nil, Finmap.lookup_empty] at h
    cases h
  | append_singleton reads q ih =>
    rw [cursorsOf, List.foldl_append, List.foldl_cons, List.foldl_nil, lookup_insert_eq] at h
    split at h
    · rename_i hid
      cases h
      exact ⟨q, by simp, hid.symm, rfl⟩
    · obtain ⟨q', hq', hrest⟩ := ih h
      exact ⟨q', List.mem_append_left _ hq', hrest⟩

theorem mem_exhaustedOf {reads : List (String × StreamRead α)} {streamId : String} :
    streamId ∈ exhaustedOf reads ↔
      ∃ q ∈ reads, q.1 = streamId ∧ q.2.ending = .exhausted ∧ q.2.cursor = none := by
  simp only [exhaustedOf, List.mem_toFinset, List.mem_map, List.mem_filter, Bool.and_eq_true,
    decide_eq_true_eq, Option.isNone_iff_eq_none]
  constructor
  · rintro ⟨q, ⟨hq, hread⟩, hid⟩
    exact ⟨q, hq, hid, hread⟩
  · rintro ⟨q, hq, hid, hread⟩
    exact ⟨q, ⟨hq, hread⟩, hid⟩

/-- A read of an honest adapter starts where its stream was left. -/
theorem mem_streamReads {refs : List (LogStreamRef α)} {cursors : Cursors}
    {completed : Finset String} (hhonest : ∀ ref ∈ refs, ref.cursor = none)
    {q : String × StreamRead α} (h : q ∈ streamReads refs cursors completed) :
    ∃ ref ∈ refs, ref.streamId ∉ completed ∧ q.1 = ref.streamId ∧
      q.2 = ref.read ((cursors.lookup ref.streamId).getD none) := by
  obtain ⟨ref, href, rfl⟩ := List.mem_map.mp h
  obtain ⟨hmem, hfresh⟩ := List.mem_filter.mp href
  rw [decide_eq_true_eq] at hfresh
  refine ⟨ref, hmem, hfresh, rfl, ?_⟩
  simp only [startCursor, if_neg hfresh, hhonest ref hmem]

theorem exists_lookup_cursorsOf {reads : List (String × StreamRead α)} {streamId : String}
    (h : streamId ∈ reads.map Prod.fst) :
    ∃ c, (cursorsOf ∅ reads).lookup streamId = some c := by
  induction reads using List.reverseRecOn with
  | nil => exact absurd h List.not_mem_nil
  | append_singleton reads q ih =>
    rw [cursorsOf, List.foldl_append, List.foldl_cons, List.foldl_nil, lookup_insert_eq]
    split
    · exact ⟨q.2.cursor, rfl⟩
    · rename_i hne
      rw [List.map_append, List.mem_append] at h
      rcases h with h | h
      · exact ih h
      · exact absurd (List.mem_singleton.mp h) hne

theorem failureOf_eq_raised {reads : List (String × StreamRead α)} {e : IngestError}
    (h : failureOf reads = some e) : ∃ reason, e = .raised reason := by
  induction reads with
  | nil => cases h
  | cons q rest ih =>
    rw [failureOf_cons] at h
    split at h
    · unfold raisedBy at h
      split at h
      · rename_i reason _
        exact ⟨reason, (Option.some_inj.mp h).symm⟩
      · cases h
    · exact ih h

/-! The lines of a stream. -/

theorem readLines_of_addLines {p : Pipeline α ρ κ} {lines : List (α × Option String)} :
    ∀ {s s' : Progress ρ}, addLines p s (lines.map Prod.fst) = (s', none) →
      readLines p s lines = (s', none) := by
  induction lines with
  | nil =>
    intro s s' h
    cases h
    rfl
  | cons line rest ih =>
    intro s s' h
    rw [List.map_cons, addLines] at h
    rw [readLines]
    split at h
    · exact ih h
    · cases h

theorem readLines_of_addLines_some {p : Pipeline α ρ κ} {lines : List (α × Option String)}
    {e : IngestError} :
    ∀ {s s' : Progress ρ}, addLines p s (lines.map Prod.fst) = (s', some e) →
      ∃ cursor, readLines p s lines = (s', some (e, cursor)) := by
  induction lines with
  | nil => exact fun h => absurd h (by simp [addLines])
  | cons line rest ih =>
    intro s s' h
    rw [List.map_cons, addLines] at h
    rw [readLines]
    split at h
    · exact ih h
    · cases h
      exact ⟨line.2, rfl⟩

theorem readStream_spec {p : Pipeline α ρ κ} {rows built : List ρ} (finalize : Bool)
    {s : SourceProgress ρ} (streamId : String) (read : StreamRead α)
    (hs : Paged p rows built s.progress)
    (haccepted : Accepted p (written (page p) (built ++ rowsOf p (read.lines.map Prod.fst)))) :
    ∃ s', readStream p finalize s streamId read = (s', raisedBy read) ∧
      ReadThrough finalize s [(streamId, read)] s' ∧
      Paged p rows (built ++ rowsOf p (read.lines.map Prod.fst)) s'.progress ∧
      s'.progress.stats.linesRead = s.progress.stats.linesRead + read.lines.length := by
  obtain ⟨progress, hadd, hpaged, hcount⟩ := addLines_spec _ hs haccepted
  obtain ⟨s', hend, hread, hprogress⟩ :=
    endStream_spec finalize { s with progress := progress } streamId read
  refine ⟨s', ?_, ⟨hread.cursors_eq, hread.completed_eq, hread.errors_eq⟩, ?_, ?_⟩
  · rw [readStream, readLines_of_addLines hadd]
    exact hend
  · rw [hprogress]
    exact hpaged
  · rw [hprogress, hcount, List.length_map]

/-- Streams whose full pages are taken are read up to the first that raises. -/
theorem readStreams_spec {p : Pipeline α ρ κ} {rows : List ρ} (finalize : Bool)
    (reads : List (String × StreamRead α)) :
    ∀ {built : List ρ} {s : SourceProgress ρ}, Paged p rows built s.progress →
      Accepted p (written (page p) (built ++ rowsOf p (linesOf (attempted reads)))) →
      ∃ s', readStreams p finalize s reads = (s', failureOf reads) ∧
        ReadThrough finalize s (attempted reads) s' ∧
        Paged p rows (built ++ rowsOf p (linesOf (attempted reads))) s'.progress ∧
        s'.progress.stats.linesRead =
          s.progress.stats.linesRead + (linesOf (attempted reads)).length := by
  induction reads with
  | nil =>
    intro built s hs _
    refine ⟨s, rfl, readThrough_nil finalize s, ?_, rfl⟩
    simpa [attempted, linesOf] using hs
  | cons q rest ih =>
    obtain ⟨streamId, read⟩ := q
    intro built s hs haccepted
    rw [attempted_cons] at haccepted ⊢
    rw [failureOf_cons]
    by_cases hraised : (raisedBy read).isSome
    · simp only [if_pos hraised] at haccepted ⊢
      have hlines : linesOf [(streamId, read)] = read.lines.map Prod.fst := by simp [linesOf]
      rw [hlines] at haccepted ⊢
      obtain ⟨s', hstream, hread, hpaged, hcount⟩ :=
        readStream_spec finalize streamId read hs haccepted
      refine ⟨s', ?_, hread, hpaged, by rw [hcount, List.length_map]⟩
      obtain ⟨e, he⟩ := Option.isSome_iff_exists.mp hraised
      rw [readStreams, hstream, he]
    · simp only [if_neg hraised] at haccepted ⊢
      have hlines : linesOf ((streamId, read) :: attempted rest) =
          read.lines.map Prod.fst ++ linesOf (attempted rest) := by simp [linesOf]
      rw [hlines, rowsOf_append, ← List.append_assoc] at haccepted ⊢
      obtain ⟨s₁, hstream, hread₁, hpaged₁, hcount₁⟩ := readStream_spec finalize streamId read hs
        (haccepted.of_prefix (written_of_append _ _ _))
      obtain ⟨s₂, hrest, hread₂, hpaged₂, hcount₂⟩ := ih hpaged₁ haccepted
      refine ⟨s₂, ?_, hread₁.append hread₂, hpaged₂, ?_⟩
      · rw [readStreams, hstream, Option.not_isSome_iff_eq_none.mp hraised]
        exact hrest
      · rw [hcount₂, hcount₁, List.length_append, List.length_map]
        omega

/-- Streams with a row in a full page that is not taken fail on the write. -/
theorem readStreams_of_rejected {p : Pipeline α ρ κ} {rows : List ρ} (finalize : Bool)
    (reads : List (String × StreamRead α)) :
    ∀ {built : List ρ} {s : SourceProgress ρ}, Paged p rows built s.progress →
      Accepted p (written (page p) built) →
      ¬Accepted p (written (page p) (built ++ rowsOf p (linesOf (attempted reads)))) →
      ∃ s' e, readStreams p finalize s reads = (s', some e) ∧
        Rejects p (built ++ rowsOf p (linesOf (attempted reads))) e := by
  induction reads with
  | nil =>
    intro built s _ hbefore hrejected
    simp [attempted, linesOf] at hrejected
    exact absurd hbefore hrejected
  | cons q rest ih =>
    obtain ⟨streamId, read⟩ := q
    intro built s hs hbefore hrejected
    by_cases hstream :
        Accepted p (written (page p) (built ++ rowsOf p (read.lines.map Prod.fst)))
    · obtain ⟨s₁, hone, -, hpaged₁, -⟩ :=
        readStream_spec finalize streamId read hs hstream
      rw [attempted_cons] at hrejected
      by_cases hraised : (raisedBy read).isSome
      · simp only [if_pos hraised] at hrejected
        have hlines : linesOf [(streamId, read)] = read.lines.map Prod.fst := by simp [linesOf]
        rw [hlines] at hrejected
        exact absurd hstream hrejected
      · simp only [if_neg hraised] at hrejected
        have hlines : linesOf ((streamId, read) :: attempted rest) =
            read.lines.map Prod.fst ++ linesOf (attempted rest) := by simp [linesOf]
        rw [hlines, rowsOf_append, ← List.append_assoc] at hrejected
        obtain ⟨s₂, e, hrest, hrejects⟩ := ih hpaged₁ hstream hrejected
        rw [attempted_cons, if_neg hraised, hlines, rowsOf_append, ← List.append_assoc]
        refine ⟨s₂, e, ?_, hrejects⟩
        rw [readStreams, hone, Option.not_isSome_iff_eq_none.mp hraised]
        exact hrest
    · obtain ⟨progress, e, hadd, hrejects⟩ := addLines_of_rejected _ hs hbefore hstream
      obtain ⟨cursor, hlines⟩ := readLines_of_addLines_some hadd
      refine ⟨{ s with progress := progress, cursors := s.cursors.insert streamId cursor }, e,
        by rw [readStreams, readStream, hlines], hrejects.mono ?_⟩
      rw [attempted_cons, apply_ite linesOf]
      split
      · simp [linesOf]
      · simp [linesOf, rowsOf_append]

/-! A run over streams. -/

/-- Some stream was unavailable and none gave a line. -/
def AllUnavailable (reads : List (String × StreamRead α)) : Prop :=
  reasonsOf reads ≠ [] ∧ linesOf reads = []

/-- The ways a run over streams can end. -/
inductive StreamsOutcome (p : Pipeline α ρ κ) (finalize : Bool) (s : SourceProgress ρ)
    (reads : List (String × StreamRead α)) : SourceProgress ρ × Option IngestError → Prop
  | rejected {s' : SourceProgress ρ} {e : IngestError}
      (hrejected : ¬Accepted p (rowsOf p (linesOf (attempted reads))))
      (hrejects : Rejects p (rowsOf p (linesOf (attempted reads))) e) :
      StreamsOutcome p finalize s reads (s', some e)
  | raised {s' : SourceProgress ρ} {e : IngestError} (hfailure : failureOf reads = some e)
      (hread : ReadThrough finalize s (attempted reads) s')
      (hpaged : Paged p s.progress.rows (rowsOf p (linesOf (attempted reads))) s'.progress) :
      StreamsOutcome p finalize s reads (s', some e)
  | unavailable {s' : SourceProgress ρ} {reason : String} (hfailure : failureOf reads = none)
      (hall : AllUnavailable reads) (hread : ReadThrough finalize s reads s')
      (hrows : s'.progress.rows = s.progress.rows) :
      StreamsOutcome p finalize s reads (s', some (.adapterUnavailable reason))
  | finished {s' : SourceProgress ρ} (hfailure : failureOf reads = none)
      (hsome : ¬AllUnavailable reads) (hread : ReadThrough finalize s reads s')
      (haccepted : Accepted p (rowsOf p (linesOf reads)))
      (hrows : s'.progress.rows = upsertAll p.key s.progress.rows (rowsOf p (linesOf reads))) :
      StreamsOutcome p finalize s reads (s', none)

theorem finishStreams_of_none {p : Pipeline α ρ κ} {s : SourceProgress ρ}
    (h : s.adapterErrors ≠ [] ∧ s.progress.stats.linesRead = 0) :
    finishStreams p s = (s, some (.adapterUnavailable ("; ".intercalate s.adapterErrors))) :=
  if_pos h

theorem finishStreams_of_some {p : Pipeline α ρ κ} {s : SourceProgress ρ}
    (h : ¬(s.adapterErrors ≠ [] ∧ s.progress.stats.linesRead = 0)) {progress : Progress ρ}
    {e : Option IngestError} (hfinish : finishLines p s.progress = (progress, e)) :
    finishStreams p s = ({ s with progress := progress }, e) := by
  rw [finishStreams, if_neg h, hfinish]

/-- The variables of a run over streams when its loop starts. -/
def startState (rows : List ρ) (stats : IngestionStats) (completed : Finset String) :
    SourceProgress ρ :=
  ⟨⟨rows, [], stats⟩, ∅, completed, []⟩

theorem ingestStreams_outcome (p : Pipeline α ρ κ) (finalize : Bool) (rows : List ρ)
    (stats : IngestionStats) (hstats : stats.linesRead = 0) (completed : Finset String)
    (reads : List (String × StreamRead α)) :
    StreamsOutcome p finalize (startState rows stats completed) reads
      (ingestStreams p finalize (startState rows stats completed) reads) := by
  have hstart : Paged p rows [] (startState rows stats completed).progress :=
    paged_nil p rows stats
  unfold ingestStreams
  by_cases hwritten : Accepted p (written (page p) (rowsOf p (linesOf (attempted reads))))
  · obtain ⟨s₁, hreads, hread, hpaged, hcount⟩ :=
      readStreams_spec finalize reads hstart hwritten
    rw [hreads]
    cases hfailure : failureOf reads with
    | some e => exact .raised hfailure hread hpaged
    | none =>
      rw [attempted_eq_of_failure_none hfailure] at hread hpaged hcount
      have hlines : s₁.progress.stats.linesRead = 0 ↔ linesOf reads = [] := by
        rw [hcount, startState, hstats, Nat.zero_add, List.length_eq_zero_iff]
      have herrors : s₁.adapterErrors = reasonsOf reads := hread.errors_eq
      have hnone : s₁.adapterErrors ≠ [] ∧ s₁.progress.stats.linesRead = 0 ↔
          AllUnavailable reads := by
        rw [herrors, hlines]
        rfl
      dsimp only
      by_cases hall : AllUnavailable reads
      · rw [finishStreams_of_none (hnone.mpr hall)]
        refine .unavailable hfailure hall hread ?_
        rw [hpaged.rows_eq, hall.2]
        simp [written, upsertAll, startState]
      · by_cases hpending : Accepted p (pending (page p) (rowsOf p (linesOf reads)))
        · obtain ⟨s₂, hfinish, hrows, -⟩ := finishLines_spec hpaged hpending
          rw [finishStreams_of_some (fun h => hall (hnone.mp h)) hfinish]
          refine .finished hfailure hall ⟨hread.cursors_eq, hread.completed_eq,
            hread.errors_eq⟩ ?_ hrows
          intro r hr
          rw [attempted_eq_of_failure_none hfailure] at hwritten
          rw [← written_append_pending (page p) (rowsOf p (linesOf reads)),
            List.mem_append] at hr
          exact hr.elim (hwritten r) (hpending r)
        · obtain ⟨e, hfinish, hrejects⟩ := finishLines_of_rejected hpaged hpending
          rw [finishStreams_of_some (fun h => hall (hnone.mp h)) hfinish]
          rw [← attempted_eq_of_failure_none hfailure] at hrejects
          refine .rejected (fun haccepted => hpending ?_) hrejects
          rw [attempted_eq_of_failure_none hfailure] at haccepted
          exact fun r hr => haccepted r (List.mem_of_mem_drop hr)
  · have hbefore : Accepted p (written (page p) ([] : List ρ)) := by
      simp [written, Accepted]
    obtain ⟨s', e, hreads, hrejects⟩ :=
      readStreams_of_rejected finalize reads hstart hbefore hwritten
    rw [hreads]
    exact .rejected (fun haccepted =>
      hwritten (fun r hr => haccepted r (List.mem_of_mem_take hr))) hrejects

end Raglogs.IngestionLaws

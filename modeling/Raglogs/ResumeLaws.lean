import Raglogs.IngestionLaws

/-!
Resuming a run over streams. A cursor stands for the lines before it, a completed
stream for all of its lines, and a retry reads neither again. The stored state is safe
when every line it stands for has its row in the table. A run that ends in an exception
the adapter was not expected to raise stores its cursors but not the rows of the page
that was not full, so its state is safe only if those rows lie beyond the cursors or
are duplicates.
-/

namespace Raglogs.ResumeLaws

open Dicts Upserts Ingestion IngestionLaws

variable {α ρ κ : Type*}

/-- The lines that each stream has in the window, and how many of them a cursor covers. -/
structure SourceWindow (α : Type*) where
  lines : String → List α
  position : String → Option String → ℕ
  position_none : ∀ streamId, position streamId none = 0

namespace SourceWindow

/-- An adapter that yields the lines after the cursor in order and may stop anywhere; the
cursor it leaves covers no line that it has not yielded. -/
structure Honest (w : SourceWindow α) (ref : LogStreamRef α) : Prop where
  cursor_none : ref.cursor = none
  yields : ∀ c, (ref.read c).lines.map Prod.fst <+:
    (w.lines ref.streamId).drop (w.position ref.streamId c)
  position_le : ∀ c, w.position ref.streamId (ref.read c).cursor ≤
    w.position ref.streamId c + (ref.read c).lines.length
  exhausted : ∀ c, (ref.read c).ending = .exhausted → (ref.read c).cursor = none →
    (ref.read c).lines.map Prod.fst = (w.lines ref.streamId).drop (w.position ref.streamId c)

/-- An adapter that reads the stream to the end. -/
structure Succeeds (w : SourceWindow α) (ref : LogStreamRef α) : Prop where
  cursor_none : ref.cursor = none
  yields : ∀ c, (ref.read c).lines.map Prod.fst =
    (w.lines ref.streamId).drop (w.position ref.streamId c)
  ending : ∀ c, (ref.read c).ending = .exhausted
  cursor : ∀ c, (ref.read c).cursor = none

/-- The place in the stream where a read starts. -/
def startOf (w : SourceWindow α) (cursors : Cursors) (streamId : String) : ℕ :=
  w.position streamId ((cursors.lookup streamId).getD none)

/-- The stored state stands for a line of a stream. -/
def Covers (w : SourceWindow α) (cursors : Cursors) (completed : Finset String)
    (streamId : String) (i : ℕ) : Prop :=
  streamId ∈ completed ∨ i < w.startOf cursors streamId

end SourceWindow

section Attempts

variable [DecidableEq κ] (p : Pipeline α ρ κ) (w : SourceWindow α) (request : SourceRequest α)

/-- One call of `ingestFromSource` with a resume state. -/
def attempt (rows : List ρ) (refs : List (LogStreamRef α)) (cursors : Cursors)
    (completed : Finset String) : IngestRun ρ :=
  ingestFromSource p rows
    { request with
      discover := .ok refs
      resumeCursors := cursors
      resumeCompletedStreams := completed }
    none true

/-- The cursors that the job of a run has stored. -/
def storedCursors (run : IngestRun ρ) : Cursors :=
  (run.job.bind (fun job => job.metadata.cursors)).getD ∅

def storedCompleted (run : IngestRun ρ) : Finset String :=
  (run.job.bind (fun job => job.metadata.completedStreams)).getD ∅

/-- Every covered line is blank, an error, or has its row in the table. -/
def Safe (rows : List ρ) (cursors : Cursors) (completed : Finset String) : Prop :=
  ∀ streamId i line r, (w.lines streamId)[i]? = some line →
    w.Covers cursors completed streamId i → (p.processLine line).row? = some r →
    Holds p.key rows r

/-- The rows of reads, with the stream and the index of the line they come from. -/
def taggedRows (cursors : Cursors) (reads : List (String × StreamRead α)) :
    List (String × ℕ × ρ) :=
  reads.flatMap (fun q => (q.2.lines.zipIdx (w.startOf cursors q.1)).filterMap
    (fun x => (p.processLine x.1.1).row?.map (fun r => (q.1, x.2, r))))

/-- When a read raises, each row of the page that is not full lies beyond what its stream
has reported, or duplicates a row that is in the table. -/
def NothingCoveredPending (rows : List ρ) (refs : List (LogStreamRef α)) (cursors : Cursors)
    (completed : Finset String) : Prop :=
  let reads := streamReads refs cursors completed
  failureOf reads = none ∨
    ∀ t ∈ pending (page p) (taggedRows p w cursors (attempted reads)),
      w.Covers (cursorsOf ∅ (attempted reads)) (completed ∪ exhaustedOf (attempted reads))
        t.1 t.2.1 →
      Holds p.key (rows ++ written (page p) (rowsOf p (linesOf (attempted reads)))) t.2.2

end Attempts

section Runs

variable [DecidableEq κ] {p : Pipeline α ρ κ} {w : SourceWindow α} {request : SourceRequest α}

theorem attempt_of_nil (rows : List ρ) (cursors : Cursors) (completed : Finset String) :
    attempt p request rows [] cursors completed =
      ⟨rows, none, { IngestionStats.zero with filesProcessed := 0 },
        some (.noStreams request.spec)⟩ := rfl

variable (p request) in
/-- What an attempt leaves is what its run over the streams leaves. -/
theorem attempt_eq (rows : List ρ) {refs : List (LogStreamRef α)} (hrefs : refs ≠ [])
    (cursors : Cursors) (completed : Finset String) :
    ∃ stats : IngestionStats, stats.linesRead = 0 ∧
      let out := ingestStreams p true (startState rows stats completed)
        (streamReads refs cursors completed)
      (attempt p request rows refs cursors completed).rows = out.1.progress.rows ∧
      storedCursors (attempt p request rows refs cursors completed) = out.1.cursors ∧
      storedCompleted (attempt p request rows refs cursors completed) =
        out.1.completedStreams ∧
      (attempt p request rows refs cursors completed).error = out.2 := by
  refine ⟨{ IngestionStats.zero with filesProcessed := refs.length }, rfl, ?_⟩
  unfold attempt ingestFromSource
  simp only [if_neg hrefs]
  unfold startState
  split
  · rename_i s hout
    rw [hout]
    exact ⟨rfl, rfl, rfl, rfl⟩
  · rename_i s e hout
    rw [hout]
    exact ⟨rfl, rfl, rfl, rfl⟩

/-- The rows that reads leave in the table: all of them, or the full pages only. -/
def keptRows (p : Pipeline α ρ κ) (reads : List (String × StreamRead α)) : List ρ :=
  if failureOf reads = none then rowsOf p (linesOf (attempted reads))
  else written (page p) (rowsOf p (linesOf (attempted reads)))

variable (request) in
theorem attempt_state (haccepts : ∀ r, p.accepts r = true) (rows : List ρ)
    {refs : List (LogStreamRef α)} (hrefs : refs ≠ []) (cursors : Cursors)
    (completed : Finset String) :
    let reads := streamReads refs cursors completed
    (attempt p request rows refs cursors completed).rows = upsertAll p.key rows (keptRows p reads) ∧
      storedCursors (attempt p request rows refs cursors completed) =
        cursorsOf ∅ (attempted reads) ∧
      storedCompleted (attempt p request rows refs cursors completed) =
        completed ∪ exhaustedOf (attempted reads) := by
  intro reads
  obtain ⟨stats, hstats, hrows, hcursors, hcompleted, -⟩ :=
    attempt_eq p request rows hrefs cursors completed
  have hout := ingestStreams_outcome p true rows stats hstats completed reads
  rw [hrows, hcursors, hcompleted]
  generalize ingestStreams p true (startState rows stats completed) reads = out at hout ⊢
  cases hout with
  | rejected hrejected _ => exact absurd (fun r _ => haccepts r) hrejected
  | raised hfailure hread hpaged =>
    refine ⟨?_, hread.cursors_eq, hread.completed_eq⟩
    rw [keptRows, if_neg (by rw [hfailure]; exact Option.some_ne_none _)]
    exact hpaged.rows_eq
  | unavailable hfailure hall hread hkept =>
    rw [attempted_eq_of_failure_none hfailure]
    refine ⟨?_, hread.cursors_eq, hread.completed_eq⟩
    rw [keptRows, if_pos hfailure, attempted_eq_of_failure_none hfailure, hall.2]
    exact hkept
  | finished hfailure hsome hread haccepted hkept =>
    rw [attempted_eq_of_failure_none hfailure]
    refine ⟨?_, hread.cursors_eq, hread.completed_eq⟩
    rw [keptRows, if_pos hfailure, attempted_eq_of_failure_none hfailure]
    exact hkept

/-! What reads report. -/

omit [DecidableEq κ] in
theorem mem_taggedRows {cursors : Cursors} {reads : List (String × StreamRead α)}
    {streamId : String} {i : ℕ} {r : ρ} :
    (streamId, i, r) ∈ taggedRows p w cursors reads ↔
      ∃ q ∈ reads, q.1 = streamId ∧ ∃ j line, q.2.lines[j]? = some line ∧
        i = w.startOf cursors streamId + j ∧ (p.processLine line.1).row? = some r := by
  simp only [taggedRows, List.mem_flatMap, List.mem_filterMap, Option.map_eq_some_iff]
  constructor
  · rintro ⟨q, hq, ⟨line, k⟩, hx, r', hr', heq⟩
    cases heq
    rw [List.mem_zipIdx_iff_le_and_getElem?_sub] at hx
    refine ⟨q, hq, rfl, k - w.startOf cursors q.1, line, hx.2, ?_, hr'⟩
    have hle := hx.1
    omega
  · rintro ⟨q, hq, rfl, j, line, hline, rfl, hr⟩
    refine ⟨q, hq, (line, w.startOf cursors q.1 + j), ?_, r, hr, rfl⟩
    rw [List.mem_zipIdx_iff_le_and_getElem?_sub]
    refine ⟨Nat.le_add_right _ _, ?_⟩
    simpa using hline

omit [DecidableEq κ] in
theorem map_taggedRows (cursors : Cursors) (reads : List (String × StreamRead α)) :
    (taggedRows p w cursors reads).map (fun t => t.2.2) = rowsOf p (linesOf reads) := by
  rw [taggedRows, rowsOf, linesOf, List.map_flatMap, List.filterMap_flatMap]
  congr 1
  funext q
  have hrow : ∀ x : (α × Option String) × ℕ,
      ((p.processLine x.1.1).row?.map (fun r => (q.1, x.2, r))).map (fun t => t.2.2) =
        (p.processLine x.1.1).row? := by
    intro x
    cases (p.processLine x.1.1).row? <;> rfl
  simp only [List.map_filterMap, hrow]
  calc (q.2.lines.zipIdx (w.startOf cursors q.1)).filterMap
        (fun x => (p.processLine x.1.1).row?)
      = ((q.2.lines.zipIdx (w.startOf cursors q.1)).map Prod.fst).filterMap
          (fun line => (p.processLine line.1).row?) := by
        rw [List.filterMap_map]
        rfl
    _ = (q.2.lines.map Prod.fst).filterMap (fun line => (p.processLine line).row?) := by
        rw [List.zipIdx_map_fst, List.filterMap_map]
        rfl

/-! Safety of the stored state. -/

section Safety

variable {refs : List (LogStreamRef α)} {cursors : Cursors} {completed : Finset String}

/-- The lines of a read are the lines of its stream from where it starts. -/
theorem getElem?_of_read (hhonest : ∀ ref ∈ refs, w.Honest ref) {q : String × StreamRead α}
    (hq : q ∈ streamReads refs cursors completed) {j : ℕ} {line : α × Option String}
    (hline : q.2.lines[j]? = some line) :
    (w.lines q.1)[w.startOf cursors q.1 + j]? = some line.1 := by
  obtain ⟨ref, href, -, hid, hread⟩ := mem_streamReads (fun ref h => (hhonest ref h).cursor_none) hq
  obtain ⟨rest, hrest⟩ := (hhonest ref href).yields ((cursors.lookup ref.streamId).getD none)
  have hmap : (q.2.lines.map Prod.fst)[j]? = some line.1 := by
    rw [List.getElem?_map, hline]
    rfl
  rw [hid, ← List.getElem?_drop, SourceWindow.startOf, ← hrest, ← hread]
  obtain ⟨hlt, -⟩ := List.getElem?_eq_some_iff.mp hmap
  rw [List.getElem?_append_left hlt]
  exact hmap

/-- A line that a read reports and that lies after its start is one it yielded. -/
theorem exists_line_of_reported (hhonest : ∀ ref ∈ refs, w.Honest ref)
    {q : String × StreamRead α} (hq : q ∈ streamReads refs cursors completed) {i : ℕ} {line : α}
    (hline : (w.lines q.1)[i]? = some line) (hstart : w.startOf cursors q.1 ≤ i)
    (hreported : q.2.ending = .exhausted ∧ q.2.cursor = none ∨ i < w.position q.1 q.2.cursor) :
    ∃ c, q.2.lines[i - w.startOf cursors q.1]? = some (line, c) := by
  obtain ⟨ref, href, -, hid, hread⟩ := mem_streamReads (fun ref h => (hhonest ref h).cursor_none) hq
  have hlt : i - w.startOf cursors q.1 < q.2.lines.length := by
    rw [hid] at hstart hline ⊢
    rcases hreported with ⟨hending, hcursor⟩ | hposition
    · rw [hread] at hending hcursor
      have hall := congrArg List.length ((hhonest ref href).exhausted _ hending hcursor)
      rw [List.length_map, List.length_drop, ← hread] at hall
      obtain ⟨hlength, -⟩ := List.getElem?_eq_some_iff.mp hline
      rw [hall]
      unfold SourceWindow.startOf at hstart ⊢
      omega
    · have hle := (hhonest ref href).position_le ((cursors.lookup ref.streamId).getD none)
      rw [← hread] at hle
      rw [hid] at hposition
      unfold SourceWindow.startOf at hstart ⊢
      omega
  have hget := List.getElem?_eq_getElem hlt
  have hsame := getElem?_of_read hhonest hq hget
  rw [Nat.add_sub_cancel' hstart, hline] at hsame
  rw [hget]
  exact ⟨(q.2.lines[i - w.startOf cursors q.1]).2, by rw [Option.some_inj.mp hsame]⟩

/-- What the reported state stands for was reported by a read. -/
theorem exists_read_of_covers {reads : List (String × StreamRead α)} {streamId : String} {i : ℕ}
    (h : w.Covers (cursorsOf ∅ reads) (completed ∪ exhaustedOf reads) streamId i) :
    streamId ∈ completed ∨ ∃ q ∈ reads, q.1 = streamId ∧
      (q.2.ending = .exhausted ∧ q.2.cursor = none ∨ i < w.position q.1 q.2.cursor) := by
  rcases h with h | h
  · rcases Finset.mem_union.mp h with h | h
    · exact Or.inl h
    · obtain ⟨q, hq, hid, hread⟩ := mem_exhaustedOf.mp h
      exact Or.inr ⟨q, hq, hid, Or.inl hread⟩
  · unfold SourceWindow.startOf at h
    cases hlookup : (cursorsOf ∅ reads).lookup streamId with
    | none =>
      rw [hlookup, Option.getD_none, w.position_none] at h
      exact absurd h (Nat.not_lt_zero i)
    | some c =>
      obtain ⟨q, hq, hid, hcursor⟩ := lookup_cursorsOf hlookup
      rw [hlookup, Option.getD_some] at h
      exact Or.inr ⟨q, hq, hid, Or.inr (by rw [hid, hcursor]; exact h)⟩

omit [DecidableEq κ] in
/-- A row of a covered line was in the table, or its line was yielded by a read. -/
theorem tagged_of_covers (hhonest : ∀ ref ∈ refs, w.Honest ref) {rows : List ρ}
    (hsafe : Safe p w rows cursors completed) {streamId : String} {i : ℕ} {line : α} {r : ρ}
    (hline : (w.lines streamId)[i]? = some line) (hr : (p.processLine line).row? = some r)
    (hcovers : w.Covers (cursorsOf ∅ (attempted (streamReads refs cursors completed)))
      (completed ∪ exhaustedOf (attempted (streamReads refs cursors completed))) streamId i) :
    Holds p.key rows r ∨
      (streamId, i, r) ∈ taggedRows p w cursors
        (attempted (streamReads refs cursors completed)) := by
  rcases exists_read_of_covers hcovers with hdone | ⟨q, hq, rfl, hreported⟩
  · exact Or.inl (hsafe streamId i line r hline (Or.inl hdone) hr)
  · by_cases hstart : w.startOf cursors q.1 ≤ i
    · obtain ⟨c, hget⟩ := exists_line_of_reported hhonest (attempted_subset hq) hline hstart
        hreported
      exact Or.inr (mem_taggedRows.mpr
        ⟨q, hq, rfl, i - w.startOf cursors q.1, (line, c), hget,
          (Nat.add_sub_cancel' hstart).symm, hr⟩)
    · exact Or.inl (hsafe q.1 i line r hline (Or.inr (not_le.mp hstart)) hr)

theorem holds_attempt_iff (haccepts : ∀ r, p.accepts r = true) (rows : List ρ) (r : ρ) :
    Holds p.key (attempt p request rows refs cursors completed).rows r ↔
      Holds p.key rows r ∨
        Holds p.key (keptRows p (streamReads refs cursors completed)) r := by
  by_cases hrefs : refs = []
  · subst hrefs
    have hkept : keptRows p (streamReads ([] : List (LogStreamRef α)) cursors completed) = [] :=
      rfl
    rw [attempt_of_nil, hkept]
    simp [holds_nil]
  · rw [(attempt_state request haccepts rows hrefs cursors completed).1, holds_upsertAll]

/-- After an attempt the stored state is safe exactly when nothing it covers was pending. -/
theorem safe_attempt_iff (haccepts : ∀ r, p.accepts r = true)
    (hhonest : ∀ ref ∈ refs, w.Honest ref) {rows : List ρ}
    (hsafe : Safe p w rows cursors completed) (hrefs : refs ≠ []) :
    Safe p w (attempt p request rows refs cursors completed).rows
        (storedCursors (attempt p request rows refs cursors completed))
        (storedCompleted (attempt p request rows refs cursors completed)) ↔
      NothingCoveredPending p w rows refs cursors completed := by
  obtain ⟨hrows, hcursors, hcompleted⟩ :=
    attempt_state request haccepts rows hrefs cursors completed
  set reads := streamReads refs cursors completed with hreads
  have hmap := map_taggedRows (p := p) (w := w) cursors (attempted reads)
  rw [hcursors, hcompleted, hrows]
  constructor
  · intro hafter
    by_cases hfailure : failureOf reads = none
    · exact Or.inl hfailure
    · refine Or.inr ?_
      rintro ⟨streamId, i, r⟩ ht hcovers
      obtain ⟨q, hq, rfl, j, line, hget, rfl, hr⟩ :=
        mem_taggedRows.mp (List.mem_of_mem_drop ht)
      have hline := getElem?_of_read hhonest (attempted_subset hq) hget
      have hholds := hafter q.1 _ line.1 r hline hcovers hr
      rwa [holds_upsertAll, keptRows, if_neg hfailure, ← holds_append] at hholds
  · intro hpending streamId i line r hline hcovers hr
    rw [holds_upsertAll]
    rcases tagged_of_covers hhonest hsafe hline hr hcovers with hheld | htagged
    · exact Or.inl hheld
    · have hbuilt : r ∈ rowsOf p (linesOf (attempted reads)) := by
        rw [← hmap]
        exact List.mem_map_of_mem htagged
      by_cases hfailure : failureOf reads = none
      · rw [keptRows, if_pos hfailure]
        exact Or.inr (holds_of_mem hbuilt)
      · rw [keptRows, if_neg hfailure, ← holds_append]
        rw [← written_append_pending (page p) (taggedRows p w cursors (attempted reads)),
          List.mem_append] at htagged
        rcases htagged with hwritten | hleft
        · rw [holds_append, ← hmap, ← map_written]
          exact Or.inr (holds_of_mem (List.mem_map_of_mem hwritten))
        · exact (hpending.resolve_left hfailure) _ hleft hcovers

end Safety

/-! A retry that succeeds. -/

section Retry

variable {refs refs' : List (LogStreamRef α)} {cursors : Cursors} {completed : Finset String}

/-- The rows of all lines of the streams. -/
def allRows (p : Pipeline α ρ κ) (w : SourceWindow α) (refs : List (LogStreamRef α)) : List ρ :=
  rowsOf p (refs.flatMap (fun ref => w.lines ref.streamId))

omit [DecidableEq κ] in
theorem mem_allRows {r : ρ} :
    r ∈ allRows p w refs ↔ ∃ ref ∈ refs, ∃ (i : ℕ) (line : α),
      (w.lines ref.streamId)[i]? = some line ∧ (p.processLine line).row? = some r := by
  rw [allRows, mem_rowsOf]
  constructor
  · rintro ⟨line, hline, hr⟩
    obtain ⟨ref, href, hmem⟩ := List.mem_flatMap.mp hline
    obtain ⟨i, hi⟩ := List.mem_iff_getElem?.mp hmem
    exact ⟨ref, href, i, line, hi, hr⟩
  · rintro ⟨ref, href, i, line, hline, hr⟩
    exact ⟨line, List.mem_flatMap.mpr ⟨ref, href, List.mem_of_getElem? hline⟩, hr⟩

omit [DecidableEq κ] in
theorem SourceWindow.Succeeds.honest {ref : LogStreamRef α} (h : w.Succeeds ref) :
    w.Honest ref where
  cursor_none := h.cursor_none
  yields c := by rw [h.yields c]
  position_le c := by
    rw [h.cursor c, w.position_none]
    exact Nat.zero_le _
  exhausted c _ _ := h.yields c

omit [DecidableEq κ] in
/-- An honest adapter gives no row that is not a row of its streams. -/
theorem mem_allRows_of_kept (hhonest : ∀ ref ∈ refs, w.Honest ref) {r : ρ}
    (h : r ∈ keptRows p (streamReads refs cursors completed)) : r ∈ allRows p w refs := by
  have hbuilt : r ∈ rowsOf p (linesOf (attempted (streamReads refs cursors completed))) := by
    unfold keptRows at h
    split at h
    · exact h
    · exact List.mem_of_mem_take h
  obtain ⟨line, hline, hr⟩ := mem_rowsOf.mp hbuilt
  obtain ⟨q, hq, hmem⟩ := List.mem_flatMap.mp hline
  obtain ⟨pair, hpair, rfl⟩ := List.mem_map.mp hmem
  obtain ⟨j, hj⟩ := List.mem_iff_getElem?.mp hpair
  have hsame := getElem?_of_read hhonest (attempted_subset hq) hj
  obtain ⟨ref, href, -, hid, -⟩ :=
    mem_streamReads (fun ref h => (hhonest ref h).cursor_none) (attempted_subset hq)
  exact mem_allRows.mpr ⟨ref, href, _, pair.1, hid ▸ hsame, hr⟩

variable (cursors completed) in
theorem failureOf_of_succeeds (hsucceeds : ∀ ref ∈ refs, w.Succeeds ref) :
    failureOf (streamReads refs cursors completed) = none := by
  have hnone : ∀ q ∈ streamReads refs cursors completed, raisedBy q.2 = none := by
    intro q hq
    obtain ⟨ref, href, -, -, hread⟩ :=
      mem_streamReads (fun ref h => (hsucceeds ref h).cursor_none) hq
    rw [hread, raisedBy, (hsucceeds ref href).ending]
  generalize streamReads refs cursors completed = reads at hnone
  induction reads with
  | nil => rfl
  | cons q rest ih =>
    rw [failureOf_cons, hnone q List.mem_cons_self]
    exact ih fun q' hq' => hnone q' (List.mem_cons_of_mem q hq')

/-- From a safe state, a run that succeeds leaves every row of its streams. -/
theorem holds_retry_iff (haccepts : ∀ r, p.accepts r = true)
    (hsucceeds : ∀ ref ∈ refs, w.Succeeds ref) {rows : List ρ}
    (hsafe : Safe p w rows cursors completed) (r : ρ) :
    Holds p.key (attempt p request rows refs cursors completed).rows r ↔
      Holds p.key rows r ∨ Holds p.key (allRows p w refs) r := by
  have hfailure := failureOf_of_succeeds cursors completed hsucceeds
  rw [holds_attempt_iff haccepts]
  constructor
  · rintro (h | ⟨r', hr', hsame⟩)
    · exact Or.inl h
    · exact Or.inr ⟨r', mem_allRows_of_kept (fun ref h => (hsucceeds ref h).honest) hr', hsame⟩
  · rintro (h | ⟨r', hr', hsame⟩)
    · exact Or.inl h
    · rw [← holds_congr hsame, ← holds_congr hsame]
      obtain ⟨ref, href, i, line, hline, hr⟩ := mem_allRows.mp hr'
      by_cases hcovers : w.Covers cursors completed ref.streamId i
      · exact Or.inl (hsafe ref.streamId i line r' hline hcovers hr)
      · refine Or.inr (holds_of_mem ?_)
        obtain ⟨hfresh, hstart⟩ := not_or.mp hcovers
        rw [keptRows, if_pos hfailure, attempted_eq_of_failure_none hfailure, mem_rowsOf]
        refine ⟨line, ?_, hr⟩
        have hread : (ref.streamId, ref.read ((cursors.lookup ref.streamId).getD none)) ∈
            streamReads refs cursors completed := by
          refine List.mem_map.mpr ⟨ref, List.mem_filter.mpr ⟨href, decide_eq_true hfresh⟩, ?_⟩
          simp only [startCursor, if_neg hfresh, (hsucceeds ref href).cursor_none]
        refine List.mem_flatMap.mpr ⟨_, hread, ?_⟩
        rw [(hsucceeds ref href).yields]
        refine List.mem_of_getElem? (i := i - w.startOf cursors ref.streamId) ?_
        rw [List.getElem?_drop]
        change (w.lines ref.streamId)[w.startOf cursors ref.streamId +
          (i - w.startOf cursors ref.streamId)]? = some line
        rw [Nat.add_sub_cancel' (not_lt.mp hstart)]
        exact hline

end Retry

/-! Resuming. -/

omit [DecidableEq κ] in
theorem safe_start (rows : List ρ) : Safe p w rows ∅ ∅ := by
  intro streamId i line r _ hcovers
  rcases hcovers with hcovers | hcovers
  · exact absurd hcovers (Finset.notMem_empty streamId)
  · rw [SourceWindow.startOf, Finmap.lookup_empty, Option.getD_none, w.position_none] at hcovers
    exact absurd hcovers (Nat.not_lt_zero i)

/-- The state an attempt stores covers no lost line, and a retry from it that succeeds
leaves the rows that one uninterrupted run leaves. -/
structure ResumeSound (p : Pipeline α ρ κ) (w : SourceWindow α) (request : SourceRequest α)
    (rows : List ρ) (refs refs' : List (LogStreamRef α)) : Prop where
  covers_stored :
    let first := attempt p request rows refs ∅ ∅
    Safe p w first.rows (storedCursors first) (storedCompleted first)
  resumed_eq :
    let first := attempt p request rows refs ∅ ∅
    ∀ r, Holds p.key
        (attempt p request first.rows refs' (storedCursors first) (storedCompleted first)).rows r ↔
      Holds p.key (attempt p request rows refs' ∅ ∅).rows r

/-- An attempt can be resumed without losing a line exactly when no row was pending whose
line its stream had already reported. -/
theorem resume_sound_iff (haccepts : ∀ r, p.accepts r = true) (rows : List ρ)
    {refs refs' : List (LogStreamRef α)} (hhonest : ∀ ref ∈ refs, w.Honest ref)
    (hsucceeds : ∀ ref ∈ refs', w.Succeeds ref)
    (hstreams : ∀ streamId,
      streamId ∈ refs.map LogStreamRef.streamId ↔ streamId ∈ refs'.map LogStreamRef.streamId) :
    ResumeSound p w request rows refs refs' ↔ NothingCoveredPending p w rows refs ∅ ∅ := by
  have hsafe : Safe p w (attempt p request rows refs ∅ ∅).rows
        (storedCursors (attempt p request rows refs ∅ ∅))
        (storedCompleted (attempt p request rows refs ∅ ∅)) ↔
      NothingCoveredPending p w rows refs ∅ ∅ := by
    by_cases hrefs : refs = []
    · subst hrefs
      exact iff_of_true (safe_start rows) (Or.inl rfl)
    · exact safe_attempt_iff haccepts hhonest (safe_start rows) hrefs
  refine ⟨fun h => hsafe.mp h.covers_stored, fun h => ⟨hsafe.mpr h, ?_⟩⟩
  intro first r
  rw [holds_retry_iff haccepts hsucceeds (hsafe.mpr h), holds_attempt_iff haccepts,
    holds_retry_iff haccepts hsucceeds (safe_start rows)]
  have hkept : Holds p.key (keptRows p (streamReads refs ∅ ∅)) r →
      Holds p.key (allRows p w refs') r := by
    rintro ⟨r', hr', hsame⟩
    obtain ⟨ref, href, i, line, hline, hrow⟩ :=
      mem_allRows.mp (mem_allRows_of_kept hhonest hr')
    obtain ⟨ref', href', hid⟩ := List.mem_map.mp
      ((hstreams ref.streamId).mp (List.mem_map_of_mem href))
    exact ⟨r', mem_allRows.mpr ⟨ref', href', i, line, by rw [hid]; exact hline, hrow⟩, hsame⟩
  constructor
  · rintro ((h | h) | h)
    · exact Or.inl h
    · exact Or.inr (hkept h)
    · exact Or.inr h
  · rintro (h | h)
    · exact Or.inl (Or.inl h)
    · exact Or.inr h

end Runs

/-! A stream that is read to the end before another one raises. -/

/-- Every line is a row and its own key, and a page holds five hundred rows. -/
def linePipeline : Pipeline String String String :=
  ⟨500, fun line => .row line, fun _ => none, some, fun _ => none⟩

def sampleWindow : SourceWindow String :=
  ⟨fun streamId => if streamId = "api" then ["timeout"] else [], fun _ _ => 0, fun _ => rfl⟩

def sampleRequest : SourceRequest String :=
  ⟨"loki", "adapter='loki'", .ok [], ∅, ∅, "default"⟩

def apiStream : LogStreamRef String :=
  ⟨"api", none, fun _ => ⟨[("timeout", none)], .exhausted, none⟩⟩

def workerStream (ending : Ending) : LogStreamRef String :=
  ⟨"worker", none, fun _ => ⟨[], ending, none⟩⟩

theorem apiStream_succeeds : sampleWindow.Succeeds apiStream :=
  ⟨rfl, fun _ => rfl, fun _ => rfl, fun _ => rfl⟩

theorem workerStream_honest (ending : Ending) : sampleWindow.Honest (workerStream ending) :=
  ⟨rfl, fun _ => by simp [workerStream], fun _ => Nat.zero_le _, fun _ _ _ => rfl⟩

theorem workerStream_succeeds : sampleWindow.Succeeds (workerStream .exhausted) :=
  ⟨rfl, fun _ => rfl, fun _ => rfl, fun _ => rfl⟩

theorem sample_honest (ending : Ending) :
    ∀ ref ∈ [apiStream, workerStream ending], sampleWindow.Honest ref := by
  intro ref href
  rcases List.mem_pair.mp href with rfl | rfl
  · exact apiStream_succeeds.honest
  · exact workerStream_honest ending

theorem sample_succeeds :
    ∀ ref ∈ [apiStream, workerStream .exhausted], sampleWindow.Succeeds ref := by
  intro ref href
  rcases List.mem_pair.mp href with rfl | rfl
  · exact apiStream_succeeds
  · exact workerStream_succeeds

/-- The line of the first stream is recorded as read and never stored. -/
theorem resume_loses_pending_row :
    (∀ ref ∈ [apiStream, workerStream (.raised "connection reset")], sampleWindow.Honest ref) ∧
    (∀ ref ∈ [apiStream, workerStream .exhausted], sampleWindow.Succeeds ref) ∧
    ¬ResumeSound linePipeline sampleWindow sampleRequest []
      [apiStream, workerStream (.raised "connection reset")]
      [apiStream, workerStream .exhausted] := by
  refine ⟨sample_honest _, sample_succeeds, ?_⟩
  intro h
  obtain ⟨r, hr, -⟩ := h.covers_stored "api" 0 "timeout" "timeout" rfl (Or.inl (by decide)) rfl
  exact absurd hr List.not_mem_nil

theorem resume_sound_unavailable :
    ResumeSound linePipeline sampleWindow sampleRequest []
      [apiStream, workerStream (.unavailable "rate limited")]
      [apiStream, workerStream .exhausted] :=
  (resume_sound_iff (fun _ => rfl) [] (sample_honest (.unavailable "rate limited"))
    sample_succeeds (fun _ => by simp [workerStream])).mpr (Or.inl rfl)

end Raglogs.ResumeLaws

import Raglogs.IngestionLaws
import Raglogs.Tailing

/-!
Which instants a tail job has read. A window is read to the end for a stream when some
read of it ended there, from the beginning or from a cursor that an earlier read of the
same window had reached. Between two polls the stored state promises that everything up
to the poll clock, or up to the start of the window that is held, has been read.
-/

namespace Raglogs.TailCoverage

open Dicts LogEntries Text Upserts Ingestion IngestionLaws Durations Tailing

variable {α ρ κ : Type*} [DecidableEq κ]

/-! One tick. -/

/-- A row of the lines that are read is not sent to the database. -/
def Unsent (p : Pipeline α ρ κ) (reads : List (String × StreamRead α)) : Prop :=
  ∃ r ∈ rowsOf p (linesOf (attempted reads)), p.refusal r = some .client

/-- The poll raises: nothing is discovered, a stream raises, all are unavailable, or a row is
not sent. -/
def PollFails (p : Pipeline α ρ κ) (discovered : Except String (List (LogStreamRef α)))
    (cursors : Cursors) : Prop :=
  match discovered with
  | .error _ => True
  | .ok refs => refs = [] ∨ failureOf (streamReads refs cursors ∅) ≠ none ∨
      AllUnavailable (streamReads refs cursors ∅) ∨ Unsent p (streamReads refs cursors ∅)

/-- The ways a tick over a window can end. -/
inductive TickOutcome (p : Pipeline α ρ κ) (job : IngestionJob) (t : TailTick α)
    (window : TimeWindow) :
    Except TickError (List ρ × IngestionJob) → Prop
  | escaped {e : TickError} : TickOutcome p job t window (.error e)
  | failed {rows' : List ρ} {job' : IngestionJob}
      (hfails : PollFails p (t.adapter window) (cursorsFromJob job))
      (hcursor : job'.cursor = job.cursor) (hmetadata : job'.metadata = job.metadata)
      (hpolled : job'.lastPolledAt = some t.now) (herror : job'.errorMessage ≠ none) :
      TickOutcome p job t window (.ok (rows', job'))
  | polled {refs : List (LogStreamRef α)} {rows' : List ρ} {job' : IngestionJob}
      (hdiscover : t.adapter window = .ok refs)
      (hsucceeds : ¬PollFails p (t.adapter window) (cursorsFromJob job))
      (hcursors : cursorsFromJob job' = cursorsOf ∅ (streamReads refs (cursorsFromJob job) ∅))
      (hheld : heldPagingWindow job' =
        if hasOpenCursors (cursorsFromJob job') then some window else none)
      (hpolled : job'.lastPolledAt = some t.now) (herror : job'.errorMessage = none) :
      TickOutcome p job t window (.ok (rows', job'))

theorem cursorsFromJob_congr {job job' : IngestionJob} (hcursor : job'.cursor = job.cursor)
    (hmetadata : job'.metadata = job.metadata) : cursorsFromJob job' = cursorsFromJob job := by
  rw [cursorsFromJob, cursorsFromJob, hcursor, hmetadata]

theorem heldPagingWindow_congr {job job' : IngestionJob} (hcursor : job'.cursor = job.cursor)
    (hmetadata : job'.metadata = job.metadata) :
    heldPagingWindow job' = heldPagingWindow job := by
  rw [heldPagingWindow, heldPagingWindow, cursorsFromJob_congr hcursor hmetadata, hmetadata]

theorem cursorsFromJob_applyTailWindowProgress (job : IngestionJob) {cursors : Cursors}
    (h : job.cursor = .object cursors) (window : TimeWindow) (now : Timestamp) :
    cursorsFromJob (applyTailWindowProgress job window now) = cursors := by
  unfold cursorsFromJob applyTailWindowProgress
  dsimp only
  rw [h]

theorem heldPagingWindow_applyTailWindowProgress (job : IngestionJob) {cursors : Cursors}
    (h : job.cursor = .object cursors) (window : TimeWindow) (now : Timestamp) :
    heldPagingWindow (applyTailWindowProgress job window now) =
      if hasOpenCursors cursors then some window else none := by
  have hjob : cursorsFromJob job = cursors := by rw [cursorsFromJob, h]
  rw [heldPagingWindow, cursorsFromJob_applyTailWindowProgress job h]
  cases hopen : hasOpenCursors cursors
  · rfl
  · simp [applyTailWindowProgress, hjob, hopen, parseStoredDatetime]

theorem tickOneTailJob_outcome (lowering : Lowering) (p : Pipeline α ρ κ) (errorThreshold : ℕ)
    (rows : List ρ) (job : IngestionJob) (t : TailTick α) {window : TimeWindow}
    (hwindow : tickWindowForJob lowering job t.now t.clock = .ok window) :
    TickOutcome p job t window (tickOneTailJob lowering p errorThreshold rows job t) := by
  unfold tickOneTailJob
  rw [hwindow]
  dsimp only
  unfold ingestFromSource
  cases hdiscover : t.adapter window with
  | error reason =>
    simp only [tickRequest, hdiscover]
    refine .failed ?_ rfl rfl rfl (by simp [failedTick])
    rw [hdiscover]
    trivial
  | ok refs =>
    have hfails : PollFails p (t.adapter window) (cursorsFromJob job) ↔
        refs = [] ∨ failureOf (streamReads refs (cursorsFromJob job) ∅) ≠ none ∨
          AllUnavailable (streamReads refs (cursorsFromJob job) ∅) ∨
          Unsent p (streamReads refs (cursorsFromJob job) ∅) := by
      rw [hdiscover]
      rfl
    simp only [tickRequest, hdiscover]
    by_cases hrefs : refs = []
    · rw [if_pos hrefs]
      exact .failed (hfails.mpr (Or.inl hrefs)) rfl rfl rfl (by simp [failedTick])
    · rw [if_neg hrefs]
      have hout := ingestStreams_outcome p false rows
        { IngestionStats.zero with filesProcessed := refs.length } rfl ∅
        (streamReads refs (cursorsFromJob job) ∅)
      unfold startState at hout
      generalize ingestStreams p false _ (streamReads refs (cursorsFromJob job) ∅) = out at hout ⊢
      cases hout with
      | rejected _ hrejects =>
        cases hrejects with
        | database => exact .escaped
        | unsent hr hrefused =>
          exact .failed (hfails.mpr (.inr (.inr (.inr ⟨_, hr, hrefused⟩)))) rfl rfl rfl
            (by simp [failedTick])
      | raised hfailure _ _ =>
        obtain ⟨reason, rfl⟩ := failureOf_eq_raised hfailure
        refine .failed (hfails.mpr (Or.inr (Or.inl ?_))) rfl rfl rfl (by simp [failedTick])
        rw [hfailure]
        exact Option.some_ne_none _
      | unavailable _ hall _ _ =>
        exact .failed (hfails.mpr (Or.inr (Or.inr (Or.inl hall)))) rfl rfl rfl
          (by simp [failedTick])
      | finished hfailure hsome hread haccepted _ =>
        have hsucceeds : ¬PollFails p (t.adapter window) (cursorsFromJob job) := by
          rw [hfails]
          rintro (h | h | h | ⟨r, hr, hrefused⟩)
          · exact hrefs h
          · exact h hfailure
          · exact hsome h
          · rw [attempted_eq_of_failure_none hfailure] at hr
            have htaken := haccepted r hr
            rw [Pipeline.accepts, hrefused] at htaken
            cases htaken
        dsimp only
        simp only [Bool.false_eq_true, if_false, Option.getD_some]
        refine .polled hdiscover hsucceeds ?_ ?_ rfl rfl
        · rw [cursorsFromJob_applyTailWindowProgress _ rfl, hread.cursors_eq]
        · rw [heldPagingWindow_applyTailWindowProgress _ rfl,
            cursorsFromJob_applyTailWindowProgress _ rfl]

/-! What has been read. -/

/-- A read of a stream in a tick that did not fail. -/
structure Reading where
  window : TimeWindow
  streamId : String
  start : Option String
  ending : Ending
  cursor : Option String

/-- The lines of the window before the cursor have been read. -/
inductive Reached (readings : List Reading) (streamId : String) (window : TimeWindow) :
    Option String → Prop
  | start {c : Option String} (hclosed : isOpen c = false) : Reached readings streamId window c
  | next {r : Reading} (hr : r ∈ readings) (hid : r.streamId = streamId)
      (hwindow : r.window = window) (hstart : Reached readings streamId window r.start) :
      Reached readings streamId window r.cursor

/-- Some read of the window ended at its end. -/
def ReadToEnd (readings : List Reading) (streamId : String) (window : TimeWindow) : Prop :=
  ∃ r ∈ readings, r.streamId = streamId ∧ r.window = window ∧
    Reached readings streamId window r.start ∧ r.ending = .exhausted ∧ isOpen r.cursor = false

/-- The instant lies in a window that was read to the end. -/
def Covered (readings : List Reading) (streamId : String) (instant : Timestamp) : Prop :=
  ∃ window, ReadToEnd readings streamId window ∧ window.start ≤ instant ∧ instant ≤ window.stop

theorem Reached.mono {readings readings' : List Reading} (h : readings ⊆ readings')
    {streamId : String} {window : TimeWindow} {c : Option String}
    (hreached : Reached readings streamId window c) : Reached readings' streamId window c := by
  induction hreached with
  | start hclosed => exact .start hclosed
  | next hr hid hwindow _ ih => exact .next (h hr) hid hwindow ih

theorem ReadToEnd.mono {readings readings' : List Reading} (h : readings ⊆ readings')
    {streamId : String} {window : TimeWindow} (hread : ReadToEnd readings streamId window) :
    ReadToEnd readings' streamId window := by
  obtain ⟨r, hr, hid, hwindow, hstart, hend⟩ := hread
  exact ⟨r, h hr, hid, hwindow, hstart.mono h, hend⟩

theorem Covered.mono {readings readings' : List Reading} (h : readings ⊆ readings')
    {streamId : String} {instant : Timestamp} (hcovered : Covered readings streamId instant) :
    Covered readings' streamId instant := by
  obtain ⟨window, hread, hbounds⟩ := hcovered
  exact ⟨window, hread.mono h, hbounds⟩

/-- The reads of a poll over a window. -/
def readingsOf (window : TimeWindow) (refs : List (LogStreamRef α)) (cursors : Cursors) :
    List Reading :=
  refs.map (fun ref =>
    let start := startCursor cursors ∅ ref
    let read := ref.read start
    ⟨window, ref.streamId, start, read.ending, read.cursor⟩)

/-! Runs of ticks. -/

/-- A job with what its ticks have read, the window of its first tick, and the window of
the most recent tick that left no error and no open cursor. -/
structure TailRun (ρ : Type*) where
  rows : List ρ
  job : IngestionJob
  readings : List Reading
  first : Option TimeWindow
  caughtUp : Option TimeWindow

def TailRun.start (rows : List ρ) (job : IngestionJob) : TailRun ρ := ⟨rows, job, [], none, none⟩

/-- One tick. A tick that raises is rolled back and leaves nothing. -/
def tickStep (lowering : Lowering) (p : Pipeline α ρ κ) (errorThreshold : ℕ) (s : TailRun ρ)
    (t : TailTick α) : TailRun ρ :=
  match tickWindowForJob lowering s.job t.now t.clock,
    tickOneTailJob lowering p errorThreshold s.rows s.job t with
  | .ok window, .ok (rows, job) =>
      { rows := rows
        job := job
        readings :=
          match job.errorMessage, t.adapter window with
          | none, .ok refs => s.readings ++ readingsOf window refs (cursorsFromJob s.job)
          | _, _ => s.readings
        first := s.first.or (some window)
        caughtUp :=
          if job.errorMessage.isNone && !hasOpenCursors (cursorsFromJob job) then some window
          else s.caughtUp }
  | _, _ => s

def tickAll (lowering : Lowering) (p : Pipeline α ρ κ) (errorThreshold : ℕ) (s : TailRun ρ)
    (ticks : List (TailTick α)) : TailRun ρ :=
  ticks.foldl (tickStep lowering p errorThreshold) s

/-- Up to the end of the window of the most recent caught-up tick, no instant since the
start of the first window is missing. -/
def NoGap (s : TailRun ρ) (streamId : String) : Prop :=
  ∀ first ∈ s.first, ∀ window ∈ s.caughtUp, ∀ instant, first.start ≤ instant →
    instant ≤ window.stop → Covered s.readings streamId instant

/-- The stream is among the discovered ones, and discovery gives no cursors. -/
def Discovers (streamId : String) (t : TailTick α) : Prop :=
  ∀ window refs, t.adapter window = .ok refs →
    (∀ ref ∈ refs, ref.cursor = none) ∧
    (refs ≠ [] → streamId ∈ refs.map LogStreamRef.streamId)

/-- The poll leaves a pagination token. -/
def LeavesOpen (discovered : Except String (List (LogStreamRef α))) (cursors : Cursors) : Prop :=
  match discovered with
  | .error _ => False
  | .ok refs => hasOpenCursors (cursorsOf ∅ (streamReads refs cursors ∅)) = true

/-- A tick that loses no instant. Unless a window is held, the poll does not fail. When it
leaves no pagination token, its window reaches the poll clock, and each stream that was
unavailable has been read to the end of the window before. -/
structure KeepsUp (lowering : Lowering) (p : Pipeline α ρ κ) (s : TailRun ρ) (t : TailTick α)
    (window : TimeWindow) : Prop where
  fresh : heldPagingWindow s.job = none →
    ¬PollFails p (t.adapter window) (cursorsFromJob s.job)
  reaches : ¬PollFails p (t.adapter window) (cursorsFromJob s.job) →
    ¬LeavesOpen (t.adapter window) (cursorsFromJob s.job) → t.now ≤ window.stop
  complete : ¬PollFails p (t.adapter window) (cursorsFromJob s.job) →
    ¬LeavesOpen (t.adapter window) (cursorsFromJob s.job) →
    ∀ refs, t.adapter window = .ok refs →
    ∀ q ∈ streamReads refs (cursorsFromJob s.job) ∅, q.2.ending ≠ .exhausted →
      ReadToEnd s.readings q.1 window

/-! What the stored state promises between two ticks. -/

structure UpToDate (streamId : String) (s : TailRun ρ) : Prop where
  open_held : hasOpenCursors (cursorsFromJob s.job) = true → (heldPagingWindow s.job).isSome
  unpolled : s.first = none → s.caughtUp = none ∧ heldPagingWindow s.job = none
  polled : ∀ first ∈ s.first, heldPagingWindow s.job = none →
    ∃ clock, s.job.lastPolledAt = some clock ∧
      ∀ instant, first.start ≤ instant → instant ≤ clock → Covered s.readings streamId instant
  before_held : ∀ first ∈ s.first, ∀ window ∈ heldPagingWindow s.job,
    ∀ instant, first.start ≤ instant → instant < window.start →
      Covered s.readings streamId instant
  reached : ∀ window ∈ heldPagingWindow s.job, ∀ c,
    (cursorsFromJob s.job).lookup streamId = some c → Reached s.readings streamId window c
  noGap : NoGap s streamId

theorem hasOpenCursors_eq_true {cursors : Cursors} :
    hasOpenCursors cursors = true ↔
      ∃ streamId c, cursors.lookup streamId = some c ∧ isOpen c = true := by
  simp only [hasOpenCursors, Bool.not_eq_true', decide_eq_false_iff_not, not_forall,
    Bool.not_eq_false, exists_prop]
  constructor
  · rintro ⟨⟨streamId, c⟩, hmem, hopen⟩
    exact ⟨streamId, c, Finmap.mem_lookup_iff.mpr hmem, hopen⟩
  · rintro ⟨streamId, c, hlookup, hopen⟩
    exact ⟨⟨streamId, c⟩, Finmap.mem_lookup_iff.mp hlookup, hopen⟩

omit [DecidableEq κ] in
theorem mem_readingsOf (window : TimeWindow) {refs : List (LogStreamRef α)} {cursors : Cursors}
    {q : String × StreamRead α} (hq : q ∈ streamReads refs cursors ∅) :
    ∃ ref ∈ refs, q = (ref.streamId, ref.read (startCursor cursors ∅ ref)) ∧
      ⟨window, q.1, startCursor cursors ∅ ref, q.2.ending, q.2.cursor⟩ ∈
        readingsOf window refs cursors := by
  obtain ⟨ref, href, rfl⟩ := List.mem_map.mp hq
  have hmem := (List.mem_filter.mp href).1
  exact ⟨ref, hmem, rfl, List.mem_map_of_mem hmem⟩

section Step

variable {lowering : Lowering} {p : Pipeline α ρ κ} {errorThreshold : ℕ} {streamId : String}
  {s : TailRun ρ} {t : TailTick α} {window : TimeWindow}

theorem tickWindowForJob_of_held {job : IngestionJob} {now clock : Timestamp}
    (hwindow : tickWindowForJob lowering job now clock = .ok window) {held : TimeWindow}
    (hheld : heldPagingWindow job = some held) : window = held := by
  rw [tickWindowForJob, hheld] at hwindow
  exact (Except.ok.inj hwindow).symm

theorem tickWindowForJob_of_polled {job : IngestionJob} {now clock polled : Timestamp}
    (hwindow : tickWindowForJob lowering job now clock = .ok window)
    (hheld : heldPagingWindow job = none) (hpolled : job.lastPolledAt = some polled) :
    window = ⟨polled, now⟩ := by
  rw [tickWindowForJob, hheld, hpolled] at hwindow
  exact (Except.ok.inj hwindow).symm

/-- Nothing is missing before the window of the next tick. -/
theorem UpToDate.covered_before (h : UpToDate streamId s)
    (hwindow : tickWindowForJob lowering s.job t.now t.clock = .ok window) :
    ∀ first ∈ s.first.or (some window), ∀ instant, first.start ≤ instant →
      instant < window.start → Covered s.readings streamId instant := by
  intro first hfirst instant hstart hbefore
  cases hold : s.first with
  | none =>
    rw [hold] at hfirst
    cases hfirst
    exact absurd hstart (not_le.mpr hbefore)
  | some first₀ =>
    rw [hold] at hfirst
    cases hfirst
    cases hheld : heldPagingWindow s.job with
    | some held =>
      rw [tickWindowForJob_of_held hwindow hheld] at hbefore
      exact h.before_held first hold held hheld instant hstart hbefore
    | none =>
      obtain ⟨clock, hclock, hcovered⟩ := h.polled first hold hheld
      rw [tickWindowForJob_of_polled hwindow hheld hclock] at hbefore
      exact hcovered instant hstart hbefore.le

/-- A stream is read on from a cursor that has been reached. -/
theorem UpToDate.reached_start (h : UpToDate streamId s)
    (hwindow : tickWindowForJob lowering s.job t.now t.clock = .ok window)
    {ref : LogStreamRef α} (hid : ref.streamId = streamId) (hcursor : ref.cursor = none) :
    Reached s.readings streamId window (startCursor (cursorsFromJob s.job) ∅ ref) := by
  unfold startCursor
  rw [if_neg (Finset.notMem_empty _), hcursor, hid]
  cases hlookup : (cursorsFromJob s.job).lookup streamId with
  | none => exact .start rfl
  | some c =>
    cases hopen : isOpen c with
    | false => exact .start hopen
    | true =>
      have hany := hasOpenCursors_eq_true.mpr ⟨streamId, c, hlookup, hopen⟩
      obtain ⟨held, hheld⟩ := Option.isSome_iff_exists.mp (h.open_held hany)
      rw [tickWindowForJob_of_held hwindow hheld]
      exact h.reached held hheld c hlookup

/-- A poll that fails keeps the held window and loses nothing. -/
theorem UpToDate.failed (h : UpToDate streamId s) {rows' : List ρ} {job' : IngestionJob}
    (hheld : heldPagingWindow s.job ≠ none) (hcursor : job'.cursor = s.job.cursor)
    (hmetadata : job'.metadata = s.job.metadata) :
    UpToDate streamId ⟨rows', job', s.readings, s.first, s.caughtUp⟩ where
  open_held hopen := by
    rw [heldPagingWindow_congr hcursor hmetadata]
    rw [cursorsFromJob_congr hcursor hmetadata] at hopen
    exact h.open_held hopen
  unpolled hfirst := absurd (h.unpolled hfirst).2 hheld
  polled _ _ hnone := by
    rw [heldPagingWindow_congr hcursor hmetadata] at hnone
    exact absurd hnone hheld
  before_held first hfirst window hwindow := by
    rw [heldPagingWindow_congr hcursor hmetadata] at hwindow
    exact h.before_held first hfirst window hwindow
  reached window hwindow c hc := by
    rw [heldPagingWindow_congr hcursor hmetadata] at hwindow
    rw [cursorsFromJob_congr hcursor hmetadata] at hc
    exact h.reached window hwindow c hc
  noGap := h.noGap

/-- A poll that leaves a token holds its window, and each token has been reached. -/
theorem UpToDate.held (h : UpToDate streamId s) (hdiscovers : Discovers streamId t)
    (hwindow : tickWindowForJob lowering s.job t.now t.clock = .ok window)
    {refs : List (LogStreamRef α)} (hdiscover : t.adapter window = .ok refs)
    {rows' : List ρ} {job' : IngestionJob}
    (hcursors : cursorsFromJob job' = cursorsOf ∅ (streamReads refs (cursorsFromJob s.job) ∅))
    (hheld : heldPagingWindow job' = some window) :
    UpToDate streamId ⟨rows', job',
      s.readings ++ readingsOf window refs (cursorsFromJob s.job), s.first.or (some window),
      s.caughtUp⟩ where
  open_held _ := by
    rw [hheld]
    rfl
  unpolled hfirst := by
    cases hold : s.first <;> simp [hold] at hfirst
  polled _ _ hnone := by
    rw [hheld] at hnone
    cases hnone
  before_held first hfirst window' hwindow' instant hstart hbefore := by
    rw [hheld] at hwindow'
    cases hwindow'
    exact (h.covered_before hwindow first hfirst instant hstart hbefore).mono
      (List.subset_append_left _ _)
  reached window' hwindow' c hc := by
    rw [hheld] at hwindow'
    cases hwindow'
    rw [hcursors] at hc
    obtain ⟨q, hq, hid, rfl⟩ := lookup_cursorsOf hc
    obtain ⟨ref, href, rfl, hreading⟩ := mem_readingsOf window hq
    have hstart := h.reached_start hwindow hid ((hdiscovers window refs hdiscover).1 ref href)
    exact .next (List.mem_append_right _ hreading) hid rfl
      (hstart.mono (List.subset_append_left _ _))
  noGap first hfirst caughtUp hcaughtUp := by
    cases hold : s.first with
    | none =>
      rw [(h.unpolled hold).1] at hcaughtUp
      cases hcaughtUp
    | some first₀ =>
      rw [hold] at hfirst
      intro instant hstart hstop
      exact (h.noGap first (by rw [hold]; exact hfirst) caughtUp hcaughtUp instant hstart
        hstop).mono (List.subset_append_left _ _)

omit [DecidableEq κ] in
/-- A poll that leaves no token has read the stream to the end of its window. -/
theorem UpToDate.readToEnd (h : UpToDate streamId s) (hdiscovers : Discovers streamId t)
    (hwindow : tickWindowForJob lowering s.job t.now t.clock = .ok window)
    (hkeeps : KeepsUp lowering p s t window) {refs : List (LogStreamRef α)}
    (hdiscover : t.adapter window = .ok refs)
    (hsucceeds : ¬PollFails p (t.adapter window) (cursorsFromJob s.job))
    (hclosed : hasOpenCursors (cursorsOf ∅ (streamReads refs (cursorsFromJob s.job) ∅)) = false) :
    ReadToEnd (s.readings ++ readingsOf window refs (cursorsFromJob s.job)) streamId window := by
  have hleaves : ¬LeavesOpen (t.adapter window) (cursorsFromJob s.job) := by
    rw [hdiscover]
    simp [LeavesOpen, hclosed]
  have hrefs : refs ≠ [] := by
    intro hempty
    rw [hdiscover] at hsucceeds
    exact hsucceeds (Or.inl hempty)
  obtain ⟨hcursors, hmem⟩ := hdiscovers window refs hdiscover
  have hkey : streamId ∈ (streamReads refs (cursorsFromJob s.job) ∅).map Prod.fst := by
    obtain ⟨ref, href, rfl⟩ := List.mem_map.mp (hmem hrefs)
    simpa [streamReads] using ⟨ref, href, rfl⟩
  obtain ⟨c, hc⟩ := exists_lookup_cursorsOf hkey
  obtain ⟨q, hq, hid, hqc⟩ := lookup_cursorsOf hc
  have hend : isOpen q.2.cursor = false := by
    rw [Bool.eq_false_iff]
    intro hopen
    rw [hasOpenCursors_eq_true.mpr ⟨streamId, c, hc, hqc ▸ hopen⟩] at hclosed
    cases hclosed
  by_cases hending : q.2.ending = .exhausted
  · obtain ⟨ref, href, rfl, hreading⟩ := mem_readingsOf window hq
    have hstart := h.reached_start hwindow hid (hcursors ref href)
    exact ⟨_, List.mem_append_right _ hreading, hid, rfl,
      hstart.mono (List.subset_append_left _ _), hending, hend⟩
  · exact hid ▸ (hkeeps.complete hsucceeds hleaves refs hdiscover q hq hending).mono
      (List.subset_append_left _ _)

omit [DecidableEq κ] in
/-- A poll that leaves no token and reaches the clock covers everything up to there. -/
theorem UpToDate.caughtUp (h : UpToDate streamId s) (hdiscovers : Discovers streamId t)
    (hwindow : tickWindowForJob lowering s.job t.now t.clock = .ok window)
    (hkeeps : KeepsUp lowering p s t window) {refs : List (LogStreamRef α)}
    (hdiscover : t.adapter window = .ok refs)
    (hsucceeds : ¬PollFails p (t.adapter window) (cursorsFromJob s.job))
    {rows' : List ρ} {job' : IngestionJob}
    (hcursors : cursorsFromJob job' = cursorsOf ∅ (streamReads refs (cursorsFromJob s.job) ∅))
    (hclosed : hasOpenCursors (cursorsFromJob job') = false)
    (hheld : heldPagingWindow job' = none) (hpolled : job'.lastPolledAt = some t.now) :
    UpToDate streamId ⟨rows', job',
      s.readings ++ readingsOf window refs (cursorsFromJob s.job), s.first.or (some window),
      some window⟩ := by
  rw [hcursors] at hclosed
  have hread := h.readToEnd hdiscovers hwindow hkeeps hdiscover hsucceeds hclosed
  have hleaves : ¬LeavesOpen (t.adapter window) (cursorsFromJob s.job) := by
    rw [hdiscover]
    simp [LeavesOpen, hclosed]
  have hcovered : ∀ first ∈ s.first.or (some window), ∀ instant, first.start ≤ instant →
      instant ≤ window.stop →
      Covered (s.readings ++ readingsOf window refs (cursorsFromJob s.job)) streamId instant := by
    intro first hfirst instant hstart hstop
    by_cases hbefore : instant < window.start
    · exact (h.covered_before hwindow first hfirst instant hstart hbefore).mono
        (List.subset_append_left _ _)
    · exact ⟨window, hread, not_lt.mp hbefore, hstop⟩
  have hreaches := hkeeps.reaches hsucceeds hleaves
  refine ⟨?_, ?_, ?_, ?_, ?_, ?_⟩
  · intro hopen
    rw [hcursors, hclosed] at hopen
    cases hopen
  · intro hfirst
    cases hold : s.first <;> simp [hold] at hfirst
  · intro first hfirst _
    exact ⟨t.now, hpolled, fun instant hstart hstop =>
      hcovered first hfirst instant hstart (hstop.trans hreaches)⟩
  · intro first _ window' hwindow'
    rw [hheld] at hwindow'
    cases hwindow'
  · intro window' hwindow'
    rw [hheld] at hwindow'
    cases hwindow'
  · intro first hfirst caughtUp hcaughtUp instant hstart hstop
    cases hcaughtUp
    exact hcovered first hfirst instant hstart hstop

/-- A tick that keeps up preserves what the stored state promises. -/
theorem upToDate_tickStep (h : UpToDate streamId s) (hdiscovers : Discovers streamId t)
    (hkeeps : ∀ window, tickWindowForJob lowering s.job t.now t.clock = .ok window →
      KeepsUp lowering p s t window) :
    UpToDate streamId (tickStep lowering p errorThreshold s t) := by
  unfold tickStep
  cases hwindow : tickWindowForJob lowering s.job t.now t.clock with
  | error e => exact h
  | ok window =>
    have hout := tickOneTailJob_outcome lowering p errorThreshold s.rows s.job t hwindow
    have hkeep := hkeeps window hwindow
    generalize tickOneTailJob lowering p errorThreshold s.rows s.job t = out at hout
    cases hout with
    | escaped => exact h
    | failed hfails hcursor hmetadata hpolled herror =>
      rename_i rows' job'
      have hheld : heldPagingWindow s.job ≠ none := fun hnone => hkeep.fresh hnone hfails
      obtain ⟨first, hfirst⟩ := Option.ne_none_iff_exists'.mp
        (fun hnone => hheld (h.unpolled hnone).2)
      obtain ⟨message, hmessage⟩ := Option.ne_none_iff_exists'.mp herror
      have hstep : UpToDate streamId ⟨rows', job', s.readings, s.first, s.caughtUp⟩ :=
        h.failed hheld hcursor hmetadata
      simp only [hmessage, hfirst, Option.some_or, Option.isNone_some, Bool.false_and,
        Bool.false_eq_true, if_false]
      rw [hfirst] at hstep
      exact hstep
    | polled hdiscover hsucceeds hcursors hheld hpolled herror =>
      simp only [herror, hdiscover, Option.isNone_none, Bool.true_and]
      cases hopen : hasOpenCursors (cursorsFromJob _) with
      | true =>
        rw [hopen, if_pos rfl] at hheld
        exact h.held hdiscovers hwindow hdiscover hcursors hheld
      | false =>
        rw [hopen, if_neg Bool.false_ne_true] at hheld
        exact h.caughtUp hdiscovers hwindow hkeep hdiscover hsucceeds hcursors hopen hheld hpolled

end Step

/-! Runs. -/

section Runs

variable {lowering : Lowering} {p : Pipeline α ρ κ} {errorThreshold : ℕ} {streamId : String}

/-- Every tick of the run keeps up. -/
def KeepsUpAll (lowering : Lowering) (p : Pipeline α ρ κ) (errorThreshold : ℕ) :
    TailRun ρ → List (TailTick α) → Prop
  | _, [] => True
  | s, t :: rest =>
      (∀ window, tickWindowForJob lowering s.job t.now t.clock = .ok window →
        KeepsUp lowering p s t window) ∧
      KeepsUpAll lowering p errorThreshold (tickStep lowering p errorThreshold s t) rest

theorem upToDate_start (rows : List ρ) {job : IngestionJob}
    (hclosed : hasOpenCursors (cursorsFromJob job) = false) :
    UpToDate streamId (TailRun.start rows job) := by
  have hheld : heldPagingWindow job = none := by
    rw [heldPagingWindow, if_neg (by rw [hclosed]; exact Bool.false_ne_true)]
  refine ⟨?_, fun _ => ⟨rfl, hheld⟩, ?_, ?_, ?_, ?_⟩
  · intro hopen
    rw [TailRun.start, hclosed] at hopen
    cases hopen
  · intro first hfirst
    cases hfirst
  · intro first hfirst
    cases hfirst
  · intro window hwindow
    rw [TailRun.start, hheld] at hwindow
    cases hwindow
  · intro first hfirst
    cases hfirst

theorem upToDate_tickAll (ticks : List (TailTick α)) :
    ∀ {s : TailRun ρ}, UpToDate streamId s → (∀ t ∈ ticks, Discovers streamId t) →
      KeepsUpAll lowering p errorThreshold s ticks →
      UpToDate streamId (tickAll lowering p errorThreshold s ticks) := by
  induction ticks with
  | nil => exact fun h _ _ => h
  | cons t rest ih =>
    intro s h hdiscovers hkeeps
    exact ih (upToDate_tickStep h (hdiscovers t List.mem_cons_self) hkeeps.1)
      (fun t' ht' => hdiscovers t' (List.mem_cons_of_mem t ht')) hkeeps.2

/-- In a run whose ticks all keep up, no instant is missing for any stream, however its
cursors open and polls fail in between. -/
theorem tail_coverage (lowering : Lowering) (p : Pipeline α ρ κ) (errorThreshold : ℕ)
    (rows : List ρ) {job : IngestionJob} (hclosed : hasOpenCursors (cursorsFromJob job) = false)
    {ticks : List (TailTick α)} (hdiscovers : ∀ t ∈ ticks, Discovers streamId t)
    (hkeeps : KeepsUpAll lowering p errorThreshold (TailRun.start rows job) ticks) :
    NoGap (tickAll lowering p errorThreshold (TailRun.start rows job) ticks) streamId :=
  (upToDate_tickAll ticks (upToDate_start rows hclosed) hdiscovers hkeeps).noGap

end Runs

/-! A held window that is drained. -/

def samplePipeline : Pipeline String String String :=
  ⟨500, fun line => .row line, fun _ => none, some, fun _ => none⟩

/-- A new job that tails from the instant zero. -/
def sampleJob : IngestionJob :=
  { newJob .tail "loki" none 0 "default" with
    metadata := { JobMetadata.none with fromTime := some (.instant 0) } }

/-- A tick in which the one stream is read up to a cursor. -/
def sampleTick (now : Timestamp) (cursor : Option String) : TailTick String where
  now := now
  clock := now
  adapter _ := .ok [⟨"api", none, fun _ => ⟨[], .exhausted, cursor⟩⟩]

theorem sampleTick_discovers (now : Timestamp) (cursor : Option String) :
    Discovers "api" (sampleTick now cursor) := by
  intro window refs hrefs
  cases hrefs
  exact ⟨by simp, by simp⟩

theorem sampleTick_keepsUp {s : TailRun String} {now : Timestamp} {window : TimeWindow}
    (hstop : now ≤ window.stop) :
    KeepsUp asciiLowering samplePipeline s (sampleTick now none) window where
  fresh _ := by
    simp [PollFails, Unsent, samplePipeline, sampleTick, streamReads, failureOf, raisedBy,
      AllUnavailable, reasonsOf]
  reaches _ _ := hstop
  complete _ _ refs hrefs q hq hending := by
    cases hrefs
    simp only [streamReads, List.mem_map, List.mem_filter, List.mem_singleton] at hq
    obtain ⟨ref, ⟨rfl, -⟩, rfl⟩ := hq
    exact absurd rfl hending

theorem tail_coverage_two :
    NoGap (tickAll asciiLowering samplePipeline 5 (TailRun.start [] sampleJob)
      [sampleTick 60 none, sampleTick 120 none]) "api" := by
  refine tail_coverage asciiLowering samplePipeline 5 [] rfl ?_ ⟨?_, ?_, trivial⟩
  · intro t ht
    rcases List.mem_pair.mp ht with rfl | rfl <;> exact sampleTick_discovers _ _
  · intro window hwindow
    cases hwindow
    exact sampleTick_keepsUp (le_refl 60)
  · intro window hwindow
    cases hwindow
    exact sampleTick_keepsUp (le_refl 120)

/-- A page is left open, drained by the next tick, and followed by a tick from the clock of
the drain: what happened between the first two ticks is never read. -/
def drainTicks : List (TailTick String) :=
  [sampleTick 60 (some "page-2"), sampleTick 120 none, sampleTick 180 none]

theorem tail_gap_after_drain :
    hasOpenCursors (cursorsFromJob sampleJob) = false ∧
    (drainTicks.map TailTick.now).Pairwise (· < ·) ∧
    (∀ t ∈ drainTicks, Discovers "api" t) ∧
    ¬NoGap (tickAll asciiLowering samplePipeline 5 (TailRun.start [] sampleJob) drainTicks)
      "api" := by
  have hreadings :
      (tickAll asciiLowering samplePipeline 5 (TailRun.start [] sampleJob) drainTicks).readings =
        [⟨⟨0, 60⟩, "api", none, .exhausted, some "page-2"⟩,
          ⟨⟨0, 60⟩, "api", some "page-2", .exhausted, none⟩,
          ⟨⟨120, 180⟩, "api", none, .exhausted, none⟩] := rfl
  refine ⟨rfl, by simp [drainTicks, sampleTick], ?_, ?_⟩
  · intro t ht
    simp only [drainTicks, List.mem_cons, List.not_mem_nil, or_false] at ht
    rcases ht with rfl | rfl | rfl <;> exact sampleTick_discovers _ _
  · intro hgap
    obtain ⟨window, ⟨r, hr, -, hwindow, -⟩, hstart, hstop⟩ :=
      hgap ⟨0, 60⟩ rfl ⟨120, 180⟩ rfl 90 (by decide) (by decide)
    rw [hreadings] at hr
    simp only [List.mem_cons, List.not_mem_nil, or_false] at hr
    subst hwindow
    rcases hr with rfl | rfl | rfl
    · exact absurd hstop (by decide)
    · exact absurd hstop (by decide)
    · exact absurd hstart (by decide)

end Raglogs.TailCoverage

import Raglogs.Accounting
import Raglogs.Containment
import Raglogs.TailCoverage
import Raglogs.WorkerLaws

/-!
What a failure leaves of a pass of the worker. A job whose end cannot be recorded is open
again after the pass, and the ticks of a pass are in one transaction, so that one that
escapes takes the others with it.
-/

namespace Raglogs.PassContainment

open Accounting Ingestion LogEntries Tailing Text Transactions Transactions.Script Workers
  WorkerLaws

variable {α ρ κ : Type} {env : WorkerEnv α ρ κ}

/-! The ticks. -/

variable (env) in
/-- The tail jobs that a pass ticks, which starts to tick with these tables. -/
def passTicks (start : Database ρ) : List ℕ :=
  if env.ingestQueueMax ≤ pendingWorkerJobCount start then [] else dueTailJobs env start

theorem passTicks_nodup (start : Database ρ) : (passTicks env start).Nodup := by
  unfold passTicks
  split
  · exact List.nodup_nil
  · unfold dueTailJobs
    have hids : (start.tailJobs.zipIdx.map Prod.snd).Nodup := by
      rw [List.zipIdx_map_snd]
      exact List.nodup_range'
    exact hids.sublist (List.filter_sublist.map Prod.snd)

section Ticks

variable [DecidableEq κ]

variable (env) in
/-- The tables after the tick of one job, unless an exception leaves it. -/
def tickNext (db : Database ρ) (id : ℕ) : Except Failure (Database ρ) :=
  match db.tailJobs[id]? with
  | none => .ok db
  | some job => (tickWrite env db id job).map (fun u => u db)

variable (env) in
/-- The ticks that go through before one that does not, each with the tables after it. -/
def ticked : Database ρ → List ℕ → List (ℕ × Database ρ)
  | _, [] => []
  | db, id :: rest =>
      match tickNext env db id with
      | .ok db' => (id, db') :: ticked db' rest
      | .error _ => []

variable (env) in
/-- The tables after the ticks, unless an exception leaves one of them. -/
def afterTicks : Database ρ → List ℕ → Option (Database ρ)
  | db, [] => some db
  | db, id :: rest =>
      match tickNext env db id with
      | .ok db' => afterTicks db' rest
      | .error _ => none

variable (env) in
theorem tickJob_run (db : Database ρ) {s : Session (Database ρ)} (h : s.aborted = false) (id : ℕ) :
    match tickNext env (s.view db) id with
    | .ok db' => ∃ s', (tickJob env id).run db s = ⟨db, s', .ok ()⟩ ∧ s'.aborted = false ∧
        s'.view db = db'
    | .error _ => ∃ s' e, (tickJob env id).run db s = ⟨db, s', .error e⟩ := by
  rw [tickJob, run_query h, tickNext]
  cases hjob : (s.view db).tailJobs[id]? with
  | none => exact ⟨s, rfl, h, rfl⟩
  | some job =>
    dsimp only
    cases hwrite : tickWrite env (s.view db) id job with
    | ok u => exact ⟨s.write u, run_execute_of_some _ db h rfl, h, Session.view_write s u db⟩
    | error e =>
      cases e with
      | database =>
        obtain ⟨s', -, hrun⟩ := run_execute_of_none (fun _ => none) db (s := s) (.inr rfl)
        exact ⟨s', _, hrun⟩
      | raised message => exact ⟨s, _, rfl⟩

variable (env) in
theorem tickJobs_run (ids : List ℕ) : ∀ (db : Database ρ) {s : Session (Database ρ)},
    s.aborted = false →
    match afterTicks env (s.view db) ids with
    | some db' => ∃ s', (tickJobs env ids).run db s = ⟨db, s', .ok ()⟩ ∧ s'.aborted = false ∧
        s'.view db = db'
    | none => ∃ s' e, (tickJobs env ids).run db s = ⟨db, s', .error e⟩ := by
  induction ids with
  | nil => exact fun db s h => ⟨s, rfl, h, rfl⟩
  | cons id rest ih =>
    intro db s h
    have htick := tickJob_run env db h id
    rw [afterTicks]
    simp only [tickJobs, run_bind]
    cases hnext : tickNext env (s.view db) id with
    | error e =>
      rw [hnext] at htick
      obtain ⟨s', e', hrun⟩ := htick
      rw [hrun]
      exact ⟨s', e', rfl⟩
    | ok db' =>
      rw [hnext] at htick
      obtain ⟨s', hrun, haborted, hview⟩ := htick
      rw [hrun, ← hview]
      exact ih db haborted

/-! What the ticks keep. -/

theorem tickOneTailJob_rows {lowering : Lowering} {p : Pipeline α ρ κ} {errorThreshold : ℕ}
    {rows rows' : List ρ} {job job' : IngestionJob} {t : TailTick α}
    (h : tickOneTailJob lowering p errorThreshold rows job t = .ok (rows', job')) :
    rows ⊆ rows' := by
  unfold tickOneTailJob at h
  split at h
  · cases h
  · rename_i window hwindow
    have hrows := ingestFromSource_rows p rows (tickRequest job t window) (some job) false
    dsimp only at h
    split at h
    · cases h
      exact hrows
    · cases h
    · cases h
      exact hrows

theorem tickNext_spec {db db' : Database ρ} {id : ℕ} (h : tickNext env db id = .ok db') :
    db.rows ⊆ db'.rows ∧ db'.workerJobs = db.workerJobs ∧
      ∀ other, other ≠ id → db'.tailJobs[other]? = db.tailJobs[other]? := by
  unfold tickNext at h
  split at h
  · cases h
    exact ⟨List.Subset.refl _, rfl, fun _ _ => rfl⟩
  · rename_i job hjob
    unfold tickWrite at h
    split at h
    · cases h
    · cases h
    · rename_i rows ticked htick
      split at h
      · cases h
        refine ⟨tickOneTailJob_rows htick, rfl, fun other hne => ?_⟩
        exact List.getElem?_set_ne (Ne.symm hne)
      · cases h

theorem afterTicks_spec {ids : List ℕ} : ∀ {db db' : Database ρ},
    afterTicks env db ids = some db' →
      db.rows ⊆ db'.rows ∧ db'.workerJobs = db.workerJobs ∧
        ∀ other, other ∉ ids → db'.tailJobs[other]? = db.tailJobs[other]? := by
  induction ids with
  | nil =>
    intro db db' h
    rw [← Option.some.inj h]
    exact ⟨List.Subset.refl _, rfl, fun _ _ => rfl⟩
  | cons id rest ih =>
    intro db db' h
    rw [afterTicks] at h
    split at h
    · rename_i db₁ hnext
      obtain ⟨hrows, hjobs, htails⟩ := tickNext_spec hnext
      obtain ⟨hrows', hjobs', htails'⟩ := ih h
      refine ⟨List.Subset.trans hrows hrows', hjobs'.trans hjobs, fun other hother => ?_⟩
      obtain ⟨hne, hrest⟩ := List.ne_and_not_mem_of_not_mem_cons hother
      rw [htails' other hrest, htails other hne]
    · cases h

/-- What a tick left of its job and of the rows is still there. -/
structure Kept (final : Database ρ) (tick : ℕ × Database ρ) : Prop where
  job : final.tailJobs[tick.1]? = tick.2.tailJobs[tick.1]?
  rows : tick.2.rows ⊆ final.rows

theorem kept_of_afterTicks {ids : List ℕ} (hids : ids.Nodup) : ∀ {db db' : Database ρ},
    afterTicks env db ids = some db' → ∀ tick ∈ ticked env db ids, Kept db' tick := by
  induction ids with
  | nil => exact fun _ tick htick => absurd htick List.not_mem_nil
  | cons id rest ih =>
    obtain ⟨hid, hrest⟩ := List.nodup_cons.mp hids
    intro db db' h tick htick
    rw [afterTicks] at h
    rw [ticked] at htick
    split at h
    · rename_i db₁ hnext
      rw [hnext] at htick
      rcases List.mem_cons.mp htick with rfl | htick
      · obtain ⟨hrows, -, htails⟩ := afterTicks_spec h
        exact ⟨htails id hid, hrows⟩
      · exact ih hrest h tick htick
    · cases h

variable (env) in
theorem tickTailJobs_run (db : Database ρ) {s : Session (Database ρ)} (h : s.aborted = false) :
    match afterTicks env (s.view db) (passTicks env (s.view db)) with
    | some db' => ∃ s' n, (tickTailJobs env).run db s = ⟨db, s', .ok n⟩ ∧ s'.aborted = false ∧
        s'.view db = db'
    | none => ∃ s' e, (tickTailJobs env).run db s = ⟨db, s', .error e⟩ := by
  rw [tickTailJobs, run_query h, passTicks]
  by_cases hfull : env.ingestQueueMax ≤ pendingWorkerJobCount (s.view db)
  · rw [if_pos hfull, if_pos hfull]
    exact ⟨s, 0, rfl, h, rfl⟩
  · rw [if_neg hfull, if_neg hfull]
    have hticks := tickJobs_run env (dueTailJobs env (s.view db)) db h
    rw [run_bind]
    cases hafter : afterTicks env (s.view db) (dueTailJobs env (s.view db)) with
    | none =>
      rw [hafter] at hticks
      obtain ⟨s', e, hrun⟩ := hticks
      rw [hrun]
      exact ⟨s', e, rfl⟩
    | some db' =>
      rw [hafter] at hticks
      obtain ⟨s', hrun, haborted, hview⟩ := hticks
      rw [hrun]
      exact ⟨s', _, rfl, haborted, hview⟩

end Ticks

/-! One pass. -/

theorem maybeEnqueuePurge_run (now : Timestamp) (intervalSeconds : ℤ) (db : Database ρ)
    {s : Session (Database ρ)} (h : s.aborted = false) :
    ∃ s' b u, (maybeEnqueuePurge now intervalSeconds).run db s = ⟨db, s', .ok b⟩ ∧
      s'.aborted = false ∧ s'.view db = u (s.view db) ∧ KeepsJobs u ∧
      ∀ db, (u db).tailJobs = db.tailJobs ∧ (u db).rows = db.rows := by
  rw [maybeEnqueuePurge, run_query h]
  split
  · refine ⟨s.write (enqueueJob (purgeJob now)), true, enqueueJob (purgeJob now), ?_, h,
      Session.view_write _ _ _, keepsJobs_enqueueJob rfl, fun _ => ⟨rfl, rfl⟩⟩
    rw [run_bind, run_execute_of_some _ db h rfl]
    rfl
  · exact ⟨s, false, id, rfl, h, rfl, keepsJobs_of_same (fun _ => rfl), fun _ => ⟨rfl, rfl⟩⟩

section Passes

variable [DecidableEq κ]

/-- A pass whose job escapes leaves what its handler committed. -/
theorem runPass_of_error {db store : Database ρ} {s' : Session (Database ρ)} {e : Failure}
    (h : (processOne env).run db .clean = ⟨store, s', .error e⟩) : runPass env db = store := by
  rw [runPass, session, workerPass, run_bind, h]

/-- A pass with an aborted transaction, or with a tick that escapes, leaves what was
committed before the ticks. -/
theorem runPass_of_escape {db store : Database ρ} {s' : Session (Database ρ)} {b : Bool}
    (h : (processOne env).run db .clean = ⟨store, s', .ok b⟩)
    (hescape : s'.aborted = true ∨
      afterTicks env (s'.view store) (passTicks env (s'.view store)) = none) :
    runPass env db = store := by
  have hticks : ∃ s₁ e, (tickTailJobs env).run store s' = ⟨store, s₁, .error e⟩ := by
    cases haborted : s'.aborted with
    | true =>
      rw [tickTailJobs, run_query_of_aborted haborted]
      exact ⟨s', _, rfl⟩
    | false =>
      have hnone := hescape.resolve_left (by rw [haborted]; exact Bool.false_ne_true)
      have hrun := tickTailJobs_run env store haborted
      rw [hnone] at hrun
      exact hrun
  obtain ⟨s₁, e, hrun⟩ := hticks
  rw [runPass, session, workerPass, run_bind, h]
  dsimp only
  rw [run_bind, hrun]

theorem runPass_of_ticks {db store db' : Database ρ} {s' : Session (Database ρ)} {b : Bool}
    (h : (processOne env).run db .clean = ⟨store, s', .ok b⟩) (haborted : s'.aborted = false)
    (hafter : afterTicks env (s'.view store) (passTicks env (s'.view store)) = some db') :
    ∃ u, runPass env db = u db' ∧ KeepsJobs u ∧
      ∀ db, (u db).tailJobs = db.tailJobs ∧ (u db).rows = db.rows := by
  have hticks := tickTailJobs_run env store haborted
  rw [hafter] at hticks
  obtain ⟨s₁, n, hrun, haborted₁, hview₁⟩ := hticks
  cases b with
  | true =>
    refine ⟨id, ?_, keepsJobs_of_same (fun _ => rfl), fun _ => ⟨rfl, rfl⟩⟩
    rw [runPass, session, workerPass, run_bind, h]
    dsimp only
    rw [run_bind, hrun, ← hview₁]
    exact Session.commit_of_not_aborted haborted₁ store
  | false =>
    obtain ⟨s₂, b, u, hpurge, haborted₂, hview₂, hkeeps, hrest⟩ :=
      maybeEnqueuePurge_run env.now env.purgeIntervalSeconds store haborted₁
    refine ⟨u, ?_, hkeeps, hrest⟩
    rw [runPass, session, workerPass, run_bind, h]
    dsimp only
    rw [run_bind, hrun]
    dsimp only
    rw [if_neg Bool.false_ne_true, run_bind, hpurge, ← hview₁, ← hview₂]
    exact Session.commit_of_not_aborted haborted₂ store

variable (env) in
/-- The tables with which a pass starts to tick. -/
def tickStart (db : Database ρ) : Option (Database ρ) :=
  match (processOne env).run db .clean with
  | ⟨store, s, .ok _⟩ => s.read store
  | ⟨_, _, .error _⟩ => none

variable (env) in
/-- What one pass owes to its job and to its tail jobs. -/
structure PassContained (db : Database ρ) : Prop where
  settled : ∀ entry, nextJob env.lockedJobs db = some entry → Settled entry.2 (runPass env db)
  kept : ∀ start, tickStart env db = some start →
    ∀ tick ∈ ticked env start (passTicks env start), Kept (runPass env db) tick

variable (env) in
/-- A tick that escapes comes after no tick that changed something. -/
def TicksEnd (db : Database ρ) : Prop :=
  ∀ start, tickStart env db = some start → afterTicks env start (passTicks env start) = none →
    ∀ tick ∈ ticked env start (passTicks env start), Kept start tick

variable (env) in
/-- Once the job is recorded its session has nothing that is not committed. -/
theorem processOne_outcome (db : Database ρ) :
    (JobEnds env db ∧ ∃ store s' b, (processOne env).run db .clean = ⟨store, s', .ok b⟩ ∧
      s'.view store = store ∧
      ∀ entry, nextJob env.lockedJobs db = some entry → Settled entry.2 store) ∨
    (¬JobEnds env db ∧ ∃ entry, nextJob env.lockedJobs db = some entry ∧
      Unsettled entry.2 (runPass env db)) := by
  cases hnext : nextJob env.lockedJobs db with
  | none =>
    refine .inl ⟨fun entry h => ?_, db, .clean, false, processOne_of_none hnext, rfl, ?_⟩
    · rw [hnext] at h
      cases h
    · rintro entry ⟨⟩
  | some entry =>
    by_cases hends : (handlerRun env db entry).session.aborted = false ∧
        Recordable (handlerRun env db entry).result
    · obtain ⟨store, s', hrun, hview, hsettled⟩ :=
        processOne_of_recordable hnext hends.1 hends.2
      refine .inl ⟨fun other h => ?_, store, s', true, hrun, hview, ?_⟩
      · rw [hnext] at h
        rw [← Option.some.inj h]
        exact hends
      · rintro other ⟨⟩
        exact hsettled
    · obtain ⟨s', hrun⟩ := processOne_of_not_recordable hnext hends
      refine .inr ⟨fun h => hends (h entry hnext), entry, rfl, ?_⟩
      rw [runPass_of_error hrun]
      exact (handlerRun_unsettled hnext).1

/-- A pass is contained exactly when the end of its job can be recorded and no tick that
escapes comes after one that changed something. -/
theorem passContained_iff (db : Database ρ) :
    PassContained env db ↔ JobEnds env db ∧ TicksEnd env db := by
  rcases processOne_outcome env db with
    ⟨hends, store, s', b, hrun, hview, hsettled⟩ | ⟨hends, entry, hnext, hopen⟩
  · have hstart : tickStart env db = if s'.aborted then none else some store := by
      rw [tickStart, hrun]
      simp only [Session.read, hview]
    constructor
    · refine fun h => ⟨hends, fun start hs hescape tick htick => ?_⟩
      have hkept := h.kept start hs tick htick
      cases haborted : s'.aborted with
      | true =>
        rw [hstart, haborted] at hs
        cases hs
      | false =>
        rw [hstart, haborted] at hs
        cases hs
        rwa [runPass_of_escape hrun (.inr (by rw [hview]; exact hescape))] at hkept
    · rintro ⟨-, hticks⟩
      cases haborted : s'.aborted with
      | true =>
        rw [haborted] at hstart
        rw [← runPass_of_escape hrun (.inl haborted)] at hsettled
        refine ⟨hsettled, fun start hs => ?_⟩
        rw [hstart] at hs
        cases hs
      | false =>
        rw [haborted] at hstart
        cases hafter : afterTicks env store (passTicks env store) with
        | none =>
          have hpass : runPass env db = store :=
            runPass_of_escape hrun (.inr (by rw [hview]; exact hafter))
          rw [← hpass] at hsettled
          refine ⟨hsettled, fun start hs tick htick => ?_⟩
          have hsame : store = start := Option.some.inj (hstart.symm.trans hs)
          subst hsame
          rw [hpass]
          exact hticks store hs hafter tick htick
        | some db' =>
          obtain ⟨u, hpass, hkeeps, hrest⟩ :=
            runPass_of_ticks hrun haborted (by rw [hview]; exact hafter)
          refine ⟨fun entry hnext => ?_, fun start hs tick htick => ?_⟩
          · obtain ⟨job, hjob, hended⟩ := hsettled entry hnext
            obtain ⟨-, hjobs, -⟩ := afterTicks_spec hafter
            rw [hpass]
            exact KeepsJobs.keeps_settled hkeeps entry.2 db' ⟨job, hjobs ▸ hjob, hended⟩
          · have hsame : store = start := Option.some.inj (hstart.symm.trans hs)
            subst hsame
            have hkept := kept_of_afterTicks (passTicks_nodup store) hafter tick htick
            rw [hpass]
            exact ⟨(hrest db').1 ▸ hkept.job, (hrest db').2.symm ▸ hkept.rows⟩
  · refine iff_of_false (fun h => ?_) (fun h => hends h.1)
    exact (h.settled entry hnext).not_unsettled hopen

end Passes

/-! A service that its column does not hold. -/

open Containment LineProcessing

/-- An ingest job of one file with two lines, for a service. -/
def fileIngest (service line : String) (rows : List LogEntry) : IngestRun LogEntry :=
  ingestLogFiles sampleRuntime 500 rows
    ⟨"app.log", [⟨"app.log", "app", ".log", [(1, goodLine), (2, line)]⟩], some service, none,
      "auto", 0, "default"⟩

/-- A name of one character more than a service may have. -/
def longService : String := String.ofList (List.replicate 256 'a')

def sampleEnv (ingest : List LogEntry → IngestRun LogEntry) :
    WorkerEnv RawLine LogEntry EntryKey where
  lockedJobs := []
  ingestHandler _ := ingestJobHandler ingest
  purgeHandler _ := ingestJobHandler ingest
  callbackFails _ := false
  lowering := asciiLowering
  pipeline := pipeline sampleRuntime 500 id
  ingestQueueMax := 1000
  tailPollInterval := 30000000
  tailErrorThreshold := 5
  lockedTails := []
  now := 0
  tick _ := ⟨0, 0, fun _ => .ok []⟩
  purgeIntervalSeconds := 0

def sampleDatabase : Database LogEntry := ⟨[⟨"ingest", .pending, none, 0⟩], [], [], none⟩

/-- The database refuses the rows, and after the pass the job is pending as before it. -/
theorem long_job_not_settled :
    ¬PassContained (sampleEnv (fileIngest longService lateLine)) sampleDatabase := by
  intro h
  obtain ⟨job, hjob, hended⟩ := h.settled (⟨"ingest", .pending, none, 0⟩, 0) rfl
  have hpending : ((runPass (sampleEnv (fileIngest longService lateLine))
      sampleDatabase).workerJobs[0]?).map WorkerJob.status = some .pending := by
    decide +kernel
  rw [hjob] at hpending
  rcases hended with hended | hended <;> simp [hended] at hpending

-- a NUL character is refused before anything is sent, and the failure is recorded
example : ((runPass (sampleEnv (fileIngest "api" nulLine)) sampleDatabase).workerJobs[0]?).map
    WorkerJob.status = some .failed := by
  decide +kernel

end Raglogs.PassContainment

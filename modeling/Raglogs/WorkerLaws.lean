import Raglogs.Workers

/-!
What the writes and the programs of a worker do to its jobs. A handler leaves the job it
runs for open; the end of the job is recorded in the same transaction, so that the record
survives unless that transaction is aborted.
-/

namespace Raglogs.WorkerLaws

open Ingestion LogEntries Text Transactions Transactions.Script Workers

variable {α ρ κ : Type}

/-- A job has ended. -/
def Settled (id : ℕ) (db : Database ρ) : Prop :=
  ∃ job, db.workerJobs[id]? = some job ∧ (job.status = .done ∨ job.status = .failed)

/-- A job has not ended. -/
def Unsettled (id : ℕ) (db : Database ρ) : Prop :=
  ∃ job, db.workerJobs[id]? = some job ∧ (job.status = .pending ∨ job.status = .running)

theorem Settled.not_unsettled {id : ℕ} {db : Database ρ} (h : Settled id db) :
    ¬Unsettled id db := by
  rintro ⟨job', hjob', hopen⟩
  obtain ⟨job, hjob, hended⟩ := h
  have hsame : job = job' := Option.some.inj (hjob.symm.trans hjob')
  subst hsame
  rcases hended with hended | hended <;> rw [hended] at hopen <;>
    rcases hopen with h | h <;> cases h

/-! What writes do to a job. -/

theorem KeepsJobs.getElem? {u : Database ρ → Database ρ} (hu : KeepsJobs u) {db : Database ρ}
    {id : ℕ} {job : WorkerJob} (h : db.workerJobs[id]? = some job) :
    (u db).workerJobs[id]? = some job := by
  obtain ⟨added, hjobs, -⟩ := hu db
  have hlt : id < db.workerJobs.length := (List.getElem?_eq_some_iff.mp h).1
  rw [hjobs, List.getElem?_append_left hlt, h]

theorem KeepsJobs.keeps_settled {u : Database ρ → Database ρ} (hu : KeepsJobs u) (id : ℕ) :
    Keeps (Settled id) u := by
  rintro db ⟨job, hjob, hended⟩
  exact ⟨job, KeepsJobs.getElem? hu hjob, hended⟩

theorem KeepsJobs.keeps_unsettled {u : Database ρ → Database ρ} (hu : KeepsJobs u) (id : ℕ) :
    Keeps (Unsettled id) u := by
  rintro db ⟨job, hjob, hopen⟩
  exact ⟨job, KeepsJobs.getElem? hu hjob, hopen⟩

/-- A write of other tables leaves the jobs as they are. -/
theorem keepsJobs_of_same {u : Database ρ → Database ρ}
    (h : ∀ db, (u db).workerJobs = db.workerJobs) : KeepsJobs u :=
  fun db => ⟨[], by rw [h, List.append_nil], fun _ hjob => absurd hjob List.not_mem_nil⟩

theorem keepsJobs_enqueueJob {job : WorkerJob} (h : job.status = .pending) :
    KeepsJobs (enqueueJob job : Database ρ → Database ρ) := by
  refine fun db => ⟨[job], rfl, fun job' hjob' => ?_⟩
  rw [List.mem_singleton.mp hjob', h]

theorem getElem?_updateJob {id : ℕ} {f : WorkerJob → WorkerJob} {db : Database ρ}
    {job : WorkerJob} (h : db.workerJobs[id]? = some job) :
    (updateJob id f db).workerJobs[id]? = some (f job) := by
  simp [updateJob, h]

theorem startJob_keeps_unsettled (id : ℕ) :
    Keeps (Unsettled id) (startJob id : Database ρ → Database ρ) := by
  rintro db ⟨job, hjob, -⟩
  exact ⟨_, getElem?_updateJob hjob, .inr rfl⟩

theorem finishJob_settled {id : ℕ} {db : Database ρ} (h : Unsettled id db) :
    Settled id (finishJob id db) := by
  obtain ⟨job, hjob, -⟩ := h
  exact ⟨_, getElem?_updateJob hjob, .inl rfl⟩

theorem failJob_settled {id : ℕ} {db : Database ρ} (message : String) (h : Unsettled id db) :
    Settled id (failJob id message db) := by
  obtain ⟨job, hjob, -⟩ := h
  exact ⟨_, getElem?_updateJob hjob, .inr rfl⟩

/-! Statements. -/

theorem run_query {β : Type} {next : Database ρ → WorkerScript ρ β} {db : Database ρ}
    {s : Session (Database ρ)} (h : s.aborted = false) :
    (query next).run db s = (next (s.view db)).run db s := by
  simp [query, run, Session.read, h]

theorem run_query_of_aborted {β : Type} {next : Database ρ → WorkerScript ρ β} {db : Database ρ}
    {s : Session (Database ρ)} (h : s.aborted = true) :
    (query next).run db s = ⟨db, s, .error .database⟩ := by
  simp [query, run, Session.read, h]

theorem run_execute_of_some (statement : Database ρ → Option (Database ρ → Database ρ))
    (db : Database ρ) {s : Session (Database ρ)} (h : s.aborted = false)
    {u : Database ρ → Database ρ} (hu : statement (s.view db) = some u) :
    (execute statement).run db s = ⟨db, s.write u, .ok ()⟩ := by
  rw [execute, run, Session.exec_of_some h false hu]
  rfl

theorem run_execute_of_none (statement : Database ρ → Option (Database ρ → Database ρ))
    (db : Database ρ) {s : Session (Database ρ)}
    (h : s.aborted = true ∨ statement (s.view db) = none) :
    ∃ s', s'.aborted = true ∧ (execute statement).run db s = ⟨db, s', .error .database⟩ := by
  cases haborted : s.aborted with
  | true =>
    rw [execute, run, Session.exec_of_aborted haborted]
    exact ⟨s, haborted, rfl⟩
  | false =>
    have hnone := h.resolve_left (by rw [haborted]; exact Bool.false_ne_true)
    rw [execute, run, Session.exec_of_none haborted false hnone]
    exact ⟨s.abort, rfl, rfl⟩

theorem execute_all {Q : (Database ρ → Database ρ) → Prop}
    {statement : Database ρ → Option (Database ρ → Database ρ)}
    (h : ∀ db u, statement db = some u → Q u) : (execute statement).All Q := by
  refine ⟨h, fun seen => ?_⟩
  cases seen <;> trivial

theorem query_all {β : Type} {Q : (Database ρ → Database ρ) → Prop}
    {next : Database ρ → WorkerScript ρ β} (h : ∀ db, (next db).All Q) : (query next).All Q := by
  intro seen
  cases seen with
  | none => trivial
  | some db => exact h db

/-! One job. -/

/-- What a handler ended with can be recorded: the text of an exception has no NUL. -/
def Recordable : Except Failure Unit → Prop
  | .ok _ => True
  | .error e => nulFree e.message = true

/-- A handler that leaves a transaction that is not aborted has its end recorded. -/
theorem executeJob_of_recordable (id : ℕ) {handler : WorkerScript ρ Unit} {db : Database ρ}
    {s : Session (Database ρ)} (haborted : (handler.run db s).session.aborted = false)
    (hrecordable : Recordable (handler.run db s).result) :
    ∃ u, (u = finishJob id ∨ ∃ message, u = failJob id message) ∧
      (executeJob id handler).run db s =
        ⟨u ((handler.run db s).session.view (handler.run db s).store), .clean, .ok ()⟩ := by
  rw [executeJob, run_bind, run_tryCatch, run_bind]
  generalize handler.run db s = r at haborted hrecordable ⊢
  obtain ⟨store, session, result⟩ := r
  dsimp only at haborted hrecordable ⊢
  cases result with
  | ok value =>
    have hdone := run_execute_of_some (fun _ => some (finishJob id)) store haborted rfl
    refine ⟨finishJob id, .inl rfl, ?_⟩
    dsimp only
    rw [recordDone, hdone]
    simp [run, Session.commit, haborted]
  | error e =>
    have hfailed := run_execute_of_some (fun _ =>
      if nulFree e.message then some (failJob id e.message) else none) store haborted
      (if_pos hrecordable)
    refine ⟨failJob id e.message, .inr ⟨e.message, rfl⟩, ?_⟩
    dsimp only
    rw [recordFailed, hfailed]
    simp [run, Session.commit, haborted]

/-- Otherwise the record fails too and the exception leaves the worker's session. -/
theorem executeJob_of_not_recordable (id : ℕ) {handler : WorkerScript ρ Unit} {db : Database ρ}
    {s : Session (Database ρ)} (h : ¬((handler.run db s).session.aborted = false ∧
      Recordable (handler.run db s).result)) :
    ∃ s', (executeJob id handler).run db s = ⟨(handler.run db s).store, s', .error .database⟩ := by
  rw [executeJob, run_bind, run_tryCatch, run_bind]
  generalize handler.run db s = r at h ⊢
  obtain ⟨store, session, result⟩ := r
  dsimp only at h ⊢
  cases result with
  | ok value =>
    have haborted : session.aborted = true := by
      by_contra hne
      exact h ⟨Bool.not_eq_true _ ▸ hne, trivial⟩
    obtain ⟨s₁, haborted₁, hdone⟩ := run_execute_of_none
      (fun _ => some (finishJob id)) store (.inl haborted)
    obtain ⟨s₂, -, hfailed⟩ := run_execute_of_none (fun _ =>
      if nulFree Failure.database.message then some (failJob id Failure.database.message)
      else none) store (.inl haborted₁)
    refine ⟨s₂, ?_⟩
    dsimp only
    rw [recordDone, hdone]
    dsimp only
    rw [recordFailed, hfailed]
  | error e =>
    have hnone : session.aborted = true ∨
        (if nulFree e.message then some (failJob id e.message) else
          (none : Option (Database ρ → Database ρ))) = none := by
      cases haborted : session.aborted with
      | true => exact .inl rfl
      | false => exact .inr (if_neg (fun hfree => h ⟨haborted, hfree⟩))
    obtain ⟨s₁, -, hfailed⟩ := run_execute_of_none (fun _ =>
      if nulFree e.message then some (failJob id e.message) else none) store hnone
    refine ⟨s₁, ?_⟩
    dsimp only
    rw [recordFailed, hfailed]

variable {env : WorkerEnv α ρ κ}

theorem handlerOf_all (entry : WorkerJob × ℕ) : (handlerOf env entry).All KeepsJobs := by
  unfold handlerOf
  split
  · exact (env.ingestHandler entry.2).keeps_jobs
  · split
    · exact (env.purgeHandler entry.2).keeps_jobs
    · trivial

theorem handlerOf_propagates (entry : WorkerJob × ℕ) : Propagates (handlerOf env entry) := by
  unfold handlerOf
  split
  · exact (env.ingestHandler entry.2).propagates
  · split
    · exact (env.purgeHandler entry.2).propagates
    · trivial

variable (env) in
/-- The run of the handler of a job that was just claimed. -/
def handlerRun (db : Database ρ) (entry : WorkerJob × ℕ) : Ran (Database ρ) Failure Unit :=
  (handlerOf env entry).run db (Session.clean.write (startJob entry.2))

variable (env) in
/-- The end of the claimed job's handler can be recorded. -/
def JobEnds (db : Database ρ) : Prop :=
  ∀ entry, nextJob env.lockedJobs db = some entry →
    (handlerRun env db entry).session.aborted = false ∧ Recordable (handlerRun env db entry).result

theorem nextJob_mem {locked : List ℕ} {db : Database ρ} {entry : WorkerJob × ℕ}
    (h : nextJob locked db = some entry) :
    db.workerJobs[entry.2]? = some entry.1 ∧ entry.1.status = .pending ∧ entry.2 ∉ locked := by
  unfold nextJob at h
  split at h
  · cases h
  · rename_i first others hclaimable
    have hmem : entry ∈ claimable locked db := by
      rw [hclaimable, ← Option.some.inj h]
      exact Collections.minOn_mem _ first others
    obtain ⟨hentry, hfree⟩ := List.mem_filter.mp hmem
    rw [Bool.and_eq_true, decide_eq_true_eq, Bool.not_eq_true', List.contains_eq_mem,
      decide_eq_false_iff_not] at hfree
    exact ⟨List.mem_zipIdx_iff_getElem?.mp hentry, hfree.1, hfree.2⟩

theorem unsettled_of_nextJob {locked : List ℕ} {db : Database ρ} {entry : WorkerJob × ℕ}
    (h : nextJob locked db = some entry) : Unsettled entry.2 db :=
  ⟨entry.1, (nextJob_mem h).1, .inl (nextJob_mem h).2.1⟩

theorem claimNextJob_run {locked : List ℕ} (db : Database ρ) :
    (claimNextJob locked).run db .clean =
      match nextJob locked db with
      | none => ⟨db, .clean, .ok none⟩
      | some entry => ⟨db, Session.clean.write (startJob entry.2), .ok (some entry)⟩ := by
  rw [claimNextJob, run_query rfl, Session.clean_view]
  cases nextJob locked db with
  | none => rfl
  | some entry =>
    dsimp only
    rw [run_bind, run_execute_of_some _ db rfl rfl]
    rfl

/-- While a handler works, its job stays open in the store and in the session's view. -/
theorem handlerRun_unsettled {db : Database ρ} {entry : WorkerJob × ℕ}
    (h : nextJob env.lockedJobs db = some entry) :
    Unsettled entry.2 (handlerRun env db entry).store ∧
      Unsettled entry.2
        ((handlerRun env db entry).session.view (handlerRun env db entry).store) := by
  have hall : (handlerOf env entry).All (Keeps (Unsettled entry.2)) :=
    (handlerOf_all entry).mono (fun u hu => KeepsJobs.keeps_unsettled hu entry.2)
  have hstart : ∀ u ∈ (Session.clean.write (startJob entry.2) : Session (Database ρ)).writes,
      Keeps (Unsettled entry.2) u := by
    intro u hu
    rw [List.mem_singleton.mp hu]
    exact startJob_keeps_unsettled entry.2
  obtain ⟨hstore, hwrites⟩ := run_keeps hall (unsettled_of_nextJob h) hstart
  exact ⟨hstore, view_of_keeps hwrites hstore⟩

/-! One pass: the claimed job. -/

theorem processOne_of_none {db : Database ρ} (h : nextJob env.lockedJobs db = none) :
    (processOne env).run db .clean = ⟨db, .clean, .ok false⟩ := by
  rw [processOne, run_bind, claimNextJob_run, h]
  rfl

theorem processOne_of_some {db : Database ρ} {entry : WorkerJob × ℕ}
    (h : nextJob env.lockedJobs db = some entry) :
    (processOne env).run db .clean =
      ((executeJob entry.2 (handlerOf env entry)).bind
        (fun _ => (deliverCallback env entry).bind (fun _ => .ret true))).run db
          (Session.clean.write (startJob entry.2)) := by
  rw [processOne, run_bind, claimNextJob_run, h]

variable (env) in
theorem deliverCallback_run (entry : WorkerJob × ℕ) (db : Database ρ) :
    ∃ s', (deliverCallback env entry).run db .clean = ⟨db, s', .ok ()⟩ ∧ s'.view db = db := by
  unfold deliverCallback
  split
  · cases hfails : env.callbackFails entry.2 with
    | true => exact ⟨Session.clean.abort, rfl, rfl⟩
    | false => exact ⟨Session.clean.write id, rfl, rfl⟩
  · exact ⟨.clean, rfl, rfl⟩

/-- A job whose end can be recorded is settled in the store before the ticks. -/
theorem processOne_of_recordable {db : Database ρ} {entry : WorkerJob × ℕ}
    (h : nextJob env.lockedJobs db = some entry)
    (haborted : (handlerRun env db entry).session.aborted = false)
    (hrecordable : Recordable (handlerRun env db entry).result) :
    ∃ store s', (processOne env).run db .clean = ⟨store, s', .ok true⟩ ∧
      s'.view store = store ∧ Settled entry.2 store := by
  obtain ⟨u, hu, hrun⟩ := executeJob_of_recordable entry.2 haborted hrecordable
  have hopen := (handlerRun_unsettled h).2
  obtain ⟨s', hcallback, hview⟩ := deliverCallback_run env entry
    (u ((handlerRun env db entry).session.view (handlerRun env db entry).store))
  refine ⟨_, s', ?_, hview, ?_⟩
  · rw [processOne_of_some h, run_bind, hrun]
    dsimp only
    rw [run_bind, ← handlerRun, hcallback]
    rfl
  · rcases hu with rfl | ⟨message, rfl⟩
    · exact finishJob_settled hopen
    · exact failJob_settled message hopen

theorem processOne_of_not_recordable {db : Database ρ} {entry : WorkerJob × ℕ}
    (h : nextJob env.lockedJobs db = some entry)
    (hnot : ¬((handlerRun env db entry).session.aborted = false ∧
      Recordable (handlerRun env db entry).result)) :
    ∃ s', (processOne env).run db .clean =
      ⟨(handlerRun env db entry).store, s', .error .database⟩ := by
  obtain ⟨s', hrun⟩ := executeJob_of_not_recordable entry.2 hnot
  refine ⟨s', ?_⟩
  rw [processOne_of_some h, run_bind, hrun]
  rfl

/-! Handlers. -/

theorem runIngestJob_all (ingest : List ρ → IngestRun ρ) : (runIngestJob ingest).All KeepsJobs := by
  refine query_all (fun db => ?_)
  have hrows : ∀ u, some (fun db => { db with rows := (ingest db.rows).rows }) = some u →
      KeepsJobs (ρ := ρ) u := by
    intro u hu
    rw [← Option.some.inj hu]
    exact keepsJobs_of_same (fun _ => rfl)
  split
  · exact execute_all (fun _ => hrows)
  · exact execute_all (fun _ u hu => nomatch hu)
  · exact (execute_all (fun _ => hrows)).bind (fun _ => trivial)

theorem runIngestJob_propagates (ingest : List ρ → IngestRun ρ) :
    Propagates (runIngestJob ingest) := by
  refine ⟨fun db => ?_, rfl⟩
  dsimp only
  split
  · exact ⟨fun _ => trivial, rfl⟩
  · exact ⟨fun _ => trivial, rfl⟩
  · exact ⟨fun _ => trivial, rfl⟩

/-- The handler of an ingest job. -/
def ingestJobHandler (ingest : List ρ → IngestRun ρ) : Handler ρ :=
  ⟨runIngestJob ingest, runIngestJob_all ingest, runIngestJob_propagates ingest⟩

theorem purgeScopes_all (retention : Retention ρ) (scopes : List String) :
    ∀ more, (purgeScopes retention scopes more).All KeepsJobs := by
  induction scopes with
  | nil => exact fun _ => trivial
  | cons scope rest ih =>
    refine fun more => query_all (fun db => ?_)
    split
    · split
      · exact (execute_all (fun _ u hu => nomatch hu)).bind (fun _ => trivial)
      · refine (execute_all (fun _ u hu => ?_)).bind (fun _ => ih _)
        rw [← Option.some.inj hu]
        exact keepsJobs_of_same (fun _ => rfl)
    · exact ih more

theorem runPurge_all (retention : Retention ρ) (now : Timestamp) :
    (runPurge retention now).All KeepsJobs := by
  refine query_all (fun db => (purgeScopes_all retention _ false).bind (fun more => ?_))
  refine (execute_all (fun _ u hu => ?_)).bind (fun _ => trivial)
  rw [← Option.some.inj hu]
  split
  · exact keepsJobs_enqueueJob rfl
  · exact keepsJobs_of_same (fun _ => rfl)

theorem propagates_bind {β γ : Type} {script : WorkerScript ρ β} {f : β → WorkerScript ρ γ}
    (h : Propagates script) (hf : ∀ a, Propagates (f a)) : Propagates (script.bind f) := by
  induction script with
  | ret a => exact hf a
  | raise e => trivial
  | read next ih => exact ⟨fun db => ih _ (h.1 db), by simp [h.2, Script.bind]⟩
  | exec guarded statement next ih =>
    refine ⟨fun db => ih _ (h.1 db), ?_⟩
    cases guarded with
    | true => exact ih none h.2
    | false =>
      have hnone : next none = .raise .database := h.2
      simp [hnone, Script.bind]
  | commit next ih => exact ih h

theorem purgeScopes_propagates (retention : Retention ρ) (scopes : List String) :
    ∀ more, Propagates (purgeScopes retention scopes more) := by
  induction scopes with
  | nil => exact fun _ => trivial
  | cons scope rest ih =>
    refine fun more => ⟨fun db => ?_, rfl⟩
    dsimp only
    split
    · split
      · exact ⟨fun _ => trivial, rfl⟩
      · exact ⟨fun _ => ih _, rfl⟩
    · exact ih more

theorem runPurge_propagates (retention : Retention ρ) (now : Timestamp) :
    Propagates (runPurge retention now) :=
  ⟨fun _ => propagates_bind (purgeScopes_propagates retention _ false)
    (fun _ => ⟨fun _ => trivial, rfl⟩), rfl⟩

/-- The handler of a purge job. -/
def purgeJobHandler (retention : Retention ρ) (now : Timestamp) : Handler ρ :=
  ⟨runPurge retention now, runPurge_all retention now, runPurge_propagates retention now⟩

end Raglogs.WorkerLaws

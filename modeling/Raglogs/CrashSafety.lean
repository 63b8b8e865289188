import Raglogs.PassContainment
import Raglogs.WorkerRuns

/-!
What the death of a worker leaves of its job. Until its handler commits, a claimed job is
committed as pending, so that the claim is lost with the worker; after that it is
committed as running, and nothing else ever touches it.
-/

namespace Raglogs.CrashSafety

open LogEntries Text Transactions Transactions.Script Workers WorkerLaws WorkerRuns

variable {α ρ κ : Type}

/-! What one job's program does to the others. -/

/-- No job is changed but one, and new jobs are pending. -/
structure OnlyJob (id : ℕ) (db db' : Database ρ) : Prop where
  kept : ∀ other job, other ≠ id → db.workerJobs[other]? = some job →
    db'.workerJobs[other]? = some job
  added : ∀ other job, other ≠ id → db.workerJobs[other]? = none →
    db'.workerJobs[other]? = some job → job.status = .pending

theorem OnlyJob.refl (id : ℕ) (db : Database ρ) : OnlyJob id db db := by
  refine ⟨fun _ _ _ h => h, fun _ _ _ hnone hsome => ?_⟩
  rw [hnone] at hsome
  cases hsome

theorem OnlyJob.trans {id : ℕ} {db₁ db₂ db₃ : Database ρ} (h : OnlyJob id db₁ db₂)
    (h' : OnlyJob id db₂ db₃) : OnlyJob id db₁ db₃ := by
  refine ⟨fun other job hne hjob => h'.kept other job hne (h.kept other job hne hjob),
    fun other job hne hnone hjob => ?_⟩
  cases hmiddle : db₂.workerJobs[other]? with
  | none => exact h'.added other job hne hmiddle hjob
  | some job' =>
    have hsame := h'.kept other job' hne hmiddle
    rw [hjob, Option.some.injEq] at hsame
    rw [hsame]
    exact h.added other job' hne hnone hmiddle

theorem onlyJob_of_keepsJobs {u : Database ρ → Database ρ} (hu : KeepsJobs u) (id : ℕ)
    (db : Database ρ) : OnlyJob id db (u db) := by
  refine ⟨fun other job _ hjob => KeepsJobs.getElem? hu hjob, fun other job _ hnone hjob => ?_⟩
  obtain ⟨added, hjobs, hpending⟩ := hu db
  rw [hjobs, List.getElem?_append_right (List.getElem?_eq_none_iff.mp hnone)] at hjob
  exact hpending job (List.mem_of_getElem? hjob)

theorem onlyJob_updateJob (id : ℕ) (f : WorkerJob → WorkerJob) (db : Database ρ) :
    OnlyJob id db (updateJob id f db) := by
  have hsame : ∀ other, other ≠ id →
      (updateJob id f db).workerJobs[other]? = db.workerJobs[other]? :=
    fun other hne => List.getElem?_modify_ne f db.workerJobs (Ne.symm hne)
  refine ⟨fun other job hne hjob => (hsame other hne).trans hjob,
    fun other job hne hnone hjob => ?_⟩
  rw [hsame other hne, hnone] at hjob
  cases hjob

/-- The writes of a session touch one job only, and leave it open. -/
def Works (id : ℕ) (s : Session (Database ρ)) : Prop :=
  ∀ u ∈ s.writes, (∀ db, OnlyJob id db (u db)) ∧ Keeps (Unsettled id) u

theorem works_clean (id : ℕ) : Works id (Session.clean : Session (Database ρ)) :=
  fun _ hu => absurd hu List.not_mem_nil

theorem Works.write {id : ℕ} {s : Session (Database ρ)} (h : Works id s)
    {u : Database ρ → Database ρ} (honly : ∀ db, OnlyJob id db (u db))
    (hopen : Keeps (Unsettled id) u) : Works id (s.write u) := by
  intro v hv
  rcases List.mem_append.mp hv with hv | hv
  · exact h v hv
  · rw [List.mem_singleton.mp hv]
    exact ⟨honly, hopen⟩

theorem Works.onlyJob {id : ℕ} {s : Session (Database ρ)} (h : Works id s) (db : Database ρ) :
    OnlyJob id db (s.view db) := by
  obtain ⟨writes, aborted⟩ := s
  induction writes generalizing db with
  | nil => exact OnlyJob.refl id db
  | cons u writes ih =>
    have hrest : Works id ⟨writes, aborted⟩ := fun v hv => h v (List.mem_cons_of_mem u hv)
    exact ((h u List.mem_cons_self).1 db).trans (ih (u db) hrest)

theorem Works.unsettled {id : ℕ} {s : Session (Database ρ)} (h : Works id s) {db : Database ρ}
    (hdb : Unsettled id db) : Unsettled id (s.view db) :=
  view_of_keeps (fun u hu => (h u hu).2) hdb

/-! What is left of a job's program. -/

/-- In an aborted transaction the program ends with an exception. -/
def Fails : WorkerScript ρ Unit → Prop
  | .ret _ => False
  | .raise _ => True
  | .read next => Fails (next none)
  | .exec _ _ next => Fails (next none)
  | .commit _ => False

/-- A write that ends a job. -/
structure Ends (id : ℕ) (u : Database ρ → Database ρ) : Prop where
  onlyJob : ∀ db, OnlyJob id db (u db)
  settled : ∀ db, Unsettled id db → Settled id (u db)

/-- Unless a statement fails, the program ends the job, commits and does no more. -/
def Settles (id : ℕ) : WorkerScript ρ Unit → Prop
  | .ret _ => False
  | .raise _ => False
  | .read next => (∀ db, Settles id (next (some db))) ∧ Fails (next none)
  | .exec guarded statement next =>
      (∀ view u, statement view = some u →
        (KeepsJobs u ∧ ∀ db, Settles id (next (some db))) ∨
          (Ends id u ∧ ∀ db, next (some db) = .commit (.ret ()))) ∧
        (if guarded then Settles id (next none) else Fails (next none))
  | .commit next => Settles id next

theorem ends_finishJob (id : ℕ) : Ends id (finishJob id : Database ρ → Database ρ) :=
  ⟨onlyJob_updateJob id _, fun _ h => finishJob_settled h⟩

theorem ends_failJob (id : ℕ) (message : String) :
    Ends id (failJob id message : Database ρ → Database ρ) :=
  ⟨onlyJob_updateJob id _, fun _ h => failJob_settled message h⟩

theorem settles_recordFailed (id : ℕ) (e : Failure) :
    Settles id ((recordFailed id e : WorkerScript ρ Unit).bind (fun _ => .commit (.ret ()))) := by
  refine ⟨fun _ u hu => .inr ⟨?_, fun _ => rfl⟩, trivial⟩
  dsimp only at hu
  split at hu
  · rw [← Option.some.inj hu]
    exact ends_failJob id e.message
  · cases hu

/-- Whatever its handler does, the program of a claimed job settles it. -/
theorem settles_executeJob (id : ℕ) {handler : WorkerScript ρ Unit}
    (hkeeps : handler.All KeepsJobs) (hpropagates : Propagates handler) :
    Settles id (executeJob id handler) := by
  unfold executeJob
  induction handler with
  | ret a =>
    refine ⟨fun _ u hu => .inr ⟨?_, fun _ => rfl⟩, trivial⟩
    rw [← Option.some.inj hu]
    exact ends_finishJob id
  | raise e => exact settles_recordFailed id e
  | read next ih =>
    refine ⟨fun db => ih (some db) (hkeeps (some db)) (hpropagates.1 db), ?_⟩
    simp only [hpropagates.2]
    trivial
  | exec guarded statement next ih =>
    refine ⟨fun view u hu => .inl ⟨hkeeps.1 view u hu,
      fun db => ih (some db) (hkeeps.2 (some db)) (hpropagates.1 db)⟩, ?_⟩
    cases guarded with
    | true => exact ih none (hkeeps.2 none) hpropagates.2
    | false =>
      have hnone : next none = .raise .database := hpropagates.2
      simp only [hnone]
      trivial
  | commit next ih => exact ih hkeeps hpropagates

/-! A worker at work. -/

def Pending (id : ℕ) (db : Database ρ) : Prop :=
  ∃ job, db.workerJobs[id]? = some job ∧ job.status = .pending

/-- Where a worker is with its job, and what is committed of it. -/
inductive Live (id : ℕ) (db : Database ρ) : Session (Database ρ) → WorkerScript ρ Unit → Prop
  | working {s : Session (Database ρ)} {script : WorkerScript ρ Unit} (haborted : s.aborted = false)
      (hworks : Works id s) (hsettles : Settles id script) (hopen : Unsettled id db) :
      Live id db s script
  | recorded {s : Session (Database ρ)} (haborted : s.aborted = false)
      (honly : ∀ db, OnlyJob id db (s.view db))
      (hends : ∀ db, Unsettled id db → Settled id (s.view db)) (hopen : Unsettled id db) :
      Live id db s (.commit (.ret ()))
  | finished (hended : Settled id db) : Live id db .clean (.ret ())
  | doomed {s : Session (Database ρ)} {script : WorkerScript ρ Unit} (haborted : s.aborted = true)
      (hfails : Fails script) (hpending : Pending id db) : Live id db s script

/-- What other workers commit does not touch a worker's job. -/
theorem Live.frame {id other : ℕ} {db db' : Database ρ} {s : Session (Database ρ)}
    {script : WorkerScript ρ Unit} (h : Live id db s script) (hne : id ≠ other)
    (honly : OnlyJob other db db') : Live id db' s script := by
  have hkeep : ∀ P : WorkerJob → Prop, (∃ job, db.workerJobs[id]? = some job ∧ P job) →
      ∃ job, db'.workerJobs[id]? = some job ∧ P job := by
    rintro P ⟨job, hjob, hP⟩
    exact ⟨job, honly.kept id job hne hjob, hP⟩
  cases h with
  | working haborted hworks hsettles hopen =>
    exact .working haborted hworks hsettles (hkeep _ hopen)
  | recorded haborted honly' hends hopen => exact .recorded haborted honly' hends (hkeep _ hopen)
  | finished hended => exact .finished (hkeep _ hended)
  | doomed haborted hfails hpending => exact .doomed haborted hfails (hkeep _ hpending)

theorem not_running_of_settled {id : ℕ} {db : Database ρ} (h : Settled id db) {job : WorkerJob}
    (hjob : db.workerJobs[id]? = some job) : job.status ≠ .running := by
  obtain ⟨job', hjob', hended⟩ := h
  rw [hjob, Option.some.injEq] at hjob'
  rw [hjob']
  rcases hended with hended | hended <;> rw [hended] <;> decide

theorem not_running_of_pending {id : ℕ} {db : Database ρ} (h : Pending id db) {job : WorkerJob}
    (hjob : db.workerJobs[id]? = some job) : job.status ≠ .running := by
  obtain ⟨job', hjob', hpending⟩ := h
  rw [hjob, Option.some.injEq] at hjob'
  rw [hjob', hpending]
  decide

/-- What one instruction leaves: the worker is at work on its job, or idle and its job at rest. -/
theorem advanceActive_live {db : Database ρ} {a : Active ρ} (h : Live a.id db a.session a.script)
    (hsurvives : (∃ statement next, a.script = .exec false statement next ∧
      statement (a.session.view db) = none) →
        ∀ job, db.workerJobs[a.id]? = some job → job.status ≠ .running) :
    OnlyJob a.id db (advanceActive db a).1 ∧
      match (advanceActive db a).2 with
      | none => ∀ job, (advanceActive db a).1.workerJobs[a.id]? = some job → job.status ≠ .running
      | some a' => a'.id = a.id ∧ Live a.id (advanceActive db a).1 a'.session a'.script := by
  obtain ⟨id, session, script⟩ := a
  dsimp only at h hsurvives
  cases h with
  | working haborted hworks hsettles hopen =>
    cases script with
    | ret a => exact hsettles.elim
    | raise e => exact hsettles.elim
    | read next =>
      refine ⟨OnlyJob.refl id db, rfl, .working haborted hworks ?_ hopen⟩
      simp only [Session.read, haborted]
      exact hsettles.1 _
    | exec guarded statement next =>
      refine ⟨OnlyJob.refl id db, rfl, ?_⟩
      cases hstatement : statement (session.view db) with
      | some u =>
        simp only [Session.exec_of_some haborted guarded hstatement]
        rcases hsettles.1 _ u hstatement with ⟨hkeeps, hnext⟩ | ⟨hends, hnext⟩
        · exact .working haborted (hworks.write (onlyJob_of_keepsJobs hkeeps id)
            (KeepsJobs.keeps_unsettled hkeeps id)) (hnext _) hopen
        · rw [hnext]
          refine .recorded haborted (fun db => ?_) (fun db hdb => ?_) hopen
          · rw [Session.view_write]
            exact (hworks.onlyJob db).trans (hends.onlyJob _)
          · rw [Session.view_write]
            exact hends.settled _ (hworks.unsettled hdb)
      | none =>
        simp only [Session.exec_of_none haborted guarded hstatement]
        cases guarded with
        | true => exact .working haborted hworks hsettles.2 hopen
        | false =>
          have hrest := hsurvives ⟨statement, next, rfl, hstatement⟩
          obtain ⟨job, hjob, hpending | hrunning⟩ := hopen
          · exact .doomed rfl hsettles.2 ⟨job, hjob, hpending⟩
          · exact absurd hrunning (hrest job hjob)
    | commit next =>
      have hcommit := Session.commit_of_not_aborted haborted db
      refine ⟨?_, rfl, .working rfl (works_clean id) hsettles ?_⟩
      · change OnlyJob id db (session.commit db)
        rw [hcommit]
        exact hworks.onlyJob db
      · change Unsettled id (session.commit db)
        rw [hcommit]
        exact hworks.unsettled hopen
  | recorded haborted honly hends hopen =>
    have hcommit := Session.commit_of_not_aborted haborted db
    refine ⟨?_, rfl, .finished ?_⟩
    · change OnlyJob id db (session.commit db)
      rw [hcommit]
      exact honly db
    · change Settled id (session.commit db)
      rw [hcommit]
      exact hends db hopen
  | finished hended =>
    exact ⟨OnlyJob.refl id db, fun job hjob => not_running_of_settled hended hjob⟩
  | doomed haborted hfails hpending =>
    cases script with
    | ret a => exact hfails.elim
    | raise e => exact ⟨OnlyJob.refl id db, fun job hjob => not_running_of_pending hpending hjob⟩
    | read next =>
      refine ⟨OnlyJob.refl id db, rfl, .doomed haborted ?_ hpending⟩
      simp only [Session.read, haborted]
      exact hfails
    | exec guarded statement next =>
      refine ⟨OnlyJob.refl id db, rfl, ?_⟩
      simp only [Session.exec_of_aborted haborted]
      exact .doomed haborted hfails hpending
    | commit next => exact hfails.elim

/-- A statement that fails dooms the transaction of a job that is not committed as running. -/
theorem faultActive_live {db : Database ρ} {a : Active ρ} (h : Live a.id db a.session a.script)
    (hrest : ∀ job, db.workerJobs[a.id]? = some job → job.status ≠ .running) :
    (faultActive a).id = a.id ∧ Live a.id db (faultActive a).session (faultActive a).script := by
  obtain ⟨id, session, script⟩ := a
  dsimp only at h hrest
  have hdoomed : ∀ next : WorkerScript ρ Unit, (Unsettled id db → Fails next) → Unsettled id db →
      Live id db session.abort next := by
    rintro next hfails ⟨job, hjob, hpending | hrunning⟩
    · exact .doomed rfl (hfails ⟨job, hjob, .inl hpending⟩) ⟨job, hjob, hpending⟩
    · exact absurd hrunning (hrest job hjob)
  cases h with
  | working haborted hworks hsettles hopen =>
    cases script with
    | ret a => exact hsettles.elim
    | raise e => exact hsettles.elim
    | read next => exact ⟨rfl, hdoomed _ (fun _ => hsettles.2) hopen⟩
    | exec guarded statement next =>
      cases guarded with
      | true => exact ⟨rfl, .working haborted hworks hsettles hopen⟩
      | false => exact ⟨rfl, hdoomed _ (fun _ => hsettles.2) hopen⟩
    | commit next => exact ⟨rfl, .working haborted hworks hsettles hopen⟩
  | recorded haborted honly hends hopen => exact ⟨rfl, .recorded haborted honly hends hopen⟩
  | finished hended => exact ⟨rfl, .finished hended⟩
  | doomed haborted hfails hpending =>
    cases script with
    | ret a => exact hfails.elim
    | raise e => exact ⟨rfl, .doomed haborted hfails hpending⟩
    | read next => exact ⟨rfl, .doomed rfl hfails hpending⟩
    | exec guarded statement next =>
      cases guarded with
      | true => exact ⟨rfl, .doomed haborted hfails hpending⟩
      | false => exact ⟨rfl, .doomed rfl hfails hpending⟩
    | commit next => exact hfails.elim

/-! All workers. -/

/-- Every worker is where it should be with a job of its own, and no other job is running. -/
structure Inv (w : World ρ) : Prop where
  live : ∀ (i : ℕ) (a : Active ρ), w.workers[i]? = some (some a) → Live a.id w.db a.session a.script
  distinct : ∀ (i j : ℕ) (a b : Active ρ), w.workers[i]? = some (some a) →
    w.workers[j]? = some (some b) → a.id = b.id → i = j
  resting : ∀ id job, w.db.workerJobs[id]? = some job → id ∉ executing w → job.status ≠ .running

theorem mem_executing {w : World ρ} {id : ℕ} :
    id ∈ executing w ↔ ∃ (i : ℕ) (a : Active ρ), w.workers[i]? = some (some a) ∧ a.id = id := by
  unfold executing
  rw [List.mem_filterMap]
  constructor
  · rintro ⟨worker, hmem, hid⟩
    obtain ⟨i, hi⟩ := List.mem_iff_getElem?.mp hmem
    cases worker with
    | none => cases hid
    | some a => exact ⟨i, a, hi, Option.some.inj hid⟩
  · rintro ⟨i, a, hi, rfl⟩
    exact ⟨some a, List.mem_of_getElem? hi, rfl⟩

theorem getElem?_set_some {l : List (Option (Active ρ))} {i j : ℕ} {new : Option (Active ρ)}
    {b : Active ρ} (h : (l.set i new)[j]? = some (some b)) :
    (i = j ∧ new = some b) ∨ (i ≠ j ∧ l[j]? = some (some b)) := by
  by_cases hij : i = j
  · subst hij
    rw [List.getElem?_set_self'] at h
    cases hold : l[i]? with
    | none => rw [hold] at h; cases h
    | some old =>
      rw [hold] at h
      exact .inl ⟨rfl, Option.some.inj h⟩
  · rw [List.getElem?_set_ne hij] at h
    exact .inr ⟨hij, h⟩

/-- A worker goes on with its job or leaves it. -/
theorem Inv.replace {w : World ρ} (h : Inv w) {i : ℕ} {a : Active ρ}
    (ha : w.workers[i]? = some (some a)) {db' : Database ρ} (honly : OnlyJob a.id w.db db')
    {new : Option (Active ρ)}
    (hnew : match new with
      | none => ∀ job, db'.workerJobs[a.id]? = some job → job.status ≠ .running
      | some a' => a'.id = a.id ∧ Live a.id db' a'.session a'.script) :
    Inv ⟨db', w.workers.set i new⟩ := by
  refine ⟨fun j b hb => ?_, fun j k b c hb hc hid => ?_, fun id job hjob hid => ?_⟩
  · rcases getElem?_set_some hb with ⟨rfl, rfl⟩ | ⟨hne, hold⟩
    · rw [hnew.1]
      exact hnew.2
    · exact (h.live j b hold).frame (fun hsame => hne (h.distinct i j a b ha hold hsame.symm)) honly
  · rcases getElem?_set_some hb with ⟨rfl, rfl⟩ | ⟨hne, hold⟩
    · rcases getElem?_set_some hc with ⟨rfl, -⟩ | ⟨-, hold'⟩
      · rfl
      · exact h.distinct _ _ a c ha hold' (hnew.1.symm.trans hid)
    · rcases getElem?_set_some hc with ⟨rfl, rfl⟩ | ⟨-, hold'⟩
      · exact h.distinct _ _ b a hold ha (hid.trans hnew.1)
      · exact h.distinct j k b c hold hold' hid
  · have hothers : ∀ (j : ℕ) (b : Active ρ), i ≠ j → w.workers[j]? = some (some b) → b.id ≠ id := by
      intro j b hne hb hsame
      exact hid (mem_executing.mpr ⟨j, b, (List.getElem?_set_ne hne).trans hb, hsame⟩)
    by_cases hself : id = a.id
    · subst hself
      cases new with
      | none => exact hnew job hjob
      | some a' =>
        have hlt : i < w.workers.length := (List.getElem?_eq_some_iff.mp ha).1
        exact absurd (mem_executing.mpr ⟨i, a', List.getElem?_set_self hlt, hnew.1⟩) hid
    · have hfree : id ∉ executing w := by
        intro hmem
        obtain ⟨j, b, hb, hsame⟩ := mem_executing.mp hmem
        by_cases hij : i = j
        · subst hij
          rw [ha, Option.some.injEq, Option.some.injEq] at hb
          exact hself (hsame ▸ hb ▸ rfl)
        · exact hothers j b hij hb hsame
      cases hold : w.db.workerJobs[id]? with
      | none => rw [honly.added id job hself hold hjob]; decide
      | some old =>
        have hsame := honly.kept id old hself hold
        rw [hjob, Option.some.injEq] at hsame
        rw [hsame]
        exact h.resting id old hold hfree

/-- New pending jobs are no worker's. -/
theorem Inv.enqueue {w : World ρ} (h : Inv w) {u : Database ρ → Database ρ} (hu : KeepsJobs u) :
    Inv { w with db := u w.db } := by
  refine ⟨fun i a ha => ?_, h.distinct, fun id job hjob hid => ?_⟩
  · exact (h.live i a ha).frame (Nat.ne_of_lt (Nat.lt_succ_self a.id))
      (onlyJob_of_keepsJobs hu (a.id + 1) w.db)
  · have honly := onlyJob_of_keepsJobs hu (id + 1) w.db
    have hne : id ≠ id + 1 := Nat.ne_of_lt (Nat.lt_succ_self id)
    cases hold : w.db.workerJobs[id]? with
    | none => rw [honly.added id job hne hold hjob]; decide
    | some old =>
      have hsame := honly.kept id old hne hold
      rw [hjob, Option.some.injEq] at hsame
      rw [hsame]
      exact h.resting id old hold hid

/-- A worker that claims a job is at work on it. -/
theorem Inv.claim {w : World ρ} (h : Inv w) (worker : ℕ) (env : WorkerEnv α ρ κ) :
    Inv (claimBy w worker env) := by
  unfold claimBy
  split
  · rename_i entry hidle hnext
    obtain ⟨hentry, hpending, hfree⟩ := nextJob_mem hnext
    have hlive : Live entry.2 w.db (Session.clean.write (startJob entry.2))
        (executeJob entry.2 (handlerOf env entry)) := by
      refine .working rfl ((works_clean entry.2).write (onlyJob_updateJob entry.2 _)
        (startJob_keeps_unsettled entry.2)) ?_ ⟨entry.1, hentry, .inl hpending⟩
      exact settles_executeJob entry.2 (handlerOf_all entry) (handlerOf_propagates entry)
    have hothers : ∀ (j : ℕ) (b : Active ρ), w.workers[j]? = some (some b) → b.id ≠ entry.2 :=
      fun j b hb hsame => hfree (mem_executing.mpr ⟨j, b, hb, hsame⟩)
    refine ⟨fun j b hb => ?_, fun j k b c hb hc hid => ?_, fun id job hjob hid => ?_⟩
    · rcases getElem?_set_some hb with ⟨rfl, hnew⟩ | ⟨-, hold⟩
      · cases hnew
        exact hlive
      · exact h.live j b hold
    · rcases getElem?_set_some hb with ⟨rfl, hnew⟩ | ⟨-, hold⟩
      · rcases getElem?_set_some hc with ⟨rfl, -⟩ | ⟨-, hold'⟩
        · rfl
        · cases hnew
          exact absurd hid.symm (hothers k c hold')
      · rcases getElem?_set_some hc with ⟨rfl, hnew⟩ | ⟨-, hold'⟩
        · cases hnew
          exact absurd hid (hothers j b hold)
        · exact h.distinct j k b c hold hold' hid
    · refine h.resting id job hjob (fun hmem => hid ?_)
      obtain ⟨j, b, hb, hsame⟩ := mem_executing.mp hmem
      refine mem_executing.mpr ⟨j, b, ?_, hsame⟩
      have hne : worker ≠ j := by
        rintro rfl
        rw [hidle] at hb
        cases hb
      exact (List.getElem?_set_ne hne).trans hb
  · exact h

theorem session_maybeEnqueuePurge (now : Timestamp) (intervalSeconds : ℤ) (db : Database ρ) :
    (maybeEnqueuePurge now intervalSeconds).session db =
      if shouldEnqueuePurge db.lastPurgeAt (hasActivePurge db) now intervalSeconds then
        enqueueJob (purgeJob now) db
      else db := by
  rw [session, maybeEnqueuePurge, run_query rfl, Session.clean_view]
  by_cases hdue : shouldEnqueuePurge db.lastPurgeAt (hasActivePurge db) now intervalSeconds = true
  · rw [if_pos hdue, if_pos hdue, run_bind, run_execute_of_some _ db rfl rfl]
    rfl
  · rw [if_neg hdue, if_neg hdue]
    rfl

theorem not_running_of_survives {w : World ρ} {worker : ℕ} {a : Active ρ}
    (ha : w.workers[worker]? = some (some a)) (h : committedRunning w worker = false)
    (job : WorkerJob) (hjob : w.db.workerJobs[a.id]? = some job) : job.status ≠ .running := by
  intro hrunning
  rw [committedRunning, ha] at h
  simp [hjob, hrunning] at h

theorem Inv.advance {w : World ρ} (h : Inv w) {worker : ℕ}
    (hsurvives : (statementFails w worker && committedRunning w worker) = false) :
    Inv (advance w worker) := by
  unfold WorkerRuns.advance
  split
  · rename_i a ha
    obtain ⟨honly, hnew⟩ := advanceActive_live (h.live worker a ha) (by
      rintro ⟨statement, next, hscript, hfails⟩
      have hfailing : statementFails w worker = true := by
        rw [statementFails, ha]
        simp [hscript, hfails]
      rw [hfailing, Bool.true_and] at hsurvives
      exact not_running_of_survives ha hsurvives)
    exact h.replace ha honly hnew
  · exact h

theorem Inv.fault {w : World ρ} (h : Inv w) {worker : ℕ}
    (hsurvives : committedRunning w worker = false) : Inv (fault w worker) := by
  unfold WorkerRuns.fault
  split
  · rename_i a ha
    have hnew := faultActive_live (h.live worker a ha) (not_running_of_survives ha hsurvives)
    exact h.replace ha (OnlyJob.refl a.id w.db) hnew
  · exact h

theorem Inv.die {w : World ρ} (h : Inv w) {worker : ℕ}
    (hsurvives : committedRunning w worker = false) :
    Inv { w with workers := w.workers.set worker none } := by
  cases ha : w.workers[worker]? with
  | none =>
    rw [List.set_eq_of_length_le (List.getElem?_eq_none_iff.mp ha)]
    exact h
  | some worker' =>
    cases worker' with
    | none =>
      have hsame : w.workers.set worker none = w.workers := by
        obtain ⟨hlt, hget⟩ := List.getElem?_eq_some_iff.mp ha
        rw [← hget, List.set_getElem_self]
      rw [hsame]
      exact h
    | some a =>
      exact h.replace ha (OnlyJob.refl a.id w.db) (not_running_of_survives ha hsurvives)

/-- One step of any worker, or of the callers that enqueue. -/
theorem inv_step {w : World ρ} (h : Inv w) {event : Event α ρ κ}
    (hsurvives : survives w event = true) : Inv (stepWorld w event) := by
  cases event with
  | enqueue jobType createdAt => exact h.enqueue (keepsJobs_enqueueJob rfl)
  | claim worker env => exact h.claim worker env
  | advance worker => exact h.advance (Bool.not_eq_true' _ ▸ hsurvives)
  | fault worker => exact h.fault (Bool.not_eq_true' _ ▸ hsurvives)
  | die worker => exact h.die (Bool.not_eq_true' _ ▸ hsurvives)
  | idle now intervalSeconds =>
    simp only [stepWorld, session_maybeEnqueuePurge]
    split
    · exact h.enqueue (keepsJobs_enqueueJob rfl)
    · exact h

theorem inv_start {w : World ρ} (h : Start w) : Inv w := by
  have hnone : ∀ (i : ℕ) (a : Active ρ), w.workers[i]? ≠ some (some a) := by
    intro i a ha
    cases h.idle _ (List.mem_of_getElem? ha)
  exact ⟨fun i a ha => absurd ha (hnone i a), fun i _ a _ ha _ _ => absurd ha (hnone i a),
    fun id job hjob _ => h.resting job (List.mem_of_getElem? hjob)⟩

theorem inv_run {events : List (Event α ρ κ)} :
    ∀ {w : World ρ}, Inv w → allSurvive w events = true → Inv (runWorld w events) := by
  induction events with
  | nil => exact fun h _ => h
  | cons event rest ih =>
    intro w h hsurvive
    obtain ⟨hfirst, hrest⟩ := Bool.and_eq_true_iff.mp hsurvive
    exact ih (inv_step h hfirst) hrest

theorem Live.job_exists {id : ℕ} {db : Database ρ} {s : Session (Database ρ)}
    {script : WorkerScript ρ Unit} (h : Live id db s script) :
    ∃ job, db.workerJobs[id]? = some job := by
  cases h with
  | working haborted hworks hsettles hopen => exact hopen.imp (fun _ h => h.1)
  | recorded haborted honly hends hopen => exact hopen.imp (fun _ h => h.1)
  | finished hended => exact hended.imp (fun _ h => h.1)
  | doomed haborted hfails hpending => exact hpending.imp (fun _ h => h.1)

theorem mem_claimable {locked : List ℕ} {db : Database ρ} {entry : WorkerJob × ℕ} :
    entry ∈ claimable locked db ↔ db.workerJobs[entry.2]? = some entry.1 ∧
      entry.1.status = .pending ∧ entry.2 ∉ locked := by
  rw [claimable, List.mem_filter, List.mem_zipIdx_iff_getElem?]
  simp

/-- Unless a worker executes a purge, one can be claimed or is enqueued when it is due. -/
theorem Inv.purgeAvailable {w : World ρ} (h : Inv w)
    (hnone : ∀ id ∈ executing w, ∀ job, w.db.workerJobs[id]? = some job →
      job.jobType ≠ purgeJobType) : PurgeAvailable w := by
  cases hactive : hasActivePurge w.db with
  | true =>
    obtain ⟨job, hmem, hjob⟩ := List.any_eq_true.mp hactive
    obtain ⟨id, hid⟩ := List.mem_iff_getElem?.mp hmem
    simp only [Bool.and_eq_true, Bool.or_eq_true, decide_eq_true_eq] at hjob
    have hfree : id ∉ executing w := fun hexecuting => hnone id hexecuting job hid hjob.1
    have hpending : job.status = .pending := hjob.2.resolve_right (h.resting id job hid hfree)
    exact .inl ⟨(job, id), mem_claimable.mpr ⟨hid, hpending, hfree⟩, hjob.1⟩
  | false =>
    refine .inr (fun now intervalSeconds hdue => ?_)
    rw [session_maybeEnqueuePurge, hactive, if_pos hdue]
    have hfree : w.db.workerJobs.length ∉ executing w := by
      intro hexecuting
      obtain ⟨i, a, ha, hid⟩ := mem_executing.mp hexecuting
      obtain ⟨job, hjob⟩ := (h.live i a ha).job_exists
      rw [hid, List.getElem?_eq_none_iff.mpr (Nat.le_refl _)] at hjob
      cases hjob
    exact ⟨(purgeJob now, w.db.workerJobs.length),
      mem_claimable.mpr ⟨List.getElem?_concat_length, rfl, hfree⟩, rfl⟩

/-- While no worker is lost between the first commit of its handler and the record of its
job, a crash leaves every job pending or ended, and purging goes on. -/
theorem crashSafe_of_survive {w : World ρ} (hstart : Start w) {events : List (Event α ρ κ)}
    (hsurvive : allSurvive w events = true) : CrashSafe (runWorld w events) := by
  have hinv := inv_run (inv_start hstart) hsurvive
  exact ⟨hinv.resting, hinv.purgeAvailable⟩

/-! A worker that dies in a purge. -/

open Containment PassContainment

/-- A scope with a policy and nothing to purge. -/
def sampleRetention : Retention LogEntry where
  scopes _ := ["default"]
  isValid _ _ := true
  purgeChunk _ _ := some (fun _ => true, ⟨0, 0, 0, false⟩)

def purgeEnv : WorkerEnv LineProcessing.RawLine LogEntry LineProcessing.EntryKey :=
  { sampleEnv (fileIngest "api" lateLine) with
    purgeHandler := fun _ => purgeJobHandler sampleRetention 0 }

def idleWorld : World LogEntry := ⟨⟨[], [], [], none⟩, [none]⟩

/-- The worker dies after the commit that follows the chunk of the scope. -/
def crashRun : List (Event LineProcessing.RawLine LogEntry LineProcessing.EntryKey) :=
  [.idle 0 3600, .claim 0 purgeEnv, .advance 0, .advance 0, .advance 0, .advance 0, .die 0]

theorem idleWorld_start : Start idleWorld :=
  ⟨fun _ h => List.mem_singleton.mp h, fun _ h => absurd h List.not_mem_nil⟩

/-- The same purge with a worker that does not die. -/
theorem finished_purge_safe :
    CrashSafe (runWorld idleWorld (crashRun.take 6 ++ List.replicate 6 (.advance 0))) :=
  crashSafe_of_survive idleWorld_start (by decide +kernel)

/-- The job stays running though nobody executes it, and no purge is enqueued any more. -/
theorem crashed_purge_left_running : Start idleWorld ∧
    ¬CrashSafe (runWorld idleWorld crashRun) ∧ ¬PurgeAvailable (runWorld idleWorld crashRun) := by
  have hleft : runWorld idleWorld crashRun =
      ⟨⟨[⟨"purge", .running, none, 0⟩], [], [], none⟩, [none]⟩ := by rfl
  rw [hleft]
  refine ⟨idleWorld_start, fun h => ?_, ?_⟩
  · exact h.resting 0 ⟨"purge", .running, none, 0⟩ rfl List.not_mem_nil rfl
  · rintro (⟨entry, hmem, -⟩ | hdue)
    · cases hmem
    · obtain ⟨entry, hmem, -⟩ := hdue 0 3600 rfl
      cases hmem

end Raglogs.CrashSafety

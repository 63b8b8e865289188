import Raglogs.TailControl

/-!
A stopped job stays stopped as long as no request overwrites the stop: whoever has locked
the row has read it before, so that a tick is never at work on a stopped job, and a
request that waits for the lock writes what it made of an older row.
-/

namespace Raglogs.StopFinality

open Ingestion LogEntries Tailing Text TailControl

variable {α ρ κ : Type} {n : ℕ}

/-- What a stop request has written or is about to write, if it has not seen the job stopped. -/
def StopWrites (action : TailAction) (row : JobStatus) (status : Option JobStatus) : Prop :=
  action = .stop → status = some .stopped ∨ (status = none ∧ row = .stopped)

/-- Where a party is, by the committed status and the lock. -/
def Fits (status : JobStatus) (lock : Option (Fin n)) (i : Fin n) : Party α ρ κ → Prop
  | .control _ _ .read => True
  | .control action _ (.write new) => StopWrites action status new
  | .control action _ (.commit new) =>
      (new ≠ none → lock = some i) ∧ StopWrites action status new ∧
        (status = .stopped → new = none ∨ new = some .stopped)
  | .control action _ (.done committed) => action = .stop → committed = true → status = .stopped
  | .tick _ .select => True
  | .tick _ (.poll _) => lock = some i ∧ status ≠ .stopped
  | .tick _ (.commit _) => lock = some i ∧ status ≠ .stopped
  | .tick _ (.done _) => True

def Inv (w : World n α ρ κ) : Prop := ∀ i, Fits w.row.status w.lock i (w.parties i)

/-- A step of another party: a stopped job stays so, and the row of the holder is untouched. -/
theorem Fits.frame {status status' : JobStatus} {lock lock' : Option (Fin n)} {i : Fin n}
    {p : Party α ρ κ} (h : Fits status lock i p)
    (hstopped : status = .stopped → status' = .stopped)
    (hholds : lock = some i → lock' = some i ∧ status' = status) : Fits status' lock' i p := by
  have hwrites : ∀ action new, StopWrites action status new → StopWrites action status' new :=
    fun action new hw hstop => (hw hstop).imp id (fun hseen => ⟨hseen.1, hstopped hseen.2⟩)
  cases p with
  | control action scope state =>
    cases state with
    | read => trivial
    | write new => exact hwrites action new h
    | commit new =>
      obtain ⟨hlock, hstop, hkeeps⟩ := h
      cases new with
      | none => exact ⟨fun hne => absurd rfl hne, hwrites action none hstop, fun _ => .inl rfl⟩
      | some new =>
        obtain ⟨hlock', hsame⟩ := hholds (hlock (Option.some_ne_none new))
        refine ⟨fun _ => hlock', hwrites action _ hstop, fun hnow => hkeeps ?_⟩
        exact hsame.symm.trans hnow
    | done committed => exact fun haction hcommitted => hstopped (h haction hcommitted)
  | tick env state =>
    cases state with
    | select => trivial
    | poll job =>
      obtain ⟨hlock', hsame⟩ := hholds h.1
      exact ⟨hlock', hsame ▸ h.2⟩
    | commit job =>
      obtain ⟨hlock', hsame⟩ := hholds h.1
      exact ⟨hlock', hsame ▸ h.2⟩
    | done polled => trivial

/-- A step of one party to a new state, with the row and the lock it leaves. -/
theorem Inv.update {w : World n α ρ κ} (h : Inv w) {i : Fin n} {row : IngestionJob}
    {lock : Option (Fin n)} {p : Party α ρ κ}
    (hstopped : w.row.status = .stopped → row.status = .stopped)
    (hothers : ∀ j, j ≠ i → w.lock = some j → lock = some j ∧ row.status = w.row.status)
    (hp : Fits row.status lock i p) : Inv ⟨row, lock, Function.update w.parties i p⟩ := by
  intro j
  by_cases hj : j = i
  · subst hj
    simpa using hp
  · simpa [Function.update_of_ne hj] using (h j).frame hstopped (hothers j hj)

theorem release_of_other {w : World n α ρ κ} {i j : Fin n} (hne : j ≠ i)
    (h : w.lock = some j) : release w i = some j := by
  rw [release, h, if_neg (fun hsame => hne (Option.some.inj hsame))]

theorem fits_abandonParty {w : World n α ρ κ} (h : Inv w) (i : Fin n) (lock : Option (Fin n)) :
    Fits w.row.status lock i (abandonParty (w.parties i)) := by
  have hi := h i
  cases hp : w.parties i with
  | control action scope state =>
    rw [hp] at hi
    cases state with
    | done committed => exact hi
    | read => exact fun _ hfalse => absurd hfalse Bool.false_ne_true
    | write new => exact fun _ hfalse => absurd hfalse Bool.false_ne_true
    | commit new => exact fun _ hfalse => absurd hfalse Bool.false_ne_true
  | tick env state => cases state <;> trivial

theorem Inv.abandon {w : World n α ρ κ} (h : Inv w) (i : Fin n) : Inv (abandon w i) :=
  h.update id (fun _ hne hj => ⟨release_of_other hne hj, rfl⟩) (fits_abandonParty h i _)

theorem applyTailLifecycle_stop {mode : JobMode} {status new : JobStatus}
    (h : applyTailLifecycle mode status .stop = .ok new) : new = .stopped := by
  unfold applyTailLifecycle at h
  split at h
  · cases h
  · cases h
    rfl

theorem fits_applyTailAction (row : IngestionJob) (lock : Option (Fin n)) (i : Fin n)
    (scope : String) (action : TailAction) :
    Fits (α := α) (ρ := ρ) (κ := κ) row.status lock i
      (.control action scope (applyTailAction row scope action)) := by
  unfold applyTailAction
  split
  · exact fun _ hfalse => absurd hfalse Bool.false_ne_true
  · split
    · exact fun _ hfalse => absurd hfalse Bool.false_ne_true
    · rename_i new hnew
      have hstop : action = .stop → new = .stopped := by
        rintro rfl
        exact applyTailLifecycle_stop hnew
      by_cases hchanged : new ≠ row.status
      · rw [if_pos hchanged]
        exact fun haction => .inl (congrArg some (hstop haction))
      · rw [if_neg hchanged]
        have hsame : new = row.status := not_not.mp hchanged
        split
        · exact fun haction => .inr ⟨rfl, hsame ▸ hstop haction⟩
        · rename_i hnot
          exact ⟨fun hne => absurd rfl hne, fun haction => absurd haction hnot, fun _ => .inl rfl⟩

theorem not_due_of_stopped {row : IngestionJob} (h : row.status = .stopped) (now : Timestamp)
    (pollInterval : ℤ) : isTailJobDue row now pollInterval ≠ true := by
  intro hdue
  rw [isTailJobDue, if_pos (.inr (by rw [h]; decide))] at hdue
  cases hdue

theorem inv_start {w : World n α ρ κ} (h : Start w) : Inv w := by
  intro i
  rcases h.parties i with ⟨action, scope, hp⟩ | ⟨env, hp⟩ <;> rw [hp] <;> trivial

/-- A request's write gets the lock over a row that is not stopped, or writes a stop. -/
theorem Inv.stepControl {w : World n α ρ κ} (h : Inv w) {i : Fin n} {action : TailAction}
    {scope : String} {state : ControlState} (hp : w.parties i = .control action scope state)
    (hkeeps : overwritesStop w i false = false) :
    Inv (stepControl w i action scope state) ∧
      (w.row.status = .stopped → (stepControl w i action scope state).row.status = .stopped) := by
  have hi := h i
  rw [hp] at hi
  cases state with
  | read =>
    exact ⟨h.update id (fun _ _ hj => ⟨hj, rfl⟩) (fits_applyTailAction w.row w.lock i scope action),
      id⟩
  | write new =>
    simp only [TailControl.stepControl]
    split
    · rename_i hlock
      refine ⟨h.update id (fun j _ hj => by rw [hlock] at hj; cases hj) ⟨fun _ => rfl, hi, ?_⟩, id⟩
      intro hstopped
      have hnow : w.row.status = .stopped := hstopped
      cases new with
      | none => exact .inl rfl
      | some new =>
        refine .inr (congrArg some ?_)
        simpa [overwritesStop, hp, hlock, hnow] using hkeeps
    · exact ⟨h, id⟩
  | commit new =>
    obtain ⟨hlock, hwrites, hkept⟩ := hi
    have hrow : w.row.status = .stopped → new.getD w.row.status = .stopped := by
      intro hstopped
      rcases hkept hstopped with rfl | rfl
      · exact hstopped
      · rfl
    refine ⟨h.update hrow (fun j hne hj => ?_) ?_, hrow⟩
    · refine ⟨release_of_other hne hj, ?_⟩
      cases new with
      | none => rfl
      | some new =>
        have hself := hlock (Option.some_ne_none new)
        rw [hj, Option.some.injEq] at hself
        exact absurd hself hne
    · intro haction _
      rcases hwrites haction with rfl | ⟨rfl, hstopped⟩
      · rfl
      · exact hstopped
  | done committed => exact ⟨h, id⟩

section Steps

variable [DecidableEq κ]

theorem Inv.stepTick {w : World n α ρ κ} (h : Inv w) {i : Fin n} {env : TickEnv α ρ κ}
    {state : TickState} (hp : w.parties i = .tick env state) :
    Inv (stepTick w i env state) ∧
      (w.row.status = .stopped → (stepTick w i env state).row.status = .stopped) := by
  have hi := h i
  rw [hp] at hi
  cases state with
  | select =>
    simp only [TailControl.stepTick]
    split
    · rename_i hselected
      refine ⟨h.update id (fun j _ hj => ?_) ⟨rfl, fun hstopped => ?_⟩, id⟩
      · rw [hselected.1] at hj
        cases hj
      · exact not_due_of_stopped hstopped _ _ hselected.2
    · exact ⟨h.update id (fun _ _ hj => ⟨hj, rfl⟩) trivial, id⟩
  | poll job =>
    simp only [TailControl.stepTick]
    split
    · exact ⟨h.update id (fun j hne hj => ⟨release_of_other hne hj, rfl⟩) trivial, id⟩
    · exact ⟨h.update id (fun _ _ hj => ⟨hj, rfl⟩) hi, id⟩
  | commit job =>
    obtain ⟨hlock, hrunning⟩ := hi
    refine ⟨h.update (fun hstopped => absurd hstopped hrunning) (fun j hne hj => ?_) trivial,
      fun hstopped => absurd hstopped hrunning⟩
    rw [hlock, Option.some.injEq] at hj
    exact absurd hj.symm hne
  | done polled => exact ⟨h, id⟩

/-- One step of any party. -/
theorem inv_step {w : World n α ρ κ} (h : Inv w) {i : Fin n} {rollback : Bool}
    (hkeeps : overwritesStop w i rollback = false) :
    Inv (stepParty w i rollback) ∧
      (w.row.status = .stopped → (stepParty w i rollback).row.status = .stopped) := by
  cases rollback with
  | true => exact ⟨h.abandon i, id⟩
  | false =>
    simp only [stepParty, Bool.false_eq_true, if_false]
    split
    · rename_i action scope state hp
      exact h.stepControl hp hkeeps
    · rename_i env state hp
      exact h.stepTick hp

theorem inv_run (schedule : List (Fin n × Bool)) : ∀ {w : World n α ρ κ}, Inv w →
    neverOverwrites w schedule = true →
      Inv (runParties w schedule) ∧
        (w.row.status = .stopped → (runParties w schedule).row.status = .stopped) := by
  induction schedule with
  | nil => exact fun h _ => ⟨h, id⟩
  | cons event rest ih =>
    intro w h hkeeps
    obtain ⟨hfirst, hrest⟩ := Bool.and_eq_true_iff.mp hkeeps
    obtain ⟨hinv, hstopped⟩ := inv_step h (Bool.not_eq_true' _ ▸ hfirst)
    obtain ⟨hinv', hstopped'⟩ := ih hinv hrest
    exact ⟨hinv', hstopped' ∘ hstopped⟩

/-- A tick that selects a stopped job does not poll it. -/
def NotPolled (env : TickEnv α ρ κ) (p : Party α ρ κ) : Prop :=
  p = .tick env .select ∨ p = .tick env (.done false)

theorem notPolled_step {w : World n α ρ κ} (hstopped : w.row.status = .stopped) {i : Fin n}
    {env : TickEnv α ρ κ} (h : NotPolled env (w.parties i)) (j : Fin n) (rollback : Bool) :
    NotPolled env ((stepParty w j rollback).parties i) := by
  have hother : j ≠ i → (stepParty w j rollback).parties i = w.parties i := by
    intro hne
    have hupdate : ∀ p : Party α ρ κ, Function.update w.parties j p i = w.parties i :=
      fun p => Function.update_of_ne hne.symm p w.parties
    cases rollback with
    | true => exact hupdate _
    | false =>
      simp only [stepParty, Bool.false_eq_true, if_false]
      split
      · rename_i action scope state hp
        cases state with
        | read => exact hupdate _
        | write new =>
          simp only [stepControl]
          split
          · exact hupdate _
          · rfl
        | commit new => exact hupdate _
        | done committed => rfl
      · rename_i env' state hp
        cases state with
        | select =>
          simp only [stepTick]
          split <;> exact hupdate _
        | poll job =>
          simp only [stepTick]
          split <;> exact hupdate _
        | commit job => exact hupdate _
        | done polled => rfl
  by_cases hj : j = i
  · subst hj
    rcases h with hp | hp
    · cases rollback with
      | true => exact .inr (by simp [stepParty, abandon, abandonParty, hp])
      | false =>
        refine .inr ?_
        simp only [stepParty, Bool.false_eq_true, if_false, hp, stepTick]
        rw [if_neg (fun hselected => not_due_of_stopped hstopped _ _ hselected.2)]
        simp [World.goto]
    · cases rollback with
      | true => exact .inr (by simp [stepParty, abandon, abandonParty, hp])
      | false => exact .inr (by simp [stepParty, stepTick, hp])
  · rw [hother hj]
    exact h

theorem notPolled_run (schedule : List (Fin n × Bool)) {i : Fin n} {env : TickEnv α ρ κ} :
    ∀ {w : World n α ρ κ}, Inv w → w.row.status = .stopped →
      neverOverwrites w schedule = true → NotPolled env (w.parties i) →
        NotPolled env ((runParties w schedule).parties i) := by
  induction schedule with
  | nil => exact fun _ _ _ h => h
  | cons event rest ih =>
    intro w hinv hstopped hkeeps h
    obtain ⟨hfirst, hrest⟩ := Bool.and_eq_true_iff.mp hkeeps
    obtain ⟨hinv', hstopped'⟩ := inv_step hinv (Bool.not_eq_true' _ ▸ hfirst)
    exact ih hinv' (hstopped' hstopped) hrest (notPolled_step hstopped h event.1 event.2)

theorem neverOverwrites_append {before after : List (Fin n × Bool)} :
    ∀ {w : World n α ρ κ}, neverOverwrites w (before ++ after) = true →
      neverOverwrites w before = true ∧ neverOverwrites (runParties w before) after = true := by
  induction before with
  | nil => exact fun h => ⟨rfl, h⟩
  | cons event rest ih =>
    intro w h
    obtain ⟨hfirst, hrest⟩ := Bool.and_eq_true_iff.mp h
    obtain ⟨hbefore, hafter⟩ := ih hrest
    exact ⟨Bool.and_eq_true_iff.mpr ⟨hfirst, hbefore⟩, hafter⟩

/-- What a stop promises: the job is stopped ever after, and no tick that starts later polls. -/
def StopFinal (w : World n α ρ κ) (before after : List (Fin n × Bool)) : Prop :=
  StopCommitted (runParties w before) →
    (runParties w (before ++ after)).row.status = .stopped ∧
      ∀ i env, (runParties w before).parties i = .tick env .select →
        NotPolled env ((runParties w (before ++ after)).parties i)

/-- In a run in which no request overwrites a stop, a stop is final. -/
theorem stop_final {w : World n α ρ κ} (hstart : Start w) (before after : List (Fin n × Bool))
    (hkeeps : neverOverwrites w (before ++ after) = true) : StopFinal w before after := by
  rintro ⟨i, scope, hdone⟩
  obtain ⟨hbefore, hafter⟩ := neverOverwrites_append hkeeps
  obtain ⟨hinv, -⟩ := inv_run before (inv_start hstart) hbefore
  have hstopped : (runParties w before).row.status = .stopped := by
    have hi := hinv i
    rw [hdone] at hi
    exact hi rfl rfl
  have hrun : runParties w (before ++ after) = runParties (runParties w before) after :=
    List.foldl_append
  rw [hrun]
  refine ⟨(inv_run after hinv hafter).2 hstopped, fun j env hselect => ?_⟩
  exact notPolled_run after hinv hstopped hafter (.inl hselect)

end Steps

/-! A request that resumes while another stops. -/

def pausedJob : IngestionJob := { newJob .tail "loki" none 0 "default" with status := .paused }

def sampleTick : TickEnv String String String where
  lowering := asciiLowering
  pipeline := ⟨500, fun line => .row line, fun _ => none, some, fun _ => none⟩
  errorThreshold := 5
  pollInterval := 30000000
  rows := []
  tick := ⟨0, 0, fun _ => .ok []⟩

/-- One request to resume, one to stop, and a tick. -/
def sampleWorld : World 3 String String String where
  row := pausedJob
  lock := none
  parties i :=
    match i with
    | 0 => .control .resume "default" .read
    | 1 => .control .stop "default" .read
    | 2 => .tick sampleTick .select

theorem sampleWorld_start : Start sampleWorld := by
  refine ⟨rfl, fun i => ?_⟩
  match i with
  | 0 => exact .inl ⟨.resume, "default", rfl⟩
  | 1 => exact .inl ⟨.stop, "default", rfl⟩
  | 2 => exact .inr ⟨sampleTick, rfl⟩

def stopRun : List (Fin 3 × Bool) := [(1, false), (1, false), (1, false)]

theorem stop_final_in_turn :
    StopFinal sampleWorld stopRun [(0, false), (2, false)] :=
  stop_final sampleWorld_start stopRun [(0, false), (2, false)] (by decide +kernel)

/-- The request to resume has read the paused job before the stop, and writes after it. -/
theorem resume_overwrites_stop :
    ¬StopFinal sampleWorld ((0, false) :: stopRun) [(0, false), (0, false), (2, false)] := by
  intro h
  obtain ⟨hstopped, -⟩ := h ⟨1, "default", rfl⟩
  revert hstopped
  decide +kernel

end Raglogs.StopFinality

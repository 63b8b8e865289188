import Raglogs.IdempotencyKeys

/-!
Which job the posts of one key end with. One post at most holds the key at a time, by the
expired row it has deleted or by the row it has inserted; the first that commits wins, and
the others find its row. A deletion is by key: one that starts after the winner's commit
would take the winner's row.
-/

namespace Raglogs.IdempotencyRaces

open IdempotencyKeys LogEntries Text

variable {n : ℕ}

/-- The entry of a key and the posts that carry it, all within one lifetime of a mapping. -/
structure Setup (n : ℕ) where
  posts : Fin n → Post
  ttl : ℤ
  row : Option (KeyRow n)
  jobs : List (Job n)
  jobs_existing : ∀ job ∈ jobs, ∀ i, job.id ≠ .posted i
  /-- No post comes after the expiry of a mapping that another stores. -/
  within_ttl : ∀ i j, (posts i).lookupAt < (posts j).bindAt + ttl ∧
    (posts i).bindAt < (posts j).bindAt + ttl
  /-- The entry does not expire between two clock readings. -/
  steady : ∀ row', row = some row' →
    (∀ i, isActive row' (posts i).lookupAt = true ∧ isActive row' (posts i).bindAt = true) ∨
      ∀ i, isActive row' (posts i).lookupAt = false ∧ isActive row' (posts i).bindAt = false

namespace Setup

/-- The entry is active for every post. -/
def Active (s : Setup n) (row : KeyRow n) : Prop :=
  s.row = some row ∧ ∀ i, isActive row (s.posts i).lookupAt = true ∧
    isActive row (s.posts i).bindAt = true

/-- There is no entry, or it has expired for every post. -/
def Free (s : Setup n) : Prop :=
  ∀ row, s.row = some row → ∀ i, isActive row (s.posts i).lookupAt = false ∧
    isActive row (s.posts i).bindAt = false

theorem active_or_free (s : Setup n) : (∃ row, s.Active row) ∨ s.Free := by
  cases hrow : s.row with
  | none => exact .inr (fun row h => by rw [hrow] at h; cases h)
  | some row =>
    rcases s.steady row hrow with hactive | hexpired
    · exact .inl ⟨row, hrow, hactive⟩
    · refine .inr (fun row' h => ?_)
      rw [hrow, Option.some.injEq] at h
      exact h ▸ hexpired

/-- What a post answers from the entry that was there before. -/
def entryResponse (s : Setup n) (row : KeyRow n) (i : Fin n) : Response n :=
  if scopeOfIdempotencyRow s.jobs row = (s.posts i).scope then
    .enqueued (enqueuedFromIdempotency row)
  else .scopeConflict

/-- What a post answers when another, or itself, has created the job. -/
def winnerResponse (s : Setup n) (k i : Fin n) : Response n :=
  if (s.posts k).scope = (s.posts i).scope then .enqueued (createdResponse s.posts k)
  else .scopeConflict

end Setup

/-! An active entry. -/

/-- A post that meets an active entry. -/
def Replays (s : Setup n) (row : KeyRow n) (i : Fin n) (l : Local n) : Prop :=
  l = ⟨.lookup, false, none, none⟩ ∨ l = ⟨.scope row, false, none, none⟩ ∨
    l = ⟨.commit (s.entryResponse row i), false, none, none⟩ ∨
    l = ⟨.done (s.entryResponse row i), false, none, none⟩

structure Replaying (s : Setup n) (row : KeyRow n) (w : World n) : Prop where
  row_eq : w.row = some row
  jobs_eq : w.jobs = s.jobs
  locals : ∀ i, Replays s row i (w.locals i)

theorem goto_locals (w : World n) (i : Fin n) (l : Local n) (j : Fin n) :
    (w.goto i l).locals j = if j = i then l else w.locals j := by
  simp [World.goto, Function.update_apply]

theorem Replaying.goto {s : Setup n} {row : KeyRow n} {w : World n} (h : Replaying s row w)
    {i : Fin n} {l : Local n} (hl : Replays s row i l) : Replaying s row (w.goto i l) := by
  refine ⟨h.row_eq, h.jobs_eq, fun j => ?_⟩
  rw [goto_locals]
  split
  · rename_i hj
    rw [hj]
    exact hl
  · exact h.locals j

theorem Replaying.step {s : Setup n} {row : KeyRow n} (hactive : s.Active row) {w : World n}
    (h : Replaying s row w) (i : Fin n) (full : Bool) :
    Replaying s row (stepPost s.posts s.ttl w i full) := by
  unfold stepPost
  rcases h.locals i with hl | hl | hl | hl
  · have hfound : lookupActiveKey w.row (s.posts i).lookupAt = some row := by
      rw [h.row_eq]
      simp [lookupActiveKey, Option.filter, (hactive.2 i).1]
    simp only [hl, hfound]
    exact h.goto (.inr (.inl rfl))
  · have hresponse : replayResponse s.posts w i row = s.entryResponse row i := by
      rw [replayResponse, visibleJobs, hl, h.jobs_eq, Setup.entryResponse]
      simp
    simp only [hl, hresponse]
    exact h.goto (.inr (.inr (.inl rfl)))
  · simp only [hl]
    have hcommit : commitWrites s.posts w i (s.entryResponse row i) =
        w.goto i ⟨.done (s.entryResponse row i), false, none, none⟩ := by
      rw [commitWrites, World.goto, visibleJobs, visibleRow, hl, h.row_eq]
      rfl
    rw [hcommit]
    exact h.goto (.inr (.inr (.inr rfl)))
  · simp only [hl]
    exact h

theorem replaying_run {s : Setup n} {row : KeyRow n} (hactive : s.Active row)
    (schedule : List (Fin n × Bool)) : ∀ {w : World n}, Replaying s row w →
      Replaying s row (runPosts s.posts s.ttl w schedule) := by
  induction schedule with
  | nil => exact fun h => h
  | cons event rest ih => exact fun h => ih (h.step hactive event.1 event.2)

theorem replaying_start {s : Setup n} {row : KeyRow n} (hactive : s.Active row) :
    Replaying s row (startWorld s.row s.jobs) :=
  ⟨hactive.1, rfl, fun _ => .inl rfl⟩

/-! A free key. -/

/-- The committed row, by who has won. -/
def rowOf (s : Setup n) : Option (Fin n) → Option (KeyRow n)
  | none => s.row
  | some k => some (newRow s.posts s.ttl k)

def jobsOf (s : Setup n) : Option (Fin n) → List (Job n)
  | none => s.jobs
  | some k => s.jobs ++ [newJob s.posts k]

/-- A post has answered as it should: with the job of the winner, or it was turned away. -/
def Answered (s : Setup n) (turned : Prop) (winner : Option (Fin n)) (i : Fin n)
    (response : Response n) : Prop :=
  (turned ∧ response = .queueFull) ∨ ∃ k, winner = some k ∧ response = s.winnerResponse k i

/-- A post has nothing on the row of the key. -/
def Local.Idle (l : Local n) : Prop := l.deleted = none ∧ l.inserted = none

/-- Where a post is, by who has won. -/
def Fits (s : Setup n) (turned : Prop) (winner : Option (Fin n)) (i : Fin n) (l : Local n) : Prop :=
  match l.pc with
  | .lookup | .queue | .create => l.created = false ∧ Local.Idle l
  | .scope row => Local.Idle l ∧ ∃ k, winner = some k ∧ row = newRow s.posts s.ttl k
  | .read => l.created = true ∧ Local.Idle l
  | .delete seen => l.created = true ∧ Local.Idle l ∧ s.row = some seen
  | .deleting target => l.created = true ∧ Local.Idle l ∧ target = s.row ∧ s.row ≠ none
  | .insert => l.created = true ∧ l.inserted = none ∧
      ((l.deleted = none ∧ (s.row = none ∨ winner ≠ none)) ∨
        (l.deleted = s.row ∧ s.row ≠ none ∧ winner = none))
  | .reread => l.created = true ∧ Local.Idle l ∧ winner ≠ none
  | .discard response => l.created = true ∧ Local.Idle l ∧
      ∃ k, winner = some k ∧ response = s.winnerResponse k i
  | .commit response =>
      (l.created = true ∧ l.inserted = some (newRow s.posts s.ttl i) ∧ l.deleted = s.row ∧
        winner = none ∧ response = .enqueued (createdResponse s.posts i)) ∨
      (l.created = false ∧ Local.Idle l ∧ Answered s turned winner i response)
  | .done response => l.created = false ∧ Local.Idle l ∧ Answered s turned winner i response

/-- A post has deleted the expired row or inserted its own. -/
def Local.Holds (l : Local n) : Prop := l.deleted ≠ none ∨ l.inserted ≠ none

structure Racing (s : Setup n) (turned : Prop) (winner : Option (Fin n)) (w : World n) : Prop where
  row_eq : w.row = rowOf s winner
  jobs_eq : w.jobs = jobsOf s winner
  locals : ∀ i, Fits s turned winner i (w.locals i)
  alone : ∀ i j, Local.Holds (w.locals i) → Local.Holds (w.locals j) → i = j

theorem Local.Idle.not_holds {l : Local n} (h : Local.Idle l) : ¬Local.Holds l := by
  rintro (hdeleted | hinserted)
  · exact hdeleted h.1
  · exact hinserted h.2

/-- Whoever holds the key has deleted the expired row, and nobody has won. -/
theorem Fits.of_holds {s : Setup n} {turned : Prop} {winner : Option (Fin n)} {i : Fin n}
    {l : Local n} (h : Fits s turned winner i l) (hholds : Local.Holds l) :
    winner = none ∧ l.deleted = s.row := by
  have hidle : ¬Local.Idle l := fun hidle => hidle.not_holds hholds
  unfold Fits at h
  split at h
  · exact absurd h.2 hidle
  · exact absurd h.2 hidle
  · exact absurd h.2 hidle
  · exact absurd h.1 hidle
  · exact absurd h.2 hidle
  · exact absurd h.2.1 hidle
  · exact absurd h.2.1 hidle
  · obtain ⟨-, hinserted, ⟨hdeleted, -⟩ | ⟨hdeleted, -, hwinner⟩⟩ := h
    · exact absurd ⟨hdeleted, hinserted⟩ hidle
    · exact ⟨hwinner, hdeleted⟩
  · exact absurd h.2.1 hidle
  · exact absurd h.2.1 hidle
  · rcases h with ⟨-, -, hdeleted, hwinner, -⟩ | h
    · exact ⟨hwinner, hdeleted⟩
    · exact absurd h.2.1 hidle
  · exact absurd h.2.1 hidle

/-- A post that holds nothing goes on when another wins. -/
theorem Fits.of_win {s : Setup n} {turned : Prop} {i k : Fin n} {l : Local n}
    (h : Fits s turned none i l) (hnot : ¬Local.Holds l) : Fits s turned (some k) i l := by
  have hanswered : ∀ response, Answered s turned none i response →
      Answered s turned (some k) i response := by
    rintro response (hturned | ⟨k', hnone, -⟩)
    · exact .inl hturned
    · cases hnone
  unfold Fits at h ⊢
  split at h
  · exact h
  · exact h
  · exact h
  · obtain ⟨-, k', hnone, -⟩ := h
    cases hnone
  · exact h
  · exact h
  · exact h
  · obtain ⟨hcreated, hinserted, ⟨hdeleted, -⟩ | ⟨hdeleted, hrow, -⟩⟩ := h
    · exact ⟨hcreated, hinserted, .inl ⟨hdeleted, .inr (Option.some_ne_none k)⟩⟩
    · exact absurd (.inl (hdeleted ▸ hrow)) hnot
  · exact ⟨h.1, h.2.1, Option.some_ne_none k⟩
  · obtain ⟨-, -, k', hnone, -⟩ := h
    cases hnone
  · rcases h with ⟨-, hinserted, -⟩ | ⟨hcreated, hidle, hresponse⟩
    · exact absurd (.inr (by rw [hinserted]; exact Option.some_ne_none _)) hnot
    · exact .inr ⟨hcreated, hidle, hanswered _ hresponse⟩
  · exact ⟨h.1, h.2.1, hanswered _ h.2.2⟩

theorem Racing.goto {s : Setup n} {turned : Prop} {winner : Option (Fin n)} {w : World n}
    (h : Racing s turned winner w) {i : Fin n} {l : Local n} (hl : Fits s turned winner i l)
    (halone : Local.Holds l → ∀ j, j ≠ i → ¬Local.Holds (w.locals j)) :
    Racing s turned winner (w.goto i l) := by
  refine ⟨h.row_eq, h.jobs_eq, fun j => ?_, fun j k hj hk => ?_⟩
  · rw [goto_locals]
    split
    · rename_i hj
      rw [hj]
      exact hl
    · exact h.locals j
  · rw [goto_locals] at hj hk
    split at hj
    · rename_i hji
      split at hk
      · rename_i hki
        exact hji.trans hki.symm
      · rename_i hki
        exact absurd hk (halone hj k hki)
    · rename_i hji
      split at hk
      · exact absurd hj (halone hk j hji)
      · exact h.alone j k hj hk

/-- The usual case: a step to a state that holds nothing. -/
theorem Racing.goto_idle {s : Setup n} {turned : Prop} {winner : Option (Fin n)} {w : World n}
    (h : Racing s turned winner w) {i : Fin n} {l : Local n} (hl : Fits s turned winner i l)
    (hidle : Local.Idle l) : Racing s turned winner (w.goto i l) :=
  h.goto hl (fun hholds => absurd hholds hidle.not_holds)

/-! Rows and clocks. -/

theorem newRow_expiresAt (posts : Fin n → Post) (ttl : ℤ) (i : Fin n) :
    (newRow posts ttl i).expiresAt = (posts i).bindAt + ttl := by
  unfold newRow
  split <;> rfl

theorem enqueuedFromIdempotency_newRow (posts : Fin n → Post) (ttl : ℤ) (i : Fin n) :
    enqueuedFromIdempotency (newRow posts ttl i) = createdResponse posts i := by
  unfold newRow createdResponse
  split <;> rfl

theorem isActive_newRow (s : Setup n) (i k : Fin n) :
    isActive (newRow s.posts s.ttl k) (s.posts i).lookupAt = true ∧
      isActive (newRow s.posts s.ttl k) (s.posts i).bindAt = true := by
  rw [isActive, isActive, newRow_expiresAt]
  exact ⟨decide_eq_true (s.within_ttl i k).1, decide_eq_true (s.within_ttl i k).2⟩

/-- A lookup finds the row of the winner and no other. -/
theorem lookupActiveKey_rowOf {s : Setup n} (hfree : s.Free) (winner : Option (Fin n)) (i : Fin n) :
    lookupActiveKey (rowOf s winner) (s.posts i).lookupAt = winner.map (newRow s.posts s.ttl) ∧
      lookupActiveKey (rowOf s winner) (s.posts i).bindAt =
        winner.map (newRow s.posts s.ttl) := by
  cases winner with
  | some k =>
    have hactive := isActive_newRow s i k
    simp [lookupActiveKey, rowOf, Option.filter, hactive.1, hactive.2]
  | none =>
    cases hrow : s.row with
    | none => simp [lookupActiveKey, rowOf, hrow]
    | some row =>
      have hexpired := hfree row hrow i
      simp [lookupActiveKey, rowOf, hrow, Option.filter, hexpired.1, hexpired.2]

theorem payloadScope_resolved (post : Post) : payloadScope post.scope = post.scope := by
  obtain ⟨hstrip, hne⟩ := post.scope_resolved
  rw [payloadScope, hstrip, if_neg hne]

theorem jobScope_winner (s : Setup n) (k : Fin n) (others : List (Job n)) :
    jobScope (s.jobs ++ newJob s.posts k :: others) (some (.posted k)) =
      some (s.posts k).scope := by
  have hnone : s.jobs.find? (fun job => decide (job.id = .posted k)) = none :=
    List.find?_eq_none.mpr (fun job hjob => by simpa using s.jobs_existing job hjob k)
  have hscope : payloadScope (newJob s.posts k).scope = (s.posts k).scope :=
    payloadScope_resolved (s.posts k)
  have hfound : (newJob s.posts k :: others).find? (fun job => decide (job.id = .posted k)) =
      some (newJob s.posts k) := List.find?_cons_of_pos (decide_eq_true rfl)
  rw [jobScope, Option.bind_some, List.find?_append, hnone, Option.none_or, hfound,
    Option.map_some, hscope]

theorem scopeOfIdempotencyRow_winner (s : Setup n) (k : Fin n) (others : List (Job n)) :
    scopeOfIdempotencyRow (s.jobs ++ newJob s.posts k :: others) (newRow s.posts s.ttl k) =
      (s.posts k).scope := by
  have hscope := jobScope_winner s k others
  rw [scopeOfIdempotencyRow, newRow]
  cases (s.posts k).mode with
  | batch =>
    dsimp only
    rw [hscope]
    rfl
  | tail =>
    dsimp only
    rw [hscope]
    rfl

/-- A post that finds the winner's row answers from it. -/
theorem Racing.replayResponse {s : Setup n} {turned : Prop} {k : Fin n} {w : World n}
    (h : Racing s turned (some k) w) (i : Fin n) :
    replayResponse s.posts w i (newRow s.posts s.ttl k) = s.winnerResponse k i := by
  have hscope : scopeOfIdempotencyRow (visibleJobs s.posts w i) (newRow s.posts s.ttl k) =
      (s.posts k).scope := by
    rw [visibleJobs, h.jobs_eq, jobsOf]
    split
    · rw [List.append_assoc]
      exact scopeOfIdempotencyRow_winner s k [newJob s.posts i]
    · exact scopeOfIdempotencyRow_winner s k []
  rw [IdempotencyKeys.replayResponse, hscope, enqueuedFromIdempotency_newRow,
    Setup.winnerResponse, ite_not]

/-! Steps. -/

/-- A deletion starts after another post has replaced the row it is meant for. -/
def staleDelete (w : World n) (i : Fin n) : Bool :=
  match (w.locals i).pc with
  | .delete seen => w.row ≠ some seen
  | _ => false

/-- A post finds the queue full. -/
def turnedAway (w : World n) (i : Fin n) (full : Bool) : Bool :=
  match (w.locals i).pc with
  | .queue => full
  | _ => false

section Steps

variable {s : Setup n} {turned : Prop} {winner : Option (Fin n)} {w : World n}

theorem visibleRow_of_not_deleted {l : Local n} (h : l.deleted = none) :
    visibleRow w l = w.row := by
  rw [visibleRow, h]
  split
  · rename_i hnone
    exact hnone
  · rfl

theorem not_holds_others (h : Racing s turned winner w) {i : Fin n}
    (hholds : Local.Holds (w.locals i)) (j : Fin n) (hne : j ≠ i) : ¬Local.Holds (w.locals j) :=
  fun hj => hne (h.alone j i hj hholds)

theorem isLockedBy_eq_false {i : Fin n} {row : KeyRow n} (h : isLockedBy w i row = false)
    {j : Fin n} (hne : j ≠ i) : (w.locals j).deleted ≠ some row := by
  intro hdeleted
  have htrue : isLockedBy w i row = true :=
    List.any_eq_true.mpr ⟨j, List.mem_finRange j, by simp [hne, hdeleted]⟩
  rw [h] at htrue
  cases htrue

theorem hasPendingInsert_eq_false {i : Fin n} (h : hasPendingInsert w i = false) {j : Fin n}
    (hne : j ≠ i) : (w.locals j).inserted = none := by
  cases hinserted : (w.locals j).inserted with
  | none => rfl
  | some row =>
    have htrue : hasPendingInsert w i = true :=
      List.any_eq_true.mpr ⟨j, List.mem_finRange j, by simp [hne, hinserted]⟩
    rw [h] at htrue
    cases htrue

theorem Racing.step_lookup (hfree : s.Free) (h : Racing s turned winner w) {i : Fin n}
    (hpc : (w.locals i).pc = .lookup) (full : Bool) :
    Racing s turned winner (stepPost s.posts s.ttl w i full) := by
  have hfits := h.locals i
  simp only [Fits, hpc] at hfits
  have hlookup := (lookupActiveKey_rowOf hfree winner i).1
  simp only [stepPost, hpc, h.row_eq, hlookup]
  cases winner with
  | none => exact h.goto_idle hfits hfits.2
  | some k => exact h.goto_idle ⟨hfits.2, k, rfl, rfl⟩ hfits.2

theorem Racing.step_scope (h : Racing s turned winner w) {i : Fin n} {row : KeyRow n}
    (hpc : (w.locals i).pc = .scope row) (full : Bool) :
    Racing s turned winner (stepPost s.posts s.ttl w i full) := by
  have hfits := h.locals i
  simp only [Fits, hpc] at hfits
  obtain ⟨hidle, k, rfl, rfl⟩ := hfits
  simp only [stepPost, hpc, h.replayResponse i]
  refine h.goto_idle ?_ hidle
  cases hcreated : (w.locals i).created with
  | true => exact ⟨rfl, hidle, k, rfl, rfl⟩
  | false => exact .inr ⟨rfl, hidle, .inr ⟨k, rfl, rfl⟩⟩

theorem Racing.step_queue (h : Racing s turned winner w) {i : Fin n}
    (hpc : (w.locals i).pc = .queue) {full : Bool} (hturned : full = true → turned) :
    Racing s turned winner (stepPost s.posts s.ttl w i full) := by
  have hfits := h.locals i
  simp only [Fits, hpc] at hfits
  simp only [stepPost, hpc]
  refine h.goto_idle ?_ hfits.2
  cases full with
  | true => exact .inr ⟨hfits.1, hfits.2, .inl ⟨hturned rfl, rfl⟩⟩
  | false => exact hfits

theorem Racing.step_create (h : Racing s turned winner w) {i : Fin n}
    (hpc : (w.locals i).pc = .create) (full : Bool) :
    Racing s turned winner (stepPost s.posts s.ttl w i full) := by
  have hfits := h.locals i
  simp only [Fits, hpc] at hfits
  simp only [stepPost, hpc]
  exact h.goto_idle ⟨rfl, hfits.2⟩ hfits.2

theorem Racing.step_read (hfree : s.Free) (h : Racing s turned winner w) {i : Fin n}
    (hpc : (w.locals i).pc = .read) (full : Bool) :
    Racing s turned winner (stepPost s.posts s.ttl w i full) := by
  have hfits := h.locals i
  simp only [Fits, hpc] at hfits
  obtain ⟨hcreated, hidle⟩ := hfits
  simp only [stepPost, hpc, visibleRow_of_not_deleted hidle.1, h.row_eq]
  cases winner with
  | some k =>
    simp only [rowOf, (isActive_newRow s i k).2, if_true]
    exact h.goto_idle ⟨hidle, k, rfl, rfl⟩ hidle
  | none =>
    cases hrow : s.row with
    | none =>
      simp only [rowOf, hrow]
      exact h.goto_idle ⟨hcreated, hidle.2, .inl ⟨hidle.1, .inl hrow⟩⟩ hidle
    | some row =>
      simp only [rowOf, hrow, (hfree row hrow i).2]
      exact h.goto_idle ⟨hcreated, hidle, hrow⟩ hidle

theorem Racing.step_delete (h : Racing s turned winner w) {i : Fin n} {seen : KeyRow n}
    (hpc : (w.locals i).pc = .delete seen) (hfresh : staleDelete w i = false) (full : Bool) :
    Racing s turned winner (stepPost s.posts s.ttl w i full) := by
  have hfits := h.locals i
  simp only [Fits, hpc] at hfits
  obtain ⟨hcreated, hidle, hrow⟩ := hfits
  simp only [staleDelete, hpc, decide_eq_false_iff_not, not_not] at hfresh
  simp only [stepPost, hpc]
  refine h.goto_idle ⟨hcreated, hidle, hfresh.trans hrow.symm, ?_⟩ hidle
  rw [hrow]
  exact Option.some_ne_none seen

theorem Racing.step_deleting (hfree : s.Free) (h : Racing s turned winner w) {i : Fin n}
    {target : Option (KeyRow n)} (hpc : (w.locals i).pc = .deleting target) (full : Bool) :
    Racing s turned winner (stepPost s.posts s.ttl w i full) := by
  have hfits := h.locals i
  simp only [Fits, hpc] at hfits
  obtain ⟨hcreated, hidle, htarget, hsome⟩ := hfits
  obtain ⟨row, hrow⟩ := Option.ne_none_iff_exists'.mp hsome
  rw [htarget, hrow] at hpc
  simp only [stepPost, hpc]
  cases hlocked : isLockedBy w i row with
  | true => exact h
  | false =>
    rw [if_neg Bool.false_ne_true]
    split
    · rename_i hcommitted
      -- the expired row is still there, so that nobody has won
      have hwinner : winner = none := by
        cases winner with
        | none => rfl
        | some k =>
          rw [h.row_eq, rowOf, Option.some.injEq] at hcommitted
          have hactive := (isActive_newRow s i k).1
          rw [hcommitted, (hfree row hrow i).1] at hactive
          cases hactive
      refine h.goto ⟨hcreated, hidle.2, .inr ⟨hrow.symm, hsome, hwinner⟩⟩ (fun _ j hne hholds => ?_)
      have hdeleted := ((h.locals j).of_holds hholds).2
      exact isLockedBy_eq_false hlocked hne (hdeleted.trans hrow)
    · rename_i hgone
      refine h.goto_idle ⟨hcreated, hidle.2, .inl ⟨hidle.1, .inr ?_⟩⟩ hidle
      rintro rfl
      exact hgone (h.row_eq.trans hrow)

theorem Racing.step_insert (h : Racing s turned winner w) {i : Fin n}
    (hpc : (w.locals i).pc = .insert) (full : Bool) :
    Racing s turned winner (stepPost s.posts s.ttl w i full) := by
  have hfits := h.locals i
  simp only [Fits, hpc] at hfits
  obtain ⟨hcreated, hinserted, hdeleted⟩ := hfits
  simp only [stepPost, hpc]
  cases hpending : hasPendingInsert w i with
  | true => exact h
  | false =>
    rw [if_neg Bool.false_ne_true]
    rcases hdeleted with ⟨hnone, hfree⟩ | ⟨hdeleted, hsome, hwinner⟩
    · rw [visibleRow_of_not_deleted hnone]
      cases hrow : w.row with
      | none =>
        have hwinner : winner = none := by
          cases winner with
          | none => rfl
          | some k => rw [h.row_eq] at hrow; cases hrow
        have hempty : s.row = none := hfree.resolve_right (fun hne => hne hwinner)
        refine h.goto (.inl ⟨hcreated, rfl, hnone.trans hempty.symm, hwinner, rfl⟩)
          (fun _ j hne hholds => ?_)
        rcases hholds with hholds | hholds
        · exact hholds (((h.locals j).of_holds (.inl hholds)).2.trans hempty)
        · exact hholds (hasPendingInsert_eq_false hpending hne)
      | some row =>
        dsimp only
        split
        · exact h
        · refine h.goto_idle ⟨hcreated, ⟨hnone, hinserted⟩, ?_⟩ ⟨hnone, hinserted⟩
          rintro rfl
          have hempty := hfree.resolve_right (fun hne => hne rfl)
          rw [h.row_eq, rowOf, hempty] at hrow
          cases hrow
    · have hvisible : visibleRow w (w.locals i) = none := by
        rw [visibleRow, if_pos (by rw [hdeleted, h.row_eq, hwinner]; rfl)]
      rw [hvisible]
      refine h.goto (.inl ⟨hcreated, rfl, hdeleted, hwinner, rfl⟩) (fun _ j hne => ?_)
      exact not_holds_others h (.inl (by rw [hdeleted]; exact hsome)) j hne

theorem Racing.step_reread (hfree : s.Free) (h : Racing s turned winner w) {i : Fin n}
    (hpc : (w.locals i).pc = .reread) (full : Bool) :
    Racing s turned winner (stepPost s.posts s.ttl w i full) := by
  have hfits := h.locals i
  simp only [Fits, hpc] at hfits
  obtain ⟨-, hidle, hwinner⟩ := hfits
  obtain ⟨k, rfl⟩ := Option.ne_none_iff_exists'.mp hwinner
  have hlookup := (lookupActiveKey_rowOf hfree (some k) i).2
  simp only [stepPost, hpc, visibleRow_of_not_deleted hidle.1, h.row_eq, hlookup]
  exact h.goto_idle ⟨hidle, k, rfl, rfl⟩ hidle

theorem Racing.step_discard (h : Racing s turned winner w) {i : Fin n} {response : Response n}
    (hpc : (w.locals i).pc = .discard response) (full : Bool) :
    Racing s turned winner (stepPost s.posts s.ttl w i full) := by
  have hfits := h.locals i
  simp only [Fits, hpc] at hfits
  obtain ⟨-, hidle, hanswer⟩ := hfits
  simp only [stepPost, hpc]
  exact h.goto_idle (.inr ⟨rfl, hidle, .inr hanswer⟩) hidle

/-- A post that commits has won, or commits nothing. -/
theorem Racing.step_commit (h : Racing s turned winner w) {i : Fin n} {response : Response n}
    (hpc : (w.locals i).pc = .commit response) (full : Bool) :
    ∃ winner', Racing s turned winner' (stepPost s.posts s.ttl w i full) := by
  have hfits := h.locals i
  simp only [Fits, hpc] at hfits
  simp only [stepPost, hpc]
  rcases hfits with ⟨hcreated, hinserted, -, rfl, rfl⟩ | ⟨hcreated, hidle, hanswered⟩
  · have hholds : Local.Holds (w.locals i) := by
      refine .inr ?_
      rw [hinserted]
      exact Option.some_ne_none _
    have hothers := not_holds_others h hholds
    refine ⟨some i, ?_, ?_, fun j => ?_, fun j k hj hk => ?_⟩
    · simp only [commitWrites, hinserted, rowOf]
    · simp only [commitWrites, visibleJobs, hcreated, h.jobs_eq, jobsOf, if_true]
    · simp only [commitWrites, Function.update_apply]
      split
      · rename_i hji
        subst hji
        refine ⟨rfl, ⟨rfl, rfl⟩, .inr ⟨j, rfl, ?_⟩⟩
        rw [Setup.winnerResponse, if_pos rfl]
      · rename_i hji
        exact (h.locals j).of_win (hothers j hji)
    · simp only [commitWrites, Function.update_apply] at hj hk
      split at hj
      · exact absurd hj (Local.Idle.not_holds ⟨rfl, rfl⟩)
      · rename_i hji
        exact absurd hj (hothers j hji)
  · have hcommit : commitWrites s.posts w i response =
        w.goto i ⟨.done response, false, none, none⟩ := by
      simp only [commitWrites, World.goto, visibleJobs, hcreated, hidle.2,
        visibleRow_of_not_deleted hidle.1]
      simp
    rw [hcommit]
    exact ⟨winner, h.goto_idle ⟨rfl, ⟨rfl, rfl⟩, hanswered⟩ ⟨rfl, rfl⟩⟩

/-- One statement of any post. -/
theorem Racing.step (hfree : s.Free) (h : Racing s turned winner w) {i : Fin n} {full : Bool}
    (hfresh : staleDelete w i = false) (hturned : turnedAway w i full = true → turned) :
    ∃ winner', Racing s turned winner' (stepPost s.posts s.ttl w i full) := by
  cases hpc : (w.locals i).pc with
  | lookup => exact ⟨winner, h.step_lookup hfree hpc full⟩
  | scope row => exact ⟨winner, h.step_scope hpc full⟩
  | queue => exact ⟨winner, h.step_queue hpc (by simpa only [turnedAway, hpc] using hturned)⟩
  | create => exact ⟨winner, h.step_create hpc full⟩
  | read => exact ⟨winner, h.step_read hfree hpc full⟩
  | delete seen => exact ⟨winner, h.step_delete hpc hfresh full⟩
  | deleting target => exact ⟨winner, h.step_deleting hfree hpc full⟩
  | insert => exact ⟨winner, h.step_insert hpc full⟩
  | reread => exact ⟨winner, h.step_reread hfree hpc full⟩
  | discard response => exact ⟨winner, h.step_discard hpc full⟩
  | commit response => exact h.step_commit hpc full
  | done response =>
    simp only [stepPost, hpc]
    exact ⟨winner, h⟩

end Steps

/-! Waiting. -/

theorem goto_ne {w : World n} {i : Fin n} {l : Local n} (h : l.pc ≠ (w.locals i).pc) :
    w.goto i l ≠ w := by
  intro hsame
  have hl := goto_locals w i l i
  rw [hsame, if_pos rfl] at hl
  exact h (by rw [hl])

/-- A post that waits for nobody goes on. -/
theorem stepPost_ne (posts : Fin n → Post) (ttl : ℤ) {w : World n} {i : Fin n}
    (hdone : ∀ response, (w.locals i).pc ≠ .done response)
    (hlocked : ∀ row, isLockedBy w i row = false) (hpending : hasPendingInsert w i = false) :
    stepPost posts ttl w i false ≠ w := by
  cases hpc : (w.locals i).pc with
  | lookup =>
    simp only [stepPost, hpc]
    split <;> exact goto_ne (by rw [hpc]; simp)
  | scope row =>
    simp only [stepPost, hpc]
    refine goto_ne ?_
    rw [hpc]
    dsimp only
    split <;> simp
  | queue =>
    simp only [stepPost, hpc]
    exact goto_ne (by rw [hpc]; simp)
  | create =>
    simp only [stepPost, hpc]
    exact goto_ne (by rw [hpc]; simp)
  | read =>
    simp only [stepPost, hpc]
    split
    · exact goto_ne (by rw [hpc]; simp)
    · split <;> exact goto_ne (by rw [hpc]; simp)
  | delete seen =>
    simp only [stepPost, hpc]
    exact goto_ne (by rw [hpc]; simp)
  | deleting target =>
    simp only [stepPost, hpc]
    cases target with
    | none => exact goto_ne (by rw [hpc]; simp)
    | some row =>
      simp only [hlocked row]
      rw [if_neg Bool.false_ne_true]
      split <;> exact goto_ne (by rw [hpc]; simp)
  | insert =>
    simp only [stepPost, hpc, hpending]
    rw [if_neg Bool.false_ne_true]
    split
    · exact goto_ne (by rw [hpc]; simp)
    · rename_i row _
      rw [hlocked row, if_neg Bool.false_ne_true]
      exact goto_ne (by rw [hpc]; simp)
  | reread =>
    simp only [stepPost, hpc]
    split <;> exact goto_ne (by rw [hpc]; simp)
  | discard response =>
    simp only [stepPost, hpc]
    exact goto_ne (by rw [hpc]; simp)
  | commit response =>
    simp only [stepPost, hpc]
    intro hsame
    have hl : (commitWrites posts w i response).locals i = ⟨.done response, false, none, none⟩ := by
      simp [commitWrites]
    rw [hsame] at hl
    rw [hl] at hpc
    cases hpc
  | done response => exact absurd hpc (hdone response)

/-- Posts of which one at most holds the key do not wait for each other for ever. -/
theorem exists_step (posts : Fin n → Post) (ttl : ℤ) {w : World n}
    (halone : ∀ i j, Local.Holds (w.locals i) → Local.Holds (w.locals j) → i = j)
    (hdone : ∀ i response, (w.locals i).pc = .done response → Local.Idle (w.locals i)) :
    (∀ i, ∃ response, (w.locals i).pc = .done response) ∨
      ∃ i, stepPost posts ttl w i false ≠ w := by
  by_cases hall : ∀ i, ∃ response, (w.locals i).pc = .done response
  · exact .inl hall
  · have hchoice : ∃ i, (∀ response, (w.locals i).pc ≠ .done response) ∧
        ∀ j, j ≠ i → ¬Local.Holds (w.locals j) := by
      by_cases hholder : ∃ i, Local.Holds (w.locals i)
      · obtain ⟨i, hi⟩ := hholder
        refine ⟨i, fun response hpc => (hdone i response hpc).not_holds hi, fun j hne hj => ?_⟩
        exact hne (halone j i hj hi)
      · obtain ⟨i, hi⟩ := not_forall.mp hall
        exact ⟨i, fun response hpc => hi ⟨response, hpc⟩, fun j _ hj => hholder ⟨j, hj⟩⟩
    obtain ⟨i, hi, hothers⟩ := hchoice
    refine .inr ⟨i, stepPost_ne posts ttl hi (fun row => ?_) ?_⟩
    · rw [isLockedBy, List.any_eq_false]
      intro j _ hj
      simp only [Bool.and_eq_true, decide_eq_true_eq] at hj
      exact hothers j hj.1 (.inl (by rw [hj.2]; exact Option.some_ne_none row))
    · rw [hasPendingInsert, List.any_eq_false]
      intro j _ hj
      simp only [Bool.and_eq_true, decide_eq_true_eq] at hj
      exact hothers j hj.1 (.inr (Option.isSome_iff_ne_none.mp hj.2))

/-! Runs. -/

/-- No deletion of a run starts too late. -/
def neverStale (s : Setup n) : World n → List (Fin n × Bool) → Bool
  | _, [] => true
  | w, (i, full) :: rest =>
      !staleDelete w i && neverStale s (stepPost s.posts s.ttl w i full) rest

/-- No post of a run finds the queue full. -/
def neverTurnedAway (s : Setup n) : World n → List (Fin n × Bool) → Bool
  | _, [] => true
  | w, (i, full) :: rest =>
      !turnedAway w i full && neverTurnedAway s (stepPost s.posts s.ttl w i full) rest

/-- What the posts of one key owe to their callers. -/
structure Idempotent (s : Setup n) (w : World n) : Prop where
  /-- No job is created while the entry is active; a post of its scope is answered with its
  job, and one of another scope with a conflict. -/
  replayed : ∀ row, s.Active row → w.jobs = s.jobs ∧
    ∀ i response, (w.locals i).pc = .done response → response = s.entryResponse row i
  /-- Otherwise one job is created before the first answer, and every answer is about it. -/
  created : s.Free →
    (w.jobs = s.jobs ∧ ∀ i response, (w.locals i).pc ≠ .done response) ∨
      ∃ k, w.jobs = s.jobs ++ [newJob s.posts k] ∧
        ∀ i response, (w.locals i).pc = .done response → response = s.winnerResponse k i
  /-- The posts go on until all are answered. -/
  unblocked : (∀ i, ∃ response, (w.locals i).pc = .done response) ∨
    ∃ i, stepPost s.posts s.ttl w i false ≠ w

theorem racing_start {s : Setup n} (turned : Prop) :
    Racing s turned none (startWorld s.row s.jobs) := by
  refine ⟨rfl, rfl, fun _ => ⟨rfl, rfl, rfl⟩, fun i j hi => ?_⟩
  exact absurd hi (Local.Idle.not_holds ⟨rfl, rfl⟩)

theorem racing_run {s : Setup n} (hfree : s.Free) {turned : Prop}
    (schedule : List (Fin n × Bool)) : ∀ {w : World n} {winner : Option (Fin n)},
    Racing s turned winner w → neverStale s w schedule = true →
      (turned ∨ neverTurnedAway s w schedule = true) →
        ∃ winner', Racing s turned winner' (runPosts s.posts s.ttl w schedule) := by
  induction schedule with
  | nil => exact fun h _ _ => ⟨_, h⟩
  | cons event rest ih =>
    obtain ⟨i, full⟩ := event
    intro w winner h hstale hroom
    simp only [neverStale, Bool.and_eq_true, Bool.not_eq_true'] at hstale
    simp only [neverTurnedAway, Bool.and_eq_true, Bool.not_eq_true'] at hroom
    obtain ⟨winner', h'⟩ := h.step hfree hstale.1 (fun haway =>
      hroom.resolve_right (fun hnone => by rw [haway] at hnone; cases hnone.1))
    exact ih h' hstale.2 (hroom.imp id And.right)

theorem Racing.answered {s : Setup n} {turned : Prop} {winner : Option (Fin n)} {w : World n}
    (h : Racing s turned winner w) {i : Fin n} {response : Response n}
    (hpc : (w.locals i).pc = .done response) : Answered s turned winner i response := by
  have hfits := h.locals i
  simp only [Fits, hpc] at hfits
  exact hfits.2.2

theorem Racing.answers {s : Setup n} {winner : Option (Fin n)} {w : World n}
    (h : Racing s False winner w) :
    (w.jobs = s.jobs ∧ ∀ i response, (w.locals i).pc ≠ .done response) ∨
      ∃ k, w.jobs = s.jobs ++ [newJob s.posts k] ∧
        ∀ i response, (w.locals i).pc = .done response → response = s.winnerResponse k i := by
  cases winner with
  | none =>
    refine .inl ⟨h.jobs_eq, fun i response hpc => ?_⟩
    rcases h.answered hpc with ⟨hfalse, -⟩ | ⟨k, hnone, -⟩
    · exact hfalse
    · cases hnone
  | some k =>
    refine .inr ⟨k, h.jobs_eq, fun i response hpc => ?_⟩
    rcases h.answered hpc with ⟨hfalse, -⟩ | ⟨k', hk', hresponse⟩
    · exact hfalse.elim
    · rw [Option.some.injEq] at hk'
      rw [hresponse, hk']

/-- Whatever the queue, no key has two jobs, and a post is turned away or answered with it. -/
theorem created_once (s : Setup n) (hfree : s.Free) (schedule : List (Fin n × Bool))
    (hstale : neverStale s (startWorld s.row s.jobs) schedule = true) :
    ∃ winner, (runPosts s.posts s.ttl (startWorld s.row s.jobs) schedule).jobs = jobsOf s winner ∧
      ∀ i response,
        ((runPosts s.posts s.ttl (startWorld s.row s.jobs) schedule).locals i).pc =
            .done response →
          Answered s True winner i response := by
  obtain ⟨winner, h⟩ := racing_run hfree schedule (racing_start True) hstale (.inl trivial)
  exact ⟨winner, h.jobs_eq, fun i response hpc => h.answered hpc⟩

theorem Racing.idle_of_done {s : Setup n} {turned : Prop} {winner : Option (Fin n)} {w : World n}
    (h : Racing s turned winner w) (i : Fin n) (response : Response n)
    (hpc : (w.locals i).pc = .done response) : Local.Idle (w.locals i) := by
  have hfits := h.locals i
  simp only [Fits, hpc] at hfits
  exact hfits.2.1

theorem Replaying.idle {s : Setup n} {row : KeyRow n} {w : World n} (h : Replaying s row w)
    (i : Fin n) : Local.Idle (w.locals i) := by
  rcases h.locals i with hl | hl | hl | hl <;> rw [hl] <;> exact ⟨rfl, rfl⟩

theorem Replaying.answers {s : Setup n} {row : KeyRow n} {w : World n} (h : Replaying s row w)
    (i : Fin n) (response : Response n) (hpc : (w.locals i).pc = .done response) :
    response = s.entryResponse row i := by
  rcases h.locals i with hl | hl | hl | hl <;> rw [hl] at hpc <;> cases hpc
  rfl

/-- In a run that turns no post away and starts no deletion too late, the posts of a key are
idempotent in every state. -/
theorem idempotent_run (s : Setup n) (schedule : List (Fin n × Bool))
    (hstale : neverStale s (startWorld s.row s.jobs) schedule = true)
    (hroom : neverTurnedAway s (startWorld s.row s.jobs) schedule = true) :
    Idempotent s (runPosts s.posts s.ttl (startWorld s.row s.jobs) schedule) := by
  refine ⟨fun row hactive => ?_, fun hfree => ?_, ?_⟩
  · have h := replaying_run hactive schedule (replaying_start hactive)
    exact ⟨h.jobs_eq, h.answers⟩
  · obtain ⟨winner, h⟩ := racing_run hfree schedule (racing_start False) hstale (.inr hroom)
    exact h.answers
  · rcases s.active_or_free with ⟨row, hactive⟩ | hfree
    · have h := replaying_run hactive schedule (replaying_start hactive)
      exact exists_step s.posts s.ttl (fun i j hi => absurd hi (h.idle i).not_holds)
        (fun i _ _ => h.idle i)
    · obtain ⟨winner, h⟩ := racing_run hfree schedule (racing_start False) hstale (.inr hroom)
      exact exists_step s.posts s.ttl h.alone h.idle_of_done

/-! Two posts and an expired entry. -/

theorem default_resolved : strip "default" = "default" ∧ "default" ≠ "" := by decide

def samplePosts (_ : Fin 2) : Post := ⟨"default", default_resolved, .batch, 0, 0⟩

def expiredRow : KeyRow 2 := ⟨some (.existing 7), none, .batch, -1⟩

theorem expiredRow_jobs (job : Job 2) (h : job ∈ [(⟨.existing 7, "default"⟩ : Job 2)])
    (i : Fin 2) : job.id ≠ .posted i := by
  rw [List.mem_singleton.mp h]
  exact fun hsame => nomatch hsame

theorem samplePosts_within_ttl (i j : Fin 2) :
    (samplePosts i).lookupAt < (samplePosts j).bindAt + 86400000000 ∧
      (samplePosts i).bindAt < (samplePosts j).bindAt + 86400000000 := by
  simp [samplePosts]

theorem expiredRow_expired (row : KeyRow 2) (h : some expiredRow = some row) (i : Fin 2) :
    isActive row (samplePosts i).lookupAt = false ∧
      isActive row (samplePosts i).bindAt = false := by
  rw [← Option.some.inj h]
  exact ⟨rfl, rfl⟩

def expiredSetup : Setup 2 where
  posts := samplePosts
  ttl := 86400000000
  row := some expiredRow
  jobs := [⟨.existing 7, "default"⟩]
  jobs_existing := expiredRow_jobs
  within_ttl := samplePosts_within_ttl
  steady row h := .inr (expiredRow_expired row h)

/-- One post after the other. -/
def inTurn : List (Fin 2 × Bool) := List.replicate 8 (0, false) ++ List.replicate 3 (1, false)

/-- The second post has read the expired row before the first commits, and deletes after it. -/
def overlapping : List (Fin 2 × Bool) :=
  List.replicate 4 (0, false) ++ List.replicate 4 (1, false) ++ List.replicate 4 (0, false) ++
    List.replicate 4 (1, false)

theorem idempotent_in_turn : Idempotent expiredSetup
    (runPosts samplePosts 86400000000 (startWorld expiredSetup.row expiredSetup.jobs) inTurn) :=
  idempotent_run expiredSetup inTurn (by decide +kernel) (by decide +kernel)

theorem overlapping_jobs :
    (runPosts samplePosts 86400000000 (startWorld expiredSetup.row expiredSetup.jobs)
      overlapping).jobs =
        [⟨.existing 7, "default"⟩, ⟨.posted 0, "default"⟩, ⟨.posted 1, "default"⟩] := by
  decide +kernel

/-- Both posts have created a job, and the row of the first is gone. -/
theorem overlapping_not_idempotent : ¬Idempotent expiredSetup
    (runPosts samplePosts 86400000000 (startWorld expiredSetup.row expiredSetup.jobs)
      overlapping) := by
  intro h
  rcases h.created (expiredRow_expired · ·) with ⟨hjobs, -⟩ | ⟨k, hjobs, -⟩
  · rw [overlapping_jobs] at hjobs
    exact absurd (congrArg List.length hjobs) (by decide)
  · rw [overlapping_jobs] at hjobs
    exact absurd (congrArg List.length hjobs) (by simp [expiredSetup])

end Raglogs.IdempotencyRaces

import Mathlib.Data.List.Basic
import Mathlib.Data.List.Range

/-!
Tables written by an insert that does nothing on a conflict. A row may have a key;
of the rows with one key the first one written stays, and a row without a key is
always written. The identity of a row is its key, or the row itself when it has
none. A buffered writer holds rows back until a page of them is full.
-/

namespace Raglogs.Upserts

variable {ρ κ : Type*} [DecidableEq κ]

/-- Whether a row's key is taken. -/
def conflicts (key : ρ → Option κ) (rows : List ρ) (r : ρ) : Bool :=
  match key r with
  | none => false
  | some k => rows.any (fun r' => key r' = some k)

def upsert (key : ρ → Option κ) (rows : List ρ) (r : ρ) : List ρ :=
  if conflicts key rows r then rows else rows ++ [r]

def upsertAll (key : ρ → Option κ) (rows : List ρ) (batch : List ρ) : List ρ :=
  batch.foldl (upsert key) rows

/-- What a row is to the table. -/
def identity (key : ρ → Option κ) (r : ρ) : κ ⊕ ρ :=
  match key r with
  | some k => .inl k
  | none => .inr r

/-- The rows of a table, up to their identities. -/
def Holds (key : ρ → Option κ) (rows : List ρ) (r : ρ) : Prop :=
  ∃ r' ∈ rows, identity key r' = identity key r

section Tables

variable {key : ρ → Option κ}

omit [DecidableEq κ] in
theorem holds_of_mem {rows : List ρ} {r : ρ} (h : r ∈ rows) : Holds key rows r := ⟨r, h, rfl⟩

omit [DecidableEq κ] in
theorem holds_nil (r : ρ) : ¬Holds key [] r := by
  rintro ⟨r', h, -⟩
  exact absurd h List.not_mem_nil

omit [DecidableEq κ] in
theorem holds_append {rows rows' : List ρ} {r : ρ} :
    Holds key (rows ++ rows') r ↔ Holds key rows r ∨ Holds key rows' r := by
  simp only [Holds, List.mem_append, or_and_right, exists_or]

omit [DecidableEq κ] in
theorem holds_congr {rows : List ρ} {r r' : ρ} (h : identity key r = identity key r') :
    Holds key rows r ↔ Holds key rows r' := by
  simp only [Holds, h]

theorem holds_of_conflicts {rows : List ρ} {r : ρ} (h : conflicts key rows r = true) :
    Holds key rows r := by
  unfold conflicts at h
  split at h
  · cases h
  · rename_i k hk
    obtain ⟨r', hr', hkey⟩ := List.any_eq_true.mp h
    rw [decide_eq_true_eq] at hkey
    exact ⟨r', hr', by simp only [identity, hk, hkey]⟩

/-- One insert adds the row's identity and nothing else. -/
theorem holds_upsert (rows : List ρ) (r r' : ρ) :
    Holds key (upsert key rows r) r' ↔ Holds key rows r' ∨ identity key r = identity key r' := by
  unfold upsert
  split
  · rename_i h
    have hr := holds_of_conflicts h
    refine ⟨Or.inl, ?_⟩
    rintro (h' | h')
    · exact h'
    · exact (holds_congr h').mp hr
  · rw [holds_append]
    simp [Holds]

theorem holds_upsertAll (rows batch : List ρ) (r : ρ) :
    Holds key (upsertAll key rows batch) r ↔ Holds key rows r ∨ Holds key batch r := by
  induction batch generalizing rows with
  | nil => simp [upsertAll, holds_nil]
  | cons b batch ih =>
    have hcons : Holds key (b :: batch) r ↔ identity key b = identity key r ∨ Holds key batch r :=
      by simp [Holds]
    unfold upsertAll at ih ⊢
    rw [List.foldl_cons, ih, holds_upsert, hcons, or_assoc]

theorem upsertAll_append (rows batch batch' : List ρ) :
    upsertAll key rows (batch ++ batch') = upsertAll key (upsertAll key rows batch) batch' :=
  List.foldl_append

theorem conflicts_iff {rows : List ρ} {r : ρ} :
    conflicts key rows r = true ↔ ∃ k, key r = some k ∧ ∃ r' ∈ rows, key r' = some k := by
  unfold conflicts
  cases key r with
  | none => simp
  | some k => simp

theorem mem_upsert {rows : List ρ} {r r' : ρ} :
    r' ∈ upsert key rows r ↔ r' ∈ rows ∨ (r' = r ∧ ¬conflicts key rows r = true) := by
  unfold upsert
  split
  · rename_i h
    simp [h]
  · rename_i h
    simp [h]

theorem mem_of_mem_upsertAll {rows batch : List ρ} {r : ρ} (h : r ∈ upsertAll key rows batch) :
    r ∈ rows ∨ r ∈ batch := by
  induction batch generalizing rows with
  | nil => exact Or.inl h
  | cons b batch ih =>
    rcases ih h with hrows | hbatch
    · rcases mem_upsert.mp hrows with hrows | ⟨rfl, -⟩
      · exact Or.inl hrows
      · exact Or.inr List.mem_cons_self
    · exact Or.inr (List.mem_cons_of_mem b hbatch)

/-- The first row of its identity among those of a batch. -/
def FirstOf (key : ρ → Option κ) (batch : List ρ) (r : ρ) : Prop :=
  ∃ before after, batch = before ++ r :: after ∧ ∀ b ∈ before, identity key b ≠ identity key r

omit [DecidableEq κ] in
theorem firstOf_cons {b r : ρ} {rest : List ρ} :
    FirstOf key (b :: rest) r ↔ r = b ∨ identity key b ≠ identity key r ∧ FirstOf key rest r := by
  constructor
  · rintro ⟨before, after, hbatch, hbefore⟩
    cases before with
    | nil => exact .inl (List.cons.inj hbatch).1.symm
    | cons b' before =>
      obtain ⟨rfl, hrest⟩ := List.cons.inj hbatch
      exact .inr ⟨hbefore b List.mem_cons_self, before, after, hrest,
        fun b' hb' => hbefore b' (List.mem_cons_of_mem b hb')⟩
  · rintro (rfl | ⟨hne, before, after, rfl, hbefore⟩)
    · exact ⟨[], rest, rfl, fun b hb => absurd hb List.not_mem_nil⟩
    · refine ⟨b :: before, after, rfl, fun b' hb' => ?_⟩
      rcases List.mem_cons.mp hb' with rfl | hb'
      · exact hne
      · exact hbefore b' hb'

theorem conflicts_upsert_iff {rows : List ρ} {b r : ρ} :
    conflicts key (upsert key rows b) r = true ↔
      conflicts key rows r = true ∨ ∃ k, key r = some k ∧ key b = some k := by
  simp only [conflicts_iff, mem_upsert]
  constructor
  · rintro ⟨k, hk, r', hr' | ⟨rfl, -⟩, hkey⟩
    · exact .inl ⟨k, hk, r', hr', hkey⟩
    · exact .inr ⟨k, hk, hkey⟩
  · rintro (⟨k, hk, r', hr', hkey⟩ | ⟨k, hk, hkey⟩)
    · exact ⟨k, hk, r', .inl hr', hkey⟩
    · by_cases hfree : ∃ k, key b = some k ∧ ∃ r' ∈ rows, key r' = some k
      · obtain ⟨k', hk', r', hr', hkey'⟩ := hfree
        rw [hkey] at hk'
        cases hk'
        exact ⟨k, hk, r', .inl hr', hkey'⟩
      · exact ⟨k, hk, b, .inr ⟨rfl, hfree⟩, hkey⟩

/-- What a batch adds: of each identity that is not there yet, the first row. -/
theorem mem_upsertAll {rows batch : List ρ} {r : ρ} :
    r ∈ upsertAll key rows batch ↔
      r ∈ rows ∨ conflicts key rows r = false ∧ FirstOf key batch r := by
  induction batch generalizing rows with
  | nil => simp [upsertAll, FirstOf]
  | cons b batch ih =>
    have hnew : conflicts key (upsert key rows b) r = false ↔
        conflicts key rows r = false ∧ ¬∃ k, key r = some k ∧ key b = some k := by
      simp only [← Bool.not_eq_true, conflicts_upsert_iff, not_or]
    rw [show upsertAll key rows (b :: batch) = upsertAll key (upsert key rows b) batch from rfl, ih,
      mem_upsert, hnew, firstOf_cons, or_assoc]
    refine or_congr_right ⟨?_, ?_⟩
    · rintro (⟨rfl, hfree⟩ | ⟨⟨hfree, hshared⟩, hfirst⟩)
      · exact ⟨Bool.eq_false_iff.mpr hfree, .inl rfl⟩
      · refine ⟨hfree, ?_⟩
        by_cases hsame : identity key b = identity key r
        · left
          unfold identity at hsame
          cases hb : key b <;> cases hr : key r <;> simp only [hb, hr] at hsame
          · exact (Sum.inr.inj hsame).symm
          · cases hsame
          · cases hsame
          · exact absurd ⟨_, hr, hb.trans (congrArg some (Sum.inl.inj hsame))⟩ hshared
        · exact .inr ⟨hsame, hfirst⟩
    · rintro ⟨hfree, rfl | ⟨hne, hfirst⟩⟩
      · exact .inl ⟨rfl, Bool.eq_false_iff.mp hfree⟩
      · refine .inr ⟨⟨hfree, ?_⟩, hfirst⟩
        rintro ⟨k, hr, hb⟩
        exact hne (by simp only [identity, hr, hb])

/-- No two rows have one key. -/
theorem pairwise_upsertAll {rows : List ρ}
    (h : rows.Pairwise fun r r' => ∀ k, key r = some k → key r' ≠ some k) (batch : List ρ) :
    (upsertAll key rows batch).Pairwise fun r r' => ∀ k, key r = some k → key r' ≠ some k := by
  induction batch generalizing rows with
  | nil => exact h
  | cons b batch ih =>
    refine ih ?_
    unfold upsert
    split
    · exact h
    · rename_i hfree
      rw [List.pairwise_append]
      refine ⟨h, List.pairwise_singleton _ _, ?_⟩
      intro r hr b' hb' k hk hk'
      obtain rfl := List.mem_singleton.mp hb'
      exact hfree (conflicts_iff.mpr ⟨k, hk', r, hr, hk⟩)

variable (key) in
theorem length_upsertAll_le (rows batch : List ρ) :
    (upsertAll key rows batch).length ≤ rows.length + batch.length := by
  induction batch generalizing rows with
  | nil => exact Nat.le_refl _
  | cons b batch ih =>
    have hone : (upsert key rows b).length ≤ rows.length + 1 := by
      unfold upsert
      split
      · omega
      · rw [List.length_append, List.length_singleton]
    have hrest := ih (upsert key rows b)
    rw [upsertAll, List.foldl_cons]
    rw [upsertAll] at hrest
    rw [List.length_cons]
    omega

variable (key) in
theorem length_le_upsertAll (rows batch : List ρ) :
    rows.length ≤ (upsertAll key rows batch).length := by
  induction batch generalizing rows with
  | nil => exact Nat.le_refl _
  | cons b batch ih =>
    have hone : rows.length ≤ (upsert key rows b).length := by
      unfold upsert
      split
      · omega
      · rw [List.length_append]
        omega
    exact Nat.le_trans hone (ih (upsert key rows b))

/-! Tables that differ on some rows only. -/

/-- Two tables with the same rows, but for rows that some others may have displaced. -/
def AgreeOff (key : ρ → Option κ) (gone rows rows' : List ρ) : Prop :=
  ∀ r, (∀ g ∈ gone, identity key r ≠ identity key g) → (r ∈ rows ↔ r ∈ rows')

omit [DecidableEq κ] in
theorem AgreeOff.refl (gone rows : List ρ) : AgreeOff key gone rows rows := fun _ _ => Iff.rfl

omit [DecidableEq κ] in
theorem AgreeOff.trans {gone rows₁ rows₂ rows₃ : List ρ} (h : AgreeOff key gone rows₁ rows₂)
    (h' : AgreeOff key gone rows₂ rows₃) : AgreeOff key gone rows₁ rows₃ :=
  fun r hr => (h r hr).trans (h' r hr)

/-- The rows displaced themselves make no difference. -/
theorem agreeOff_upsert_gone {gone : List ρ} {g : ρ} (hg : g ∈ gone) (rows : List ρ) :
    AgreeOff key gone (upsert key rows g) rows := by
  intro r hr
  rw [mem_upsert]
  constructor
  · rintro (h | ⟨rfl, -⟩)
    · exact h
    · exact absurd rfl (hr r hg)
  · exact Or.inl

theorem AgreeOff.conflicts {gone rows rows' : List ρ} (h : AgreeOff key gone rows rows') {r : ρ}
    (hr : ∀ g ∈ gone, identity key r ≠ identity key g)
    (hconflicts : conflicts key rows r = true) : conflicts key rows' r = true := by
  rw [conflicts_iff] at hconflicts ⊢
  obtain ⟨k, hk, r', hr', hkey⟩ := hconflicts
  have hsame : identity key r' = identity key r := by simp only [identity, hkey, hk]
  exact ⟨k, hk, r', (h r' (fun g hg => hsame ▸ hr g hg)).mp hr', hkey⟩

omit [DecidableEq κ] in
theorem AgreeOff.symm {gone rows rows' : List ρ} (h : AgreeOff key gone rows rows') :
    AgreeOff key gone rows' rows :=
  fun r hr => (h r hr).symm

theorem AgreeOff.upsert {gone rows rows' : List ρ} (h : AgreeOff key gone rows rows') (b : ρ) :
    AgreeOff key gone (upsert key rows b) (upsert key rows' b) := by
  intro r hr
  rw [mem_upsert, mem_upsert, h r hr]
  refine or_congr_right ⟨?_, ?_⟩
  · rintro ⟨rfl, hfree⟩
    exact ⟨rfl, fun hconflicts => hfree (h.symm.conflicts hr hconflicts)⟩
  · rintro ⟨rfl, hfree⟩
    exact ⟨rfl, fun hconflicts => hfree (h.conflicts hr hconflicts)⟩

theorem AgreeOff.upsertAll {gone rows rows' : List ρ} (h : AgreeOff key gone rows rows')
    (batch : List ρ) :
    AgreeOff key gone (upsertAll key rows batch) (upsertAll key rows' batch) := by
  induction batch generalizing rows rows' with
  | nil => exact h
  | cons b batch ih => exact ih (h.upsert b)

theorem agreeOff_upsertAll_gone {gone : List ρ} (batch : List ρ) (hbatch : batch ⊆ gone)
    (rows : List ρ) : AgreeOff key gone (upsertAll key rows batch) rows := by
  induction batch generalizing rows with
  | nil => exact AgreeOff.refl gone rows
  | cons b batch ih =>
    have hb : b ∈ gone := hbatch List.mem_cons_self
    have hrest : batch ⊆ gone := fun r hr => hbatch (List.mem_cons_of_mem b hr)
    exact (ih hrest (Upserts.upsert key rows b)).trans (agreeOff_upsert_gone hb rows)

/-- Rows that are left out of a run of inserts displace nothing but themselves. -/
theorem agreeOff_of_left_out (rows first gone rest : List ρ) :
    AgreeOff key gone (upsertAll key rows (first ++ gone ++ rest))
      (upsertAll key rows (first ++ rest)) := by
  rw [upsertAll_append, upsertAll_append, upsertAll_append]
  exact (agreeOff_upsertAll_gone gone (fun _ h => h) _).upsertAll rest

end Tables

/-! Pages. -/

section Pages

variable {α β : Type*}

/-- The rows of the full pages. -/
def written (page : ℕ) (rows : List α) : List α := rows.take (rows.length / page * page)

/-- The rows of the page that is not full. -/
def pending (page : ℕ) (rows : List α) : List α := rows.drop (rows.length / page * page)

theorem written_append_pending (page : ℕ) (rows : List α) :
    written page rows ++ pending page rows = rows :=
  List.take_append_drop _ _

theorem length_pending (page : ℕ) (rows : List α) :
    (pending page rows).length = rows.length % page := by
  have h := Nat.div_add_mod' rows.length page
  rw [pending, List.length_drop]
  omega

theorem map_written (page : ℕ) (rows : List α) (f : α → β) :
    (written page rows).map f = written page (rows.map f) := by
  rw [written, written, List.map_take, List.length_map]

/-- A row that does not fill its page waits. -/
theorem pages_of_lt {page : ℕ} {rows : List α} (r : α)
    (h : (pending page rows).length + 1 < page) :
    written page (rows ++ [r]) = written page rows ∧
      pending page (rows ++ [r]) = pending page rows ++ [r] := by
  rw [length_pending] at h
  have hle : rows.length / page * page ≤ rows.length := Nat.div_mul_le_self _ _
  have hdiv : (rows.length + 1) / page = rows.length / page := by
    have h₁ := Nat.div_add_mod rows.length page
    refine Nat.div_eq_of_lt_le ?_ ?_
    · rw [Nat.mul_comm]
      omega
    · rw [Nat.succ_mul, Nat.mul_comm]
      omega
  have hlen : (rows ++ [r]).length / page * page = rows.length / page * page := by
    rw [List.length_append, List.length_singleton, hdiv]
  unfold written pending
  rw [hlen]
  exact ⟨List.take_append_of_le_length hle, List.drop_append_of_le_length hle⟩

/-- A row that fills its page is written with it. -/
theorem pages_of_full {page : ℕ} {rows : List α} (r : α)
    (h : (pending page rows).length + 1 = page) :
    written page (rows ++ [r]) = written page rows ++ (pending page rows ++ [r]) ∧
      pending page (rows ++ [r]) = [] := by
  rw [length_pending] at h
  have hall : (rows ++ [r]).length / page * page = (rows ++ [r]).length := by
    refine Nat.div_mul_cancel ?_
    have hdvd : page ∣ rows.length - rows.length % page := Nat.dvd_sub_mod _
    have hmod := Nat.mod_le rows.length page
    have hsum : rows.length + 1 = (rows.length - rows.length % page) + page := by omega
    rw [List.length_append, List.length_singleton, hsum]
    exact Nat.dvd_add hdvd (Nat.dvd_refl page)
  refine ⟨?_, ?_⟩
  · rw [← List.append_assoc, written_append_pending]
    unfold written
    rw [hall, List.take_length]
  · unfold pending
    rw [hall, List.drop_length]

end Pages

end Raglogs.Upserts

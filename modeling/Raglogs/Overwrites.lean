import Mathlib.Data.List.Nodup
import Mathlib.Tactic.Common

/-!
Tables written by an insert that overwrites on a conflict, over arbitrary rows. Rows have an
identity and a key, both unique. A new row with a key that is taken changes the row that has
it, which stays the same row under the same key; a statement that writes one key twice, or an
identity that is taken, is refused as a whole.
-/

namespace Raglogs.Overwrites

variable {ρ ι κ : Type*}

/-- Rows with an identity and a key, and what a conflict makes of the row that is there. -/
structure Schema (ρ ι κ : Type*) where
  id : ρ → ι
  key : ρ → κ
  overwrite : ρ → ρ → ρ
  id_overwrite : ∀ old new, id (overwrite old new) = id old
  key_overwrite : ∀ old new, key (overwrite old new) = key old

structure Rows (s : Schema ρ ι κ) where
  rows : List ρ
  ids_nodup : (rows.map s.id).Nodup
  keys_nodup : (rows.map s.key).Nodup

variable {s : Schema ρ ι κ}

/-- There is one row for each key. -/
theorem Rows.eq_of_key {t : Rows s} {a b : ρ} (ha : a ∈ t.rows) (hb : b ∈ t.rows)
    (h : s.key a = s.key b) : a = b :=
  List.inj_on_of_nodup_map t.keys_nodup ha hb h

theorem Rows.eq_of_id {t : Rows s} {a b : ρ} (ha : a ∈ t.rows) (hb : b ∈ t.rows)
    (h : s.id a = s.id b) : a = b :=
  List.inj_on_of_nodup_map t.ids_nodup ha hb h

variable [DecidableEq ι] [DecidableEq κ]

/-- Change the row with the key of the new one. -/
def Rows.replace (t : Rows s) (new : ρ) : Rows s where
  rows := t.rows.map fun old => if s.key old = s.key new then s.overwrite old new else old
  ids_nodup := by
    rw [List.map_map]
    refine (congrArg List.Nodup (List.map_congr_left fun old _ => ?_)).mpr t.ids_nodup
    rw [Function.comp_apply]
    split
    · exact s.id_overwrite old new
    · rfl
  keys_nodup := by
    rw [List.map_map]
    refine (congrArg List.Nodup (List.map_congr_left fun old _ => ?_)).mpr t.keys_nodup
    rw [Function.comp_apply]
    split
    · exact s.key_overwrite old new
    · rfl

/-- Write one row. -/
def Rows.upsert (t : Rows s) (new : ρ) : Option (Rows s) :=
  if hkey : s.key new ∈ t.rows.map s.key then some (t.replace new)
  else if hid : s.id new ∈ t.rows.map s.id then none
  else some
    { rows := t.rows ++ [new]
      ids_nodup := by
        rw [List.map_append, List.map_singleton]
        exact List.nodup_append.mpr ⟨t.ids_nodup, List.nodup_singleton _,
          fun a ha b hb hab => hid (List.mem_singleton.mp hb ▸ hab ▸ ha)⟩
      keys_nodup := by
        rw [List.map_append, List.map_singleton]
        exact List.nodup_append.mpr ⟨t.keys_nodup, List.nodup_singleton _,
          fun a ha b hb hab => hkey (List.mem_singleton.mp hb ▸ hab ▸ ha)⟩ }

/-- Write all rows of one statement, or none of them. -/
def Rows.upsertAll (t : Rows s) (batch : List ρ) : Option (Rows s) :=
  if (batch.map s.key).Nodup then batch.foldlM Rows.upsert t else none

/-- What one write does: rows under other keys stay, and the row under this key is the new
one, or an old one overwritten. -/
theorem mem_upsert {t t' : Rows s} {new : ρ} (h : t.upsert new = some t') {r : ρ} :
    r ∈ t'.rows ↔ (r ∈ t.rows ∧ s.key r ≠ s.key new) ∨
      (∃ old ∈ t.rows, s.key old = s.key new ∧ r = s.overwrite old new) ∨
      (s.key new ∉ t.rows.map s.key ∧ r = new) := by
  rw [Rows.upsert] at h
  split at h
  · rename_i hkey
    obtain rfl := Option.some.inj h
    rw [Rows.replace, List.mem_map]
    constructor
    · rintro ⟨old, hold, rfl⟩
      split
      · rename_i heq
        exact .inr (.inl ⟨old, hold, heq, rfl⟩)
      · rename_i hne
        exact .inl ⟨hold, hne⟩
    · rintro (⟨hr, hne⟩ | ⟨old, hold, heq, rfl⟩ | ⟨hno, -⟩)
      · exact ⟨r, hr, if_neg hne⟩
      · exact ⟨old, hold, if_pos heq⟩
      · exact absurd hkey hno
  · rename_i hkey
    split at h
    · cases h
    · obtain rfl := Option.some.inj h
      have hother : ∀ old ∈ t.rows, s.key old ≠ s.key new := fun old hold heq =>
        hkey (heq ▸ List.mem_map_of_mem hold)
      rw [List.mem_append, List.mem_singleton]
      constructor
      · rintro (hr | rfl)
        · exact .inl ⟨hr, hother r hr⟩
        · exact .inr (.inr ⟨hkey, rfl⟩)
      · rintro (⟨hr, -⟩ | ⟨old, hold, heq, -⟩ | ⟨-, rfl⟩)
        · exact .inl hr
        · exact absurd heq (hother old hold)
        · exact .inr rfl

/-- Rows under other keys survive a statement. -/
theorem mem_foldlM_of_notMem {t t' : Rows s} {batch : List ρ}
    (h : batch.foldlM Rows.upsert t = some t') {r : ρ} (hr : r ∈ t.rows)
    (hkey : s.key r ∉ batch.map s.key) : r ∈ t'.rows := by
  induction batch generalizing t with
  | nil =>
    obtain rfl := Option.some.inj h
    exact hr
  | cons new batch ih =>
    rw [List.map_cons, List.mem_cons, not_or] at hkey
    rw [List.foldlM_cons] at h
    obtain ⟨t₁, hone, hrest⟩ := Option.bind_eq_some_iff.mp h
    exact ih hrest ((mem_upsert hone).mpr (.inl ⟨hr, hkey.1⟩)) hkey.2

/-- The row under the key of a written one is that one, or the old row overwritten by it. -/
def WrittenBy (t t' : Rows s) (new : ρ) : Prop :=
  ∃ r ∈ t'.rows, s.key r = s.key new ∧
    (r = new ∨ ∃ old ∈ t.rows, s.key old = s.key new ∧ r = s.overwrite old new)

theorem writtenBy_foldlM {t t' : Rows s} {batch : List ρ}
    (hnodup : (batch.map s.key).Nodup) (h : batch.foldlM Rows.upsert t = some t') {new : ρ}
    (hnew : new ∈ batch) : WrittenBy t t' new := by
  induction batch generalizing t with
  | nil => exact absurd hnew List.not_mem_nil
  | cons first batch ih =>
    rw [List.map_cons, List.nodup_cons] at hnodup
    rw [List.foldlM_cons] at h
    obtain ⟨t₁, hone, hrest⟩ := Option.bind_eq_some_iff.mp h
    rcases List.mem_cons.mp hnew with rfl | hnew
    · by_cases htaken : s.key new ∈ t.rows.map s.key
      · obtain ⟨old, hold, heq⟩ := List.mem_map.mp htaken
        have hkey := (s.key_overwrite old new).trans heq
        have hmem := (mem_upsert hone).mpr (.inr (.inl ⟨old, hold, heq, rfl⟩))
        exact ⟨_, mem_foldlM_of_notMem hrest hmem (hkey ▸ hnodup.1), hkey,
          .inr ⟨old, hold, heq, rfl⟩⟩
      · have hmem := (mem_upsert hone).mpr (.inr (.inr ⟨htaken, rfl⟩))
        exact ⟨new, mem_foldlM_of_notMem hrest hmem hnodup.1, rfl, .inl rfl⟩
    · obtain ⟨r, hr, hkey, hwritten⟩ := ih hnodup.2 hrest hnew
      refine ⟨r, hr, hkey, hwritten.imp_right ?_⟩
      rintro ⟨old, hold, heq, rfl⟩
      have hne : s.key new ≠ s.key first := fun hsame =>
        hnodup.1 (hsame ▸ List.mem_map_of_mem hnew)
      rcases (mem_upsert hone).mp hold with ⟨hold, -⟩ | ⟨old', -, heq', rfl⟩ | ⟨-, rfl⟩
      · exact ⟨old, hold, heq, rfl⟩
      · exact absurd (heq.symm.trans ((s.key_overwrite old' first).trans heq')) hne
      · exact absurd heq.symm hne

theorem upsertAll_eq_some {t t' : Rows s} {batch : List ρ} (h : t.upsertAll batch = some t') :
    (batch.map s.key).Nodup ∧ batch.foldlM Rows.upsert t = some t' := by
  rw [Rows.upsertAll] at h
  split at h
  · rename_i hnodup
    exact ⟨hnodup, h⟩
  · cases h

theorem writtenBy_upsertAll {t t' : Rows s} {batch : List ρ} (h : t.upsertAll batch = some t')
    {new : ρ} (hnew : new ∈ batch) : WrittenBy t t' new :=
  writtenBy_foldlM (upsertAll_eq_some h).1 (upsertAll_eq_some h).2 hnew

/-- What is under a key after a statement that did not write it. -/
theorem mem_upsertAll_of_notMem {t t' : Rows s} {batch : List ρ}
    (h : t.upsertAll batch = some t') {r : ρ} (hr : r ∈ t.rows)
    (hkey : s.key r ∉ batch.map s.key) : r ∈ t'.rows :=
  mem_foldlM_of_notMem (upsertAll_eq_some h).2 hr hkey

/-! What is written to a part of a table depends on that part only. -/

section Parts

variable {mine : ρ → Bool} {drawn : ι → Prop}

/-- Two tables with one part in common; the other rows have none of the drawn identities. -/
structure SamePart (mine : ρ → Bool) (drawn : ι → Prop) (t t' : Rows s) : Prop where
  part : t.rows.filter mine = t'.rows.filter mine
  undrawn : ∀ r ∈ t.rows, mine r = false → ¬drawn (s.id r)
  undrawn' : ∀ r ∈ t'.rows, mine r = false → ¬drawn (s.id r)

omit [DecidableEq ι] [DecidableEq κ] in
theorem key_mem_part (hmine : ∀ a b, s.key a = s.key b → mine a = mine b) {t : Rows s} {new : ρ}
    (hnew : mine new = true) :
    s.key new ∈ t.rows.map s.key ↔ s.key new ∈ (t.rows.filter mine).map s.key := by
  simp only [List.mem_map, List.mem_filter]
  constructor
  · rintro ⟨r, hr, hkey⟩
    exact ⟨r, ⟨hr, (hmine r new hkey).trans hnew⟩, hkey⟩
  · rintro ⟨r, ⟨hr, -⟩, hkey⟩
    exact ⟨r, hr, hkey⟩

omit [DecidableEq ι] [DecidableEq κ] in
theorem id_mem_part {t : Rows s} (h : ∀ r ∈ t.rows, mine r = false → ¬drawn (s.id r)) {new : ρ}
    (hid : drawn (s.id new)) :
    s.id new ∈ t.rows.map s.id ↔ s.id new ∈ (t.rows.filter mine).map s.id := by
  simp only [List.mem_map, List.mem_filter]
  constructor
  · rintro ⟨r, hr, heq⟩
    refine ⟨r, ⟨hr, ?_⟩, heq⟩
    by_contra hother
    exact h r hr (Bool.eq_false_iff.mpr hother) (heq ▸ hid)
  · rintro ⟨r, ⟨hr, -⟩, heq⟩
    exact ⟨r, hr, heq⟩

omit [DecidableEq ι] in
theorem filter_replace (hmine : ∀ a b, s.key a = s.key b → mine a = mine b) (t : Rows s)
    (new : ρ) : (t.replace new).rows.filter mine = (t.rows.filter mine).map fun old =>
      if s.key old = s.key new then s.overwrite old new else old := by
  rw [Rows.replace, List.filter_map]
  congr 1
  refine List.filter_congr fun old _ => ?_
  rw [Function.comp_apply]
  split
  · exact hmine _ _ (s.key_overwrite old new)
  · rfl

theorem undrawn_upsert (hmine : ∀ a b, s.key a = s.key b → mine a = mine b) {t u : Rows s}
    {new : ρ} (hnew : mine new = true) (hu : t.upsert new = some u)
    (h : ∀ r ∈ t.rows, mine r = false → ¬drawn (s.id r)) :
    ∀ r ∈ u.rows, mine r = false → ¬drawn (s.id r) := by
  intro r hr hother
  rcases (mem_upsert hu).mp hr with ⟨hold, -⟩ | ⟨old, -, hkey, rfl⟩ | ⟨-, rfl⟩
  · exact h r hold hother
  · rw [hmine _ _ ((s.key_overwrite old new).trans hkey), hnew] at hother
    cases hother
  · rw [hnew] at hother
    cases hother

/-- One write into the part has the same outcome in both tables. -/
theorem samePart_upsert (hmine : ∀ a b, s.key a = s.key b → mine a = mine b) {t t' : Rows s}
    (h : SamePart mine drawn t t') {new : ρ} (hnew : mine new = true) (hid : drawn (s.id new)) :
    Option.Rel (SamePart mine drawn) (t.upsert new) (t'.upsert new) := by
  have hkeys : s.key new ∈ t.rows.map s.key ↔ s.key new ∈ t'.rows.map s.key := by
    rw [key_mem_part hmine hnew, key_mem_part hmine hnew, h.part]
  have hids : s.id new ∈ t.rows.map s.id ↔ s.id new ∈ t'.rows.map s.id := by
    rw [id_mem_part h.undrawn hid, id_mem_part h.undrawn' hid, h.part]
  have hundrawn := fun u hu => undrawn_upsert hmine hnew (u := u) hu h.undrawn
  have hundrawn' := fun u hu => undrawn_upsert hmine hnew (u := u) hu h.undrawn'
  rw [Rows.upsert] at hundrawn ⊢
  rw [Rows.upsert] at hundrawn' ⊢
  by_cases hkey : s.key new ∈ t.rows.map s.key
  · simp only [dif_pos hkey, dif_pos (hkeys.mp hkey)] at hundrawn hundrawn' ⊢
    refine .some ⟨?_, hundrawn _ rfl, hundrawn' _ rfl⟩
    rw [filter_replace hmine, filter_replace hmine, h.part]
  · simp only [dif_neg hkey, dif_neg (mt hkeys.mpr hkey)] at hundrawn hundrawn' ⊢
    by_cases htaken : s.id new ∈ t.rows.map s.id
    · simp only [dif_pos htaken, dif_pos (hids.mp htaken)]
      exact .none
    · simp only [dif_neg htaken, dif_neg (mt hids.mpr htaken)] at hundrawn hundrawn' ⊢
      refine .some ⟨?_, hundrawn _ rfl, hundrawn' _ rfl⟩
      rw [List.filter_append, List.filter_append, h.part]

/-- A statement that writes into the part has the same outcome in both tables. -/
theorem samePart_upsertAll (hmine : ∀ a b, s.key a = s.key b → mine a = mine b) {t t' : Rows s}
    (h : SamePart mine drawn t t') {batch : List ρ} (hbatch : ∀ new ∈ batch, mine new = true)
    (hids : ∀ new ∈ batch, drawn (s.id new)) :
    Option.Rel (SamePart mine drawn) (t.upsertAll batch) (t'.upsertAll batch) := by
  rw [Rows.upsertAll, Rows.upsertAll]
  split
  · rename_i hnodup
    clear hnodup
    induction batch generalizing t t' with
    | nil => exact .some h
    | cons new batch ih =>
      rw [List.forall_mem_cons] at hbatch hids
      rw [List.foldlM_cons, List.foldlM_cons]
      have hstep := samePart_upsert hmine h hbatch.1 hids.1
      generalize t.upsert new = u at hstep
      generalize t'.upsert new = u' at hstep
      cases hstep with
      | some hsame => exact ih hsame hbatch.2 hids.2
      | none => exact .none
  · exact .none

end Parts

end Raglogs.Overwrites

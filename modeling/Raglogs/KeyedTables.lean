import Raglogs.Collections

/-!
Tables under a primary key, over arbitrary rows and keys. Rows are deleted by their own
key or by one that they refer to. A bounded chunk of the rows that are due is selected
in some order; deleting it reaps that many due rows and no other row, however the
order was chosen, and chunks add up.
-/

namespace Raglogs.KeyedTables

open Collections

/-- Rows that no two of them share the key of. -/
@[ext]
structure Table {α ι : Type*} (key : α → ι) where
  rows : List α
  keys_nodup : (rows.map key).Nodup

variable {α ι β κ : Type*} {key : α → ι}

namespace Table

def empty : Table key := ⟨[], List.nodup_nil⟩

def keys (t : Table key) : List ι := t.rows.map key

def size (t : Table key) : ℕ := t.rows.length

/-- The rows that a condition holds of. -/
def restrict (p : α → Bool) (t : Table key) : Table key :=
  ⟨t.rows.filter p, t.keys_nodup.sublist (List.filter_sublist.map key)⟩

/-- How many rows a condition holds of. -/
def count (p : α → Bool) (t : Table key) : ℕ := t.rows.countP p

/-- Delete the rows that refer to one of the keys. -/
def deleteBy [DecidableEq β] (ref : α → β) (gone : List β) (t : Table key) : Table key :=
  t.restrict (fun r => !gone.contains (ref r))

/-- The keys of the first rows that are due, in some order. -/
def select [LinearOrder κ] (due : α → Bool) (order : α → κ) (limit : ℕ) (t : Table key) : List ι :=
  ((sortOn order (t.rows.filter due)).take limit).map key

/-- How many pairs a join on a key gives when a condition is asked of the joined rows. -/
def countJoined [DecidableEq ι] {γ μ : Type*} {key' : γ → μ} (ref : γ → ι) (p : α → Bool)
    (t : Table key) (children : Table key') : ℕ :=
  (children.rows.flatMap (fun c => t.rows.filter (fun a => key a == ref c && p a))).length

theorem eq_of_key {t : Table key} {a b : α} (ha : a ∈ t.rows) (hb : b ∈ t.rows)
    (h : key a = key b) : a = b :=
  List.inj_on_of_nodup_map t.keys_nodup ha hb h

@[simp]
theorem rows_restrict (p : α → Bool) (t : Table key) : (t.restrict p).rows = t.rows.filter p := rfl

theorem mem_restrict {p : α → Bool} {t : Table key} {a : α} :
    a ∈ (t.restrict p).rows ↔ a ∈ t.rows ∧ p a :=
  List.mem_filter

theorem restrict_restrict (p q : α → Bool) (t : Table key) :
    (t.restrict p).restrict q = (t.restrict q).restrict p :=
  Table.ext (List.filter_comm q p t.rows)

theorem restrict_and (p q : α → Bool) (t : Table key) :
    (t.restrict p).restrict q = t.restrict (fun a => p a && q a) := by
  refine Table.ext ?_
  rw [rows_restrict, rows_restrict, List.filter_filter]
  exact List.filter_congr (fun a _ => Bool.and_comm _ _)

theorem restrict_congr {p q : α → Bool} {t : Table key} (h : ∀ a ∈ t.rows, p a = q a) :
    t.restrict p = t.restrict q :=
  Table.ext (List.filter_congr h)

theorem restrict_of_all {p : α → Bool} {t : Table key} (h : ∀ a ∈ t.rows, p a) :
    t.restrict p = t :=
  Table.ext (List.filter_eq_self.mpr h)

theorem restrict_of_imp {p q : α → Bool} (h : ∀ a, p a → q a) (t : Table key) :
    (t.restrict q).restrict p = t.restrict p := by
  rw [restrict_and]
  refine restrict_congr (fun a _ => ?_)
  cases hp : p a with
  | false => rw [Bool.and_false]
  | true => rw [h a hp, Bool.and_true]

theorem keys_restrict_mono {p q : α → Bool} (h : ∀ a, p a → q a) {t : Table key} {i : ι}
    (hi : i ∈ (t.restrict p).keys) : i ∈ (t.restrict q).keys := by
  obtain ⟨a, ha, rfl⟩ := List.mem_map.mp hi
  obtain ⟨hmem, hp⟩ := mem_restrict.mp ha
  exact List.mem_map_of_mem (mem_restrict.mpr ⟨hmem, h a hp⟩)

theorem count_eq_zero {p : α → Bool} {t : Table key} : t.count p = 0 ↔ ∀ a ∈ t.rows, ¬ p a :=
  List.countP_eq_zero

theorem count_congr {p q : α → Bool} {t : Table key} (h : ∀ a ∈ t.rows, p a = q a) :
    t.count p = t.count q :=
  List.countP_congr (fun a ha => by rw [h a ha])

/-- The rows in which a condition fails and those in which it holds make up the table. -/
theorem size_restrict_not (p : α → Bool) (t : Table key) :
    (t.restrict (fun a => !p a)).size + t.count p = t.size := by
  have h := t.rows.length_eq_countP_add_countP p
  have hnot : t.rows.countP (fun a => ¬ p a) = (t.rows.filter (fun a => !p a)).length := by
    rw [List.countP_eq_length_filter]
    exact congrArg List.length (List.filter_congr (fun a _ => by simp))
  simp only [size, count, rows_restrict]
  omega

theorem count_restrict_of_imp {p q : α → Bool} (h : ∀ a, p a → q a) (t : Table key) :
    (t.restrict q).count p = t.count p := by
  rw [count, count, rows_restrict, List.countP_filter]
  refine List.countP_congr (fun a _ => ?_)
  simp only [Bool.and_eq_true]
  exact ⟨fun hp => hp.1, fun hp => ⟨hp, h a hp⟩⟩

section Delete

variable [DecidableEq β] {ref : α → β} {gone : List β} {t : Table key}

theorem mem_deleteBy {a : α} : a ∈ (t.deleteBy ref gone).rows ↔ a ∈ t.rows ∧ ref a ∉ gone := by
  rw [deleteBy, mem_restrict]
  simp

/-- A row refers to a deleted key or it stays. -/
theorem size_deleteBy (ref : α → β) (gone : List β) (t : Table key) :
    (t.deleteBy ref gone).size + t.count (fun a => gone.contains (ref a)) = t.size :=
  size_restrict_not _ t

theorem deleteBy_nil (ref : α → β) (t : Table key) : t.deleteBy ref [] = t :=
  restrict_of_all (fun _ _ => rfl)

theorem deleteBy_restrict (ref : α → β) (gone : List β) (p : α → Bool) (t : Table key) :
    (t.restrict p).deleteBy ref gone = (t.deleteBy ref gone).restrict p :=
  restrict_restrict p _ t

theorem mem_keys_deleteBy [DecidableEq ι] {l : List ι} {t : Table key} {i : ι} :
    i ∈ (t.deleteBy key l).keys ↔ i ∈ t.keys ∧ i ∉ l := by
  constructor
  · intro hi
    obtain ⟨a, ha, rfl⟩ := List.mem_map.mp hi
    obtain ⟨hmem, hnot⟩ := mem_deleteBy.mp ha
    exact ⟨List.mem_map_of_mem hmem, hnot⟩
  · rintro ⟨hi, hnot⟩
    obtain ⟨a, ha, rfl⟩ := List.mem_map.mp hi
    exact List.mem_map_of_mem (mem_deleteBy.mpr ⟨ha, hnot⟩)

/-- Nothing is deleted when no row refers to one of the keys. -/
theorem deleteBy_of_none (h : ∀ a ∈ t.rows, ref a ∉ gone) : t.deleteBy ref gone = t :=
  restrict_of_all (fun a ha => by simpa using h a ha)

/-- Rows that refer to some rows of another table are cut down alike, before a delete that
goes through both tables and after it. -/
theorem cascade_restrict {γ : Type*} [DecidableEq ι] {key' : γ → ι} (l : List ι) (p : γ → Bool)
    (parents : Table key') (ref : α → ι) (t : Table key) :
    (t.deleteBy ref l).restrict
        (fun a => ((parents.deleteBy key' l).restrict p).keys.contains (ref a)) =
      (t.restrict (fun a => (parents.restrict p).keys.contains (ref a))).deleteBy ref l := by
  rw [deleteBy_restrict, ← deleteBy_restrict key' l p parents]
  refine Table.ext (List.filter_congr (fun a ha => ?_))
  have hnot := (mem_deleteBy.mp ha).2
  rw [Bool.eq_iff_iff, List.contains_iff_mem, List.contains_iff_mem, mem_keys_deleteBy]
  exact ⟨fun h => h.1, fun h => ⟨h, hnot⟩⟩

end Delete

/-- A row joins with one row at most, so a join counts the rows that find a partner. -/
theorem countJoined_eq [DecidableEq ι] {γ μ : Type*} {key' : γ → μ} (ref : γ → ι) (p : α → Bool)
    (t : Table key) (children : Table key') :
    t.countJoined ref p children =
      children.count (fun c => t.rows.any (fun a => key a == ref c && p a)) := by
  have hone : ∀ c : γ, (t.rows.filter (fun a => key a == ref c && p a)).length =
      if t.rows.any (fun a => key a == ref c && p a) then 1 else 0 := by
    intro c
    have hsame : (t.rows.filter (fun a => key a == ref c && p a)).map key =
        List.replicate (t.rows.filter (fun a => key a == ref c && p a)).length (ref c) := by
      refine List.eq_replicate_iff.mpr ⟨List.length_map _, fun i hi => ?_⟩
      obtain ⟨a, ha, rfl⟩ := List.mem_map.mp hi
      have hboth := (List.mem_filter.mp ha).2
      simp only [Bool.and_eq_true, beq_iff_eq] at hboth
      exact hboth.1
    have hle : (t.rows.filter (fun a => key a == ref c && p a)).length ≤ 1 := by
      rw [← List.nodup_replicate, ← hsame]
      exact t.keys_nodup.sublist (List.filter_sublist.map key)
    split
    · rename_i hany
      obtain ⟨a, ha, hp⟩ := List.any_eq_true.mp hany
      have hmem : a ∈ t.rows.filter (fun a => key a == ref c && p a) := List.mem_filter.mpr ⟨ha, hp⟩
      have hpos := List.length_pos_of_mem hmem
      omega
    · rename_i hany
      rw [List.length_eq_zero_iff, List.filter_eq_nil_iff]
      intro a ha hp
      exact hany (List.any_eq_true.mpr ⟨a, ha, hp⟩)
  rw [countJoined, count]
  induction children.rows with
  | nil => rfl
  | cons c rest ih =>
    rw [List.flatMap_cons, List.length_append, ih, hone, List.countP_cons, Nat.add_comm]

/-- Each key of the table that a list names is the key of one row. -/
theorem count_contains [DecidableEq ι] {l : List ι} {t : Table key} (hl : l.Nodup)
    (hmem : ∀ i ∈ l, i ∈ t.keys) : t.count (fun a => l.contains (key a)) = l.length := by
  have hnodup : ((t.rows.filter (fun a => l.contains (key a))).map key).Nodup :=
    t.keys_nodup.sublist (List.filter_sublist.map key)
  have hperm : ((t.rows.filter (fun a => l.contains (key a))).map key).Perm l := by
    refine (List.perm_ext_iff_of_nodup hnodup hl).mpr (fun i => ⟨fun hi => ?_, fun hi => ?_⟩)
    · obtain ⟨a, ha, rfl⟩ := List.mem_map.mp hi
      simpa using (List.mem_filter.mp ha).2
    · obtain ⟨a, ha, rfl⟩ := List.mem_map.mp (hmem i hi)
      exact List.mem_map_of_mem (List.mem_filter.mpr ⟨ha, by simpa using hi⟩)
  rw [count, List.countP_eq_length_filter, ← hperm.length_eq, List.length_map]

section Select

variable [LinearOrder κ] {due : α → Bool} {order : α → κ} {limit : ℕ} {t : Table key}

theorem length_select (due : α → Bool) (order : α → κ) (limit : ℕ) (t : Table key) :
    (t.select due order limit).length = min limit (t.count due) := by
  rw [select, List.length_map, List.length_take, length_sortOn, count,
    List.countP_eq_length_filter]

theorem nodup_select : (t.select due order limit).Nodup := by
  have hsub : (t.rows.filter due).map key |>.Nodup :=
    t.keys_nodup.sublist (List.filter_sublist.map key)
  have hsorted : ((sortOn order (t.rows.filter due)).map key).Nodup :=
    ((sortOn_perm order _).map key).nodup_iff.mpr hsub
  exact hsorted.sublist ((List.take_sublist _ _).map key)

theorem mem_select {i : ι} (h : i ∈ t.select due order limit) :
    ∃ a ∈ t.rows, due a ∧ key a = i := by
  obtain ⟨a, ha, hkey⟩ := List.mem_map.mp h
  obtain ⟨hmem, hdue⟩ := List.mem_filter.mp ((mem_sortOn order).mp (List.mem_of_mem_take ha))
  exact ⟨a, hmem, hdue, hkey⟩

/-- A selection sees the due rows only. -/
theorem select_restrict {p : α → Bool} (h : ∀ a, due a → p a) (order : α → κ) (limit : ℕ)
    (t : Table key) : (t.restrict p).select due order limit = t.select due order limit := by
  have hrows : (t.rows.filter p).filter due = t.rows.filter due := by
    rw [List.filter_filter]
    refine List.filter_congr (fun a _ => ?_)
    cases hdue : due a with
    | false => simp
    | true => simp [h a hdue]
  rw [select, select, rows_restrict, hrows]

end Select

/-! One row. -/

section Row

variable [DecidableEq ι]

/-- The row of a key. -/
def find (t : Table key) (i : ι) : Option α := t.rows.find? fun a => key a = i

theorem find_eq_some {t : Table key} {i : ι} {a : α} :
    t.find i = some a ↔ a ∈ t.rows ∧ key a = i := by
  constructor
  · intro h
    exact ⟨List.mem_of_find?_eq_some h, of_decide_eq_true (List.find?_some h :)⟩
  · rintro ⟨ha, rfl⟩
    cases h : t.find (key a) with
    | none => exact absurd (List.find?_eq_none.mp h a ha) (by simp)
    | some b =>
      have hb : key b = key a := of_decide_eq_true (List.find?_some h :)
      rw [eq_of_key (List.mem_of_find?_eq_some h) ha hb]

omit [DecidableEq ι] in
theorem keys_nodup_concat {a : α} {t : Table key} (h : key a ∉ t.keys) :
    ((t.rows ++ [a]).map key).Nodup := by
  rw [List.map_append, List.map_singleton, ← List.concat_eq_append]
  exact t.keys_nodup.concat h

/-- Insert a row, unless its key is taken. -/
def insert (a : α) (t : Table key) : Option (Table key) :=
  if h : key a ∈ t.keys then none else some ⟨t.rows ++ [a], keys_nodup_concat h⟩

theorem insert_eq_some {a : α} {t t' : Table key} :
    t.insert a = some t' ↔ key a ∉ t.keys ∧ t'.rows = t.rows ++ [a] := by
  unfold insert
  split
  · rename_i h
    simp [h]
  · rename_i h
    rw [Option.some.injEq, Table.ext_iff]
    exact ⟨fun hrows => ⟨h, hrows.symm⟩, fun hrows => hrows.2.symm⟩

theorem exists_insert {a : α} {t : Table key} (h : key a ∉ t.keys) : ∃ t', t.insert a = some t' :=
  ⟨_, dif_neg h⟩

/-- A change of rows that leaves them their keys. -/
structure Change (key : α → ι) where
  change : α → α
  key_change : ∀ a, key (change a) = key a

/-- A row after the row of a key has changed. -/
def Change.at (c : Change key) (i : ι) (a : α) : α := if key a = i then c.change a else a

theorem Change.key_at (c : Change key) (i : ι) (a : α) : key (c.at i a) = key a := by
  unfold Change.at
  split
  · exact c.key_change a
  · rfl

theorem keys_map_at (c : Change key) (i : ι) (t : Table key) :
    (t.rows.map (c.at i)).map key = t.keys := by
  rw [List.map_map]
  exact List.map_congr_left fun a _ => c.key_at i a

/-- Change the row of a key. -/
def modify (c : Change key) (i : ι) (t : Table key) : Table key :=
  ⟨t.rows.map (c.at i), (keys_map_at c i t).symm ▸ t.keys_nodup⟩

@[simp]
theorem rows_modify (c : Change key) (i : ι) (t : Table key) :
    (t.modify c i).rows = t.rows.map (c.at i) := rfl

theorem find_modify (c : Change key) (i j : ι) (t : Table key) :
    (t.modify c i).find j = (t.find j).map (c.at i) := by
  ext a
  rw [find_eq_some, rows_modify, List.mem_map, Option.map_eq_some_iff]
  constructor
  · rintro ⟨⟨b, hb, rfl⟩, hkey⟩
    exact ⟨b, find_eq_some.mpr ⟨hb, (c.key_at i b).symm.trans hkey⟩, rfl⟩
  · rintro ⟨b, hb, rfl⟩
    obtain ⟨hb, hkey⟩ := find_eq_some.mp hb
    exact ⟨⟨b, hb, rfl⟩, (c.key_at i b).trans hkey⟩

theorem find_modify_self (c : Change key) (i : ι) (t : Table key) :
    (t.modify c i).find i = (t.find i).map c.change := by
  rw [find_modify]
  refine Option.map_congr fun a ha => ?_
  exact if_pos (find_eq_some.mp ha).2

theorem find_modify_of_ne (c : Change key) {i j : ι} (h : i ≠ j) (t : Table key) :
    (t.modify c i).find j = t.find j := by
  rw [find_modify]
  refine (Option.map_congr fun a ha => ?_).trans (Option.map_id_apply)
  have hne : key a ≠ i := (find_eq_some.mp ha).2.symm ▸ h.symm
  exact if_neg hne

/-- There is no row to change. -/
theorem modify_of_find_eq_none (c : Change key) {i : ι} {t : Table key} (h : t.find i = none) :
    t.modify c i = t := by
  refine Table.ext ?_
  rw [rows_modify]
  refine (List.map_congr_left fun a ha => ?_).trans (List.map_id _)
  have hne : key a ≠ i := of_decide_eq_false (by simpa using List.find?_eq_none.mp h a ha)
  exact if_neg hne

theorem find_of_insert {a : α} {t t' : Table key} (h : t.insert a = some t') (i : ι) :
    t'.find i = if key a = i then some a else t.find i := by
  obtain ⟨hfresh, hrows⟩ := insert_eq_some.mp h
  ext b
  rw [find_eq_some, hrows, List.mem_append, List.mem_singleton]
  split
  · rename_i hkey
    rw [Option.some.injEq]
    constructor
    · rintro ⟨hb | rfl, hb'⟩
      · exact absurd (List.mem_map_of_mem hb) (hb'.trans hkey.symm ▸ hfresh)
      · rfl
    · rintro rfl
      exact ⟨.inr rfl, hkey⟩
  · rename_i hkey
    rw [find_eq_some]
    constructor
    · rintro ⟨hb | rfl, hb'⟩
      · exact ⟨hb, hb'⟩
      · exact absurd hb' hkey
    · rintro ⟨hb, hb'⟩
      exact ⟨.inl hb, hb'⟩

end Row

end Table

open Table

/-- Some number of due rows is taken out of a table, and no other row. -/
structure Reaped (due : α → Bool) (n : ℕ) (before after : Table key) : Prop where
  sublist : after.rows.Sublist before.rows
  others : after.restrict (fun a => !due a) = before.restrict (fun a => !due a)
  count : after.count due + n = before.count due

theorem Reaped.trans {due : α → Bool} {m n : ℕ} {t₁ t₂ t₃ : Table key}
    (h₁ : Reaped due m t₁ t₂) (h₂ : Reaped due n t₂ t₃) : Reaped due (m + n) t₁ t₃ := by
  have hcount₁ := h₁.count
  have hcount₂ := h₂.count
  exact ⟨h₂.sublist.trans h₁.sublist, h₂.others.trans h₁.others, by omega⟩

theorem Reaped.size {due : α → Bool} {n : ℕ} {t t' : Table key} (h : Reaped due n t t') :
    t'.size + n = t.size := by
  have hbefore := size_restrict_not due t
  have hafter := size_restrict_not due t'
  have hcount := h.count
  rw [h.others] at hafter
  omega

/-- Once no row is due, exactly the other rows are left. -/
theorem Reaped.drained {due : α → Bool} {n : ℕ} {t t' : Table key} (h : Reaped due n t t')
    (hn : t.count due ≤ n) : t' = t.restrict (fun a => !due a) := by
  have hcount := h.count
  have hzero : t'.count due = 0 := by omega
  rw [← h.others]
  exact (restrict_of_all (fun a ha => by simpa using count_eq_zero.mp hzero a ha)).symm

/-- Deleting a selection reaps as many rows as it holds. -/
theorem reaped_select [DecidableEq ι] [LinearOrder κ] (due : α → Bool) (order : α → κ) (limit : ℕ)
    (t : Table key) :
    Reaped due (min limit (t.count due)) t (t.deleteBy key (t.select due order limit)) := by
  have hgone : ∀ a ∈ t.rows, key a ∈ t.select due order limit → due a := by
    intro a ha hkey
    obtain ⟨b, hb, hdue, hab⟩ := mem_select hkey
    rwa [eq_of_key hb ha hab] at hdue
  have hsize := size_deleteBy key (t.select due order limit) t
  have hothers : (t.deleteBy key (t.select due order limit)).restrict (fun a => !due a) =
      t.restrict (fun a => !due a) := by
    rw [← deleteBy_restrict]
    refine restrict_of_all (fun a ha => ?_)
    obtain ⟨hmem, hdue⟩ := mem_restrict.mp ha
    simp only [List.contains_eq_mem, Bool.not_eq_true', decide_eq_false_iff_not]
    intro hkey
    simp [hgone a hmem hkey] at hdue
  have hnumber : t.count (fun a => (t.select due order limit).contains (key a)) =
      min limit (t.count due) := by
    rw [← length_select due order limit t]
    refine count_contains nodup_select (fun i hi => ?_)
    obtain ⟨a, ha, _, rfl⟩ := mem_select hi
    exact List.mem_map_of_mem ha
  refine ⟨List.filter_sublist, hothers, ?_⟩
  have hbefore := size_restrict_not due t
  have hafter := size_restrict_not due (t.deleteBy key (t.select due order limit))
  rw [hothers] at hafter
  omega

/-! Quotas. -/

/-- How many of some rows a quota allows; without a quota it is all of them. -/
def capped (quota : Option ℕ) (n : ℕ) : ℕ := quota.elim n (fun q => min q n)

theorem capped_le (quota : Option ℕ) (n : ℕ) : capped quota n ≤ n := by
  cases quota with
  | none => exact le_refl n
  | some q => exact Nat.min_le_right q n

/-- A first part of a quota and then the rest. -/
theorem capped_add (m : ℕ) (quota : Option ℕ) (n : ℕ) :
    capped (quota.map (m + ·)) n = min m n + capped quota (n - min m n) := by
  cases quota with
  | none =>
    simp only [capped, Option.map_none, Option.elim_none]
    omega
  | some q =>
    simp only [capped, Option.map_some, Option.elim_some]
    omega

/-- The due rows that a quota allows are taken out of a table, and no other row. -/
def ReapedUpTo (due : α → Bool) (quota : Option ℕ) (before after : Table key) : Prop :=
  Reaped due (capped quota (before.count due)) before after

theorem ReapedUpTo.trans {due : α → Bool} {m : ℕ} {quota : Option ℕ} {t₁ t₂ t₃ : Table key}
    (h₁ : ReapedUpTo due (some m) t₁ t₂) (h₂ : ReapedUpTo due quota t₂ t₃) :
    ReapedUpTo due (quota.map (m + ·)) t₁ t₃ := by
  have hcount : t₂.count due + min m (t₁.count due) = t₁.count due := h₁.count
  have hleft : t₂.count due = t₁.count due - min m (t₁.count due) := by omega
  have hboth : Reaped due (min m (t₁.count due) + capped quota (t₂.count due)) t₁ t₃ :=
    Reaped.trans h₁ h₂
  rw [hleft, ← capped_add] at hboth
  exact hboth

theorem ReapedUpTo.count {due : α → Bool} {quota : Option ℕ} {t t' : Table key}
    (h : ReapedUpTo due quota t t') :
    t'.count due = t.count due - capped quota (t.count due) := by
  have hcount : t'.count due + capped quota (t.count due) = t.count due := Reaped.count h
  omega

/-! Keys that are gone. -/

theorem keys_subset {t t' : Table key} (h : t'.rows.Sublist t.rows) {i : ι} (hi : i ∈ t'.keys) :
    i ∈ t.keys :=
  (h.map key).subset hi

/-- A key that a table had and has no more. -/
def gone [DecidableEq ι] (before after : Table key) (i : ι) : Bool :=
  before.keys.contains i && !after.keys.contains i

section Gone

variable [DecidableEq ι]

theorem gone_iff {before after : Table key} {i : ι} :
    gone before after i ↔ i ∈ before.keys ∧ i ∉ after.keys := by
  simp [gone]

/-- A key is gone when its row is. -/
theorem gone_iff_row {before after : Table key} (h : after.rows.Sublist before.rows) {i : ι} :
    gone before after i ↔ ∃ a ∈ before.rows, key a = i ∧ a ∉ after.rows := by
  rw [gone_iff]
  constructor
  · rintro ⟨hi, hnot⟩
    obtain ⟨a, ha, rfl⟩ := List.mem_map.mp hi
    exact ⟨a, ha, rfl, fun hafter => hnot (List.mem_map_of_mem hafter)⟩
  · rintro ⟨a, ha, rfl, hnot⟩
    refine ⟨List.mem_map_of_mem ha, fun hi => ?_⟩
    obtain ⟨b, hb, hkey⟩ := List.mem_map.mp hi
    exact hnot (eq_of_key (h.subset hb) ha hkey ▸ hb)

theorem gone_self (t : Table key) (i : ι) : gone t t i = false := by
  simp [gone]

/-- While rows only leave, a key is gone when it goes in the first part or in the second. -/
theorem gone_trans {t₁ t₂ t₃ : Table key} (h₁ : t₂.rows.Sublist t₁.rows)
    (h₂ : t₃.rows.Sublist t₂.rows) (i : ι) :
    gone t₁ t₃ i = (gone t₁ t₂ i || gone t₂ t₃ i) := by
  have hsub₁ : i ∈ t₂.keys → i ∈ t₁.keys := keys_subset h₁
  have hsub₂ : i ∈ t₃.keys → i ∈ t₂.keys := keys_subset h₂
  rw [Bool.eq_iff_iff, Bool.or_eq_true, gone_iff, gone_iff, gone_iff]
  tauto

/-- Deleting some keys of a table makes these go. -/
theorem gone_deleteBy {t : Table key} {l : List ι} (h : ∀ i ∈ l, i ∈ t.keys) (i : ι) :
    gone t (t.deleteBy key l) i = l.contains i := by
  rw [Bool.eq_iff_iff, gone_iff, mem_keys_deleteBy, List.contains_iff_mem]
  constructor
  · rintro ⟨hi, hnot⟩
    by_contra hl
    exact hnot ⟨hi, hl⟩
  · exact fun hi => ⟨h i hi, fun hin => hin.2 hi⟩

/-- A restriction makes the keys of the other rows go. -/
theorem gone_restrict (p : α → Bool) (t : Table key) (i : ι) :
    gone t (t.restrict p) i = (t.restrict (fun a => !p a)).keys.contains i := by
  rw [Bool.eq_iff_iff, gone_iff, List.contains_iff_mem]
  constructor
  · rintro ⟨hi, hnot⟩
    obtain ⟨a, ha, rfl⟩ := List.mem_map.mp hi
    refine List.mem_map_of_mem (mem_restrict.mpr ⟨ha, ?_⟩)
    by_contra hp
    exact hnot (List.mem_map_of_mem (mem_restrict.mpr ⟨ha, by simpa using hp⟩))
  · intro hi
    obtain ⟨a, ha, rfl⟩ := List.mem_map.mp hi
    obtain ⟨hmem, hp⟩ := mem_restrict.mp ha
    refine ⟨List.mem_map_of_mem hmem, fun hin => ?_⟩
    obtain ⟨b, hb, hkey⟩ := List.mem_map.mp hin
    obtain ⟨hmemb, hpb⟩ := mem_restrict.mp hb
    rw [eq_of_key hmemb hmem hkey] at hpb
    simp [hpb] at hp

end Gone

end Raglogs.KeyedTables

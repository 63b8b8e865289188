import Mathlib.Data.Finset.Sort
import Raglogs.Collections
import Raglogs.Dicts

/-!
Dicts read in the order of their keys, and dicts built key by key by a computation
that can fail. Both depend on the dict, or on the set of keys, and on nothing else.
-/

namespace Raglogs.SortedDicts

open Collections Dicts

universe u

variable {κ ν : Type u} {ε : Type*} [LinearOrder κ]

omit [LinearOrder κ] in
theorem map_fst_filterMap_sublist (f : κ → Option ν) (keys : List κ) :
    ((keys.filterMap (fun k => (f k).map (fun v => (k, v)))).map Prod.fst).Sublist keys := by
  induction keys with
  | nil => exact List.Sublist.refl _
  | cons k rest ih =>
    rw [List.filterMap_cons]
    cases f k with
    | none => exact ih.cons k
    | some v => exact ih.cons_cons k

/-- The elements of a set, in their order. -/
def inOrder (s : Finset κ) : List κ := s.sort (· ≤ ·)

theorem mem_inOrder {s : Finset κ} {k : κ} : k ∈ inOrder s ↔ k ∈ s := Finset.mem_sort _

theorem inOrder_nodup (s : Finset κ) : (inOrder s).Nodup := Finset.sort_nodup _ _

/-- The entries of a dict, sorted by key. -/
def sortedItems (d : Dict κ ν) : List (κ × ν) :=
  (inOrder d.keys).filterMap (fun k => (d.lookup k).map (fun v => (k, v)))

theorem mem_sortedItems {d : Dict κ ν} {k : κ} {v : ν} :
    (k, v) ∈ sortedItems d ↔ d.lookup k = some v := by
  unfold sortedItems
  rw [List.mem_filterMap]
  constructor
  · rintro ⟨k', -, hk'⟩
    obtain ⟨v', hv', heq⟩ := Option.map_eq_some_iff.mp hk'
    obtain ⟨rfl, rfl⟩ := Prod.mk.inj heq
    exact hv'
  · intro h
    refine ⟨k, ?_, by rw [h, Option.map_some]⟩
    rw [mem_inOrder, Finmap.mem_keys]
    exact Finmap.mem_of_lookup_eq_some h

theorem sortedItems_keys_nodup (d : Dict κ ν) : ((sortedItems d).map Prod.fst).Nodup :=
  (inOrder_nodup _).sublist (map_fst_filterMap_sublist d.lookup _)

theorem sortedItems_empty : sortedItems (∅ : Dict κ ν) = [] := by
  rw [List.eq_nil_iff_forall_not_mem]
  rintro ⟨k, v⟩ hmem
  rw [mem_sortedItems, Finmap.lookup_empty] at hmem
  cases hmem

/-- A dict whose entries are computed one by one. -/
def tabulate (keys : List κ) (f : κ → Except ε ν) : Except ε (Dict κ ν) := do
  let entries ← keys.mapM (fun k => do
    let v ← f k
    return (k, v))
  return dictOf entries

omit [LinearOrder κ] in
theorem entry_eq_ok_iff {f : κ → Except ε ν} {k : κ} {p : κ × ν} :
    (do let v ← f k; return (k, v) : Except ε (κ × ν)) = .ok p ↔ p.1 = k ∧ f k = .ok p.2 := by
  rw [bind_eq_ok]
  constructor
  · rintro ⟨v, hv, heq⟩
    obtain rfl := Except.ok.inj heq
    exact ⟨rfl, hv⟩
  · rintro ⟨rfl, hv⟩
    exact ⟨p.2, hv, rfl⟩

omit [LinearOrder κ] in
theorem entries_of_keys {keys : List κ} {f : κ → Except ε ν} {entries : List (κ × ν)}
    (h : List.Forall₂ (fun k p => (do let v ← f k; return (k, v) : Except ε (κ × ν)) = .ok p)
      keys entries) :
    entries.map Prod.fst = keys ∧ ∀ p ∈ entries, f p.1 = .ok p.2 := by
  induction h with
  | nil => exact ⟨rfl, by simp⟩
  | @cons k p keys entries hp _ ih =>
    obtain ⟨hk, hv⟩ := entry_eq_ok_iff.mp hp
    refine ⟨by rw [List.map_cons, ih.1, hk], ?_⟩
    intro q hq
    rcases List.mem_cons.mp hq with rfl | hq
    · rw [hk]
      exact hv
    · exact ih.2 q hq

/-- The entries computed are those of the keys. -/
theorem lookup_tabulate {keys : List κ} {f : κ → Except ε ν} {d : Dict κ ν}
    (hkeys : keys.Nodup) (h : tabulate keys f = .ok d) (k : κ) (v : ν) :
    d.lookup k = some v ↔ k ∈ keys ∧ f k = .ok v := by
  obtain ⟨entries, hentries, heq⟩ := bind_eq_ok.mp h
  obtain rfl := Except.ok.inj heq
  obtain ⟨hfst, hval⟩ := entries_of_keys (mapM_eq_ok_iff.mp hentries)
  have hnodup : (entries.map Prod.fst).Nodup := hfst ▸ hkeys
  rw [lookup_dictOf hnodup]
  constructor
  · intro hmem
    exact ⟨hfst ▸ List.mem_map_of_mem hmem, hval _ hmem⟩
  · rintro ⟨hk, hv⟩
    rw [← hfst] at hk
    obtain ⟨p, hp, rfl⟩ := List.mem_map.mp hk
    have hv' := Except.ok.inj ((hval p hp).symm.trans hv)
    rwa [← hv']

omit [LinearOrder κ] in
/-- The entries can be computed exactly if each of them can. -/
theorem entries_ok_iff {keys : List κ} {f : κ → Except ε ν} :
    (∃ entries, keys.mapM (fun k => do let v ← f k; return (k, v)) = .ok entries) ↔
      ∀ k ∈ keys, ∃ v, f k = .ok v := by
  constructor
  · rintro ⟨entries, hentries⟩ k hk
    obtain ⟨hfst, hval⟩ := entries_of_keys (mapM_eq_ok_iff.mp hentries)
    rw [← hfst] at hk
    obtain ⟨p, hp, rfl⟩ := List.mem_map.mp hk
    exact ⟨p.2, hval p hp⟩
  · intro h
    have hall : ∀ k ∈ keys, ∃ p, (do let v ← f k; return (k, v) : Except ε (κ × ν)) = .ok p ∧
        Prod.fst p = id k := by
      intro k hk
      obtain ⟨v, hv⟩ := h k hk
      exact ⟨(k, v), entry_eq_ok_iff.mpr ⟨rfl, hv⟩, rfl⟩
    obtain ⟨entries, hentries, -⟩ := mapM_exists hall
    exact ⟨entries, hentries⟩

/-- The dict is built exactly if every entry can be computed. -/
theorem tabulate_ok_iff {keys : List κ} {f : κ → Except ε ν} :
    (∃ d, tabulate keys f = .ok d) ↔ ∀ k ∈ keys, ∃ v, f k = .ok v := by
  rw [← entries_ok_iff]
  constructor
  · rintro ⟨d, h⟩
    obtain ⟨entries, hentries, -⟩ := bind_eq_ok.mp h
    exact ⟨entries, hentries⟩
  · rintro ⟨entries, hentries⟩
    exact ⟨dictOf entries, bind_eq_ok.mpr ⟨entries, hentries, rfl⟩⟩

theorem exists_lookup_tabulate {keys : List κ} {f : κ → Except ε ν} {d : Dict κ ν}
    (hkeys : keys.Nodup) (h : tabulate keys f = .ok d) {k : κ} :
    (∃ v, d.lookup k = some v) ↔ k ∈ keys := by
  simp only [lookup_tabulate hkeys h, exists_and_left]
  exact and_iff_left_of_imp (tabulate_ok_iff.mp ⟨d, h⟩ k)

/-- A dict of the keys that have a value. -/
theorem lookup_dictOf_filterMap {f : κ → Option ν} {keys : List κ} (hkeys : keys.Nodup) (k : κ) :
    (dictOf (keys.filterMap (fun k => (f k).map (fun v => (k, v))))).lookup k =
      if k ∈ keys then f k else none := by
  apply Option.ext
  intro v
  rw [lookup_dictOf (hkeys.sublist (map_fst_filterMap_sublist f keys)), List.mem_filterMap]
  constructor
  · rintro ⟨k', hk', heq⟩
    obtain ⟨v', hv', hpair⟩ := Option.map_eq_some_iff.mp heq
    obtain ⟨rfl, rfl⟩ := Prod.mk.inj hpair
    rw [if_pos hk', hv']
  · intro h
    split at h
    · rename_i hk
      exact ⟨k, hk, by rw [h, Option.map_some]⟩
    · cases h

end Raglogs.SortedDicts

import Mathlib.Algebra.BigOperators.Group.Multiset.Basic
import Mathlib.Algebra.Order.Ring.Nat
import Mathlib.Data.Finmap
import Mathlib.Data.List.Induction

/-!
Dicts as finite maps, and dicts that count. Two dicts with the same entries are
equal, whatever order the entries were written in. A counting dict reads a
missing key as zero; `bump` is the increment of a defaultdict(int), and folding
it over any list of increments adds them up key by key.
-/

namespace Raglogs.Dicts

abbrev Dict (κ ν : Type*) := Finmap (fun _ : κ => ν)

variable {κ ν : Type*} [DecidableEq κ]

/-- A dict built from pairs in order; a later pair overwrites an earlier one. -/
def dictOf (pairs : List (κ × ν)) : Dict κ ν :=
  pairs.foldl (fun d p => d.insert p.1 p.2) ∅

theorem lookup_insert_eq (d : Dict κ ν) (k k' : κ) (v : ν) :
    (d.insert k v).lookup k' = if k' = k then some v else d.lookup k' := by
  split
  · rename_i h
    rw [h, Finmap.lookup_insert]
  · rename_i h
    exact Finmap.lookup_insert_of_ne d h

theorem dictOf_append (l : List (κ × ν)) (k : κ) (v : ν) :
    dictOf (l ++ [(k, v)]) = (dictOf l).insert k v := by
  simp [dictOf, List.foldl_append]

theorem mem_dictOf (l : List (κ × ν)) (k : κ) :
    k ∈ dictOf l ↔ k ∈ l.map Prod.fst := by
  induction l using List.reverseRecOn with
  | nil => exact iff_of_false Finmap.notMem_empty (by simp)
  | append_singleton l p ih =>
    obtain ⟨k', v⟩ := p
    rw [dictOf_append, Finmap.mem_insert, ih]
    simp [or_comm]

/-- With distinct keys, a lookup finds exactly the listed pair. -/
theorem lookup_dictOf {l : List (κ × ν)} (h : (l.map Prod.fst).Nodup) (k : κ) (v : ν) :
    (dictOf l).lookup k = some v ↔ (k, v) ∈ l := by
  induction l using List.reverseRecOn with
  | nil => simp [dictOf]
  | append_singleton l p ih =>
    obtain ⟨k', v'⟩ := p
    rw [List.map_append, List.nodup_append] at h
    obtain ⟨hl, -, hdisj⟩ := h
    rw [dictOf_append, lookup_insert_eq, List.mem_append, List.mem_singleton]
    by_cases hk : k = k'
    · subst hk
      have hno : (k, v) ∉ l := fun hmem =>
        hdisj k (List.mem_map_of_mem (f := Prod.fst) hmem) k (by simp) rfl
      simp [hno, eq_comm]
    · simp [hk, ih hl]

/-- An index of a list by distinct keys. -/
theorem lookup_dictOf_key {α : Type*} {key : α → κ} {l : List α} (h : (l.map key).Nodup)
    (k : κ) (a : α) :
    (dictOf (l.map (fun x => (key x, x)))).lookup k = some a ↔ a ∈ l ∧ key a = k := by
  have hkeys : ((l.map (fun x => (key x, x))).map Prod.fst).Nodup := by
    simpa [List.map_map, Function.comp_def] using h
  rw [lookup_dictOf hkeys, List.mem_map]
  constructor
  · rintro ⟨b, hb, heq⟩
    obtain ⟨rfl, rfl⟩ := Prod.mk.inj heq
    exact ⟨hb, rfl⟩
  · rintro ⟨ha, rfl⟩
    exact ⟨a, ha, rfl⟩

/-- A value found was listed. -/
theorem mem_of_lookup_dictOf {l : List (κ × ν)} {k : κ} {v : ν}
    (h : (dictOf l).lookup k = some v) : (k, v) ∈ l := by
  induction l using List.reverseRecOn with
  | nil => simp [dictOf] at h
  | append_singleton l p ih =>
    obtain ⟨k', v'⟩ := p
    rw [dictOf_append, lookup_insert_eq] at h
    rw [List.mem_append, List.mem_singleton]
    split at h
    · rename_i hk
      exact Or.inr (Prod.ext hk (Option.some.inj h).symm)
    · exact Or.inl (ih h)

/-- Values mapped before or after the dict is built. -/
theorem lookup_dictOf_map {ρ : Type*} (f : ν → ρ) (l : List (κ × ν)) (k : κ) :
    (dictOf (l.map (fun p => (p.1, f p.2)))).lookup k = ((dictOf l).lookup k).map f := by
  induction l using List.reverseRecOn with
  | nil => rfl
  | append_singleton l p ih =>
    obtain ⟨k', v'⟩ := p
    rw [List.map_append, List.map_singleton, dictOf_append, dictOf_append, lookup_insert_eq,
      lookup_insert_eq, ih]
    split <;> rfl

/-- The value found is that of the last element with the key. -/
theorem lookup_dictOf_last {α : Type*} (key : α → κ) (value : α → ν) (l : List α) (k : κ) :
    (dictOf (l.map (fun a => (key a, value a)))).lookup k =
      ((l.filter (fun a => key a = k)).getLast?).map value := by
  induction l using List.reverseRecOn with
  | nil => rfl
  | append_singleton l a ih =>
    rw [List.map_append, List.map_singleton, dictOf_append, lookup_insert_eq, List.filter_append]
    by_cases hk : k = key a
    · simp [hk]
    · rw [if_neg hk, ih]
      simp [Ne.symm hk]

section Accumulating

variable {α : Type*}

/-- Fold a list into a dict of records: each element updates the record of its key,
a missing key starting from `init`. -/
def accumulate (key : α → κ) (init : ν) (update : ν → α → ν) (d : Dict κ ν) (l : List α) :
    Dict κ ν :=
  l.foldl (fun d a => d.insert (key a) (update ((d.lookup (key a)).getD init) a)) d

/-- The record of a key is the fold of the elements that have the key. -/
theorem lookup_accumulate (key : α → κ) (init : ν) (update : ν → α → ν) (d : Dict κ ν)
    (l : List α) (k : κ) :
    (accumulate key init update d l).lookup k =
      if l.filter (fun a => key a = k) = [] then d.lookup k
      else some ((l.filter (fun a => key a = k)).foldl update ((d.lookup k).getD init)) := by
  unfold accumulate
  induction l generalizing d with
  | nil => simp
  | cons a l ih =>
    rw [List.foldl_cons, ih, lookup_insert_eq]
    by_cases hk : key a = k
    · subst hk
      simp only [if_true, List.filter_cons, decide_true, reduceCtorEq, if_false, Option.getD_some,
        List.foldl_cons]
      split
      · rename_i hnil
        rw [hnil, List.foldl_nil]
      · rfl
    · have hk' : ¬ k = key a := fun h => hk h.symm
      simp only [hk', if_false, List.filter_cons, hk, decide_false, Bool.false_eq_true]

end Accumulating

section Counting

/-- A dict of counts. -/
abbrev Counter (κ : Type*) := Dict κ ℕ

def count (d : Counter κ) (k : κ) : ℕ := (d.lookup k).getD 0

/-- Add `n` at a key, a missing key counting as zero. -/
def bump (d : Counter κ) (k : κ) (n : ℕ) : Counter κ :=
  d.insert k (count d k + n)

@[simp]
theorem count_empty (k : κ) : count (∅ : Counter κ) k = 0 := by
  simp [count]

theorem count_bump (d : Counter κ) (k k' : κ) (n : ℕ) :
    count (bump d k n) k' = count d k' + if k' = k then n else 0 := by
  unfold bump
  rw [count, lookup_insert_eq]
  split
  · rename_i h
    simp [h]
  · simp [count]

@[simp]
theorem mem_bump (d : Counter κ) (k k' : κ) (n : ℕ) :
    k' ∈ bump d k n ↔ k' = k ∨ k' ∈ d := by
  unfold bump
  exact Finmap.mem_insert

/-- A counting dict is its set of keys and its counts. -/
theorem counter_ext {d d' : Counter κ} (hmem : ∀ k, k ∈ d ↔ k ∈ d')
    (hcount : ∀ k, count d k = count d' k) : d = d' := by
  apply Finmap.ext_lookup
  intro k
  by_cases hk : k ∈ d
  · obtain ⟨v, hv⟩ := Finmap.mem_iff.mp hk
    obtain ⟨v', hv'⟩ := Finmap.mem_iff.mp ((hmem k).mp hk)
    have hc := hcount k
    simp only [count, hv, hv', Option.getD_some] at hc
    rw [hv, hv', hc]
  · rw [Finmap.lookup_eq_none.mpr hk,
      Finmap.lookup_eq_none.mpr (fun h => hk ((hmem k).mpr h))]

/-- Fold a list of increments into a counting dict. -/
def bumpAll (d : Counter κ) (incs : List (κ × ℕ)) : Counter κ :=
  incs.foldl (fun d p => bump d p.1 p.2) d

@[simp]
theorem bumpAll_nil (d : Counter κ) : bumpAll d [] = d := rfl

theorem bumpAll_cons (d : Counter κ) (p : κ × ℕ) (incs : List (κ × ℕ)) :
    bumpAll d (p :: incs) = bumpAll (bump d p.1 p.2) incs := rfl

theorem bumpAll_append (d : Counter κ) (l l' : List (κ × ℕ)) :
    bumpAll d (l ++ l') = bumpAll (bumpAll d l) l' :=
  List.foldl_append

theorem mem_bumpAll (d : Counter κ) (incs : List (κ × ℕ)) (k : κ) :
    k ∈ bumpAll d incs ↔ k ∈ d ∨ k ∈ incs.map Prod.fst := by
  induction incs generalizing d with
  | nil => simp
  | cons p incs ih =>
    rw [bumpAll_cons, ih, mem_bump, List.map_cons, List.mem_cons]
    tauto

theorem count_bumpAll (d : Counter κ) (incs : List (κ × ℕ)) (k : κ) :
    count (bumpAll d incs) k =
      count d k + ((incs.filter (fun p => p.1 = k)).map Prod.snd).sum := by
  induction incs generalizing d with
  | nil => simp
  | cons p incs ih =>
    rw [bumpAll_cons, ih, count_bump]
    by_cases hk : p.1 = k
    · simp [hk, Nat.add_assoc]
    · have hk' : ¬ k = p.1 := fun h => hk h.symm
      simp [hk, hk']

/-- Count the occurrences of each key of a list. -/
def tally (l : List κ) : Counter κ := bumpAll ∅ (l.map (fun k => (k, 1)))

theorem count_tally (l : List κ) (k : κ) : count (tally l) k = l.count k := by
  unfold tally
  rw [count_bumpAll, count_empty, Nat.zero_add, List.filter_map, List.map_map]
  have hones : (l.filter ((fun p : κ × ℕ => decide (p.1 = k)) ∘ fun k => (k, 1))).map
      (Prod.snd ∘ fun k => (k, 1)) = List.replicate (l.count k) 1 := by
    rw [List.eq_replicate_iff, List.length_map, List.count_eq_length_filter]
    refine ⟨?_, by simp⟩
    congr 1
  rw [hones, List.sum_replicate]
  simp

theorem mem_tally (l : List κ) (k : κ) : k ∈ tally l ↔ k ∈ l := by
  unfold tally
  rw [mem_bumpAll, List.map_map]
  simp [Finmap.notMem_empty]

/-- A counting dict is a tally as soon as its pairs are the keys with their counts. -/
theorem dictOf_eq_tally {pairs : List (κ × ℕ)} (h : (pairs.map Prod.fst).Nodup) (l : List κ)
    (hmem : ∀ k n, (k, n) ∈ pairs ↔ k ∈ l ∧ n = l.count k) : dictOf pairs = tally l := by
  apply counter_ext
  · intro k
    rw [mem_dictOf, mem_tally, List.mem_map]
    constructor
    · rintro ⟨⟨k', n⟩, hp, rfl⟩
      exact ((hmem _ _).mp hp).1
    · exact fun hk => ⟨(k, l.count k), (hmem _ _).mpr ⟨hk, rfl⟩, rfl⟩
  · intro k
    rw [count_tally]
    by_cases hk : k ∈ l
    · rw [count, (lookup_dictOf h k (l.count k)).mpr ((hmem _ _).mpr ⟨hk, rfl⟩),
        Option.getD_some]
    · have hno : k ∉ dictOf pairs := by
        rw [mem_dictOf, List.mem_map]
        rintro ⟨⟨k', n⟩, hp, rfl⟩
        exact hk ((hmem _ _).mp hp).1
      rw [count, Finmap.lookup_eq_none.mpr hno, Option.getD_none, List.count_eq_zero.mpr hk]

/-- The entries of a dict as pairs, in no particular order. -/
def items (d : Dict κ ν) : Multiset (κ × ν) := d.entries.map (fun e => (e.1, e.2))

theorem bump_comm (d : Counter κ) (k k' : κ) (n n' : ℕ) :
    bump (bump d k n) k' n' = bump (bump d k' n') k n := by
  apply counter_ext
  · intro j
    simp only [mem_bump]
    tauto
  · intro j
    rw [count_bump, count_bump, count_bump, count_bump]
    omega

/-- Add the counts of one dict to another, whatever the order of its entries. -/
def addCounts (totals d : Counter κ) : Counter κ :=
  d.foldl (fun totals k n => bump totals k n) (fun d k n k' n' => bump_comm d k k' n n') totals

/-- The entries of a dict in some order: adding the dict is adding them in that order. -/
theorem exists_entries (d : Counter κ) :
    ∃ l : List (κ × ℕ), (l.map Prod.fst).Nodup ∧ dictOf l = d ∧
      ∀ totals, addCounts totals d = bumpAll totals l := by
  induction d using Finmap.induction_on with
  | H a =>
    have hkeys : (a.entries.map (fun e => (e.1, e.2))).map Prod.fst = a.keys := by
      rw [List.map_map]
      rfl
    have hnd : ((a.entries.map (fun e => (e.1, e.2))).map Prod.fst).Nodup := by
      rw [hkeys]
      exact a.keys_nodup
    refine ⟨a.entries.map (fun e => (e.1, e.2)), hnd, ?_, ?_⟩
    · apply Finmap.ext_lookup
      intro k
      apply Option.ext
      intro n
      rw [lookup_dictOf hnd, Finmap.lookup_toFinmap, AList.lookup, List.mem_map]
      rw [← Option.mem_def, List.mem_dlookup_iff a.nodupKeys]
      constructor
      · rintro ⟨e, he, heq⟩
        obtain ⟨rfl, rfl⟩ := Prod.mk.inj heq
        exact he
      · exact fun he => ⟨⟨k, n⟩, he, rfl⟩
    · intro totals
      unfold bumpAll
      rw [List.foldl_map]
      rfl

/-- A listed dict counts its one pair of a key. -/
theorem count_dictOf {l : List (κ × ℕ)} (h : (l.map Prod.fst).Nodup) (k : κ) :
    count (dictOf l) k = ((l.filter (fun p => p.1 = k)).map Prod.snd).sum := by
  have hsub : ((l.filter (fun p => p.1 = k)).map Prod.fst).Nodup :=
    h.sublist (List.filter_sublist.map _)
  match hf : l.filter (fun p => p.1 = k) with
  | [] =>
    have hno : k ∉ dictOf l := by
      rw [mem_dictOf, List.mem_map]
      rintro ⟨p, hp, rfl⟩
      exact List.not_mem_nil (hf ▸ List.mem_filter.mpr ⟨hp, by simp⟩)
    rw [count, Finmap.lookup_eq_none.mpr hno, hf]
    rfl
  | [p] =>
    have hp : p ∈ l.filter (fun p => p.1 = k) := by rw [hf]; exact List.mem_singleton_self p
    obtain ⟨hmem, hpk⟩ := List.mem_filter.mp hp
    rw [decide_eq_true_eq] at hpk
    subst hpk
    rw [count, (lookup_dictOf h p.1 p.2).mpr hmem, hf]
    simp
  | p :: q :: rest =>
    have hp : p ∈ l.filter (fun p => p.1 = k) := by rw [hf]; exact List.mem_cons_self
    have hq : q ∈ l.filter (fun p => p.1 = k) := by
      rw [hf]
      exact List.mem_cons_of_mem _ List.mem_cons_self
    have hpk := of_decide_eq_true (List.mem_filter.mp hp).2
    have hqk := of_decide_eq_true (List.mem_filter.mp hq).2
    rw [hf] at hsub
    simp [hpk, hqk] at hsub

theorem count_addCounts (totals d : Counter κ) (k : κ) :
    count (addCounts totals d) k = count totals k + count d k := by
  obtain ⟨l, hnd, rfl, hadd⟩ := exists_entries d
  rw [hadd, count_bumpAll, count_dictOf hnd]

theorem mem_addCounts (totals d : Counter κ) (k : κ) :
    k ∈ addCounts totals d ↔ k ∈ totals ∨ k ∈ d := by
  obtain ⟨l, hnd, rfl, hadd⟩ := exists_entries d
  rw [hadd, mem_bumpAll, mem_dictOf]

/-- A sum over distinct keys with one value replaced. -/
theorem sum_update {ks : List κ} (hks : ks.Nodup) {k : κ} (hk : k ∈ ks) (f : κ → ℕ) (v : ℕ) :
    (ks.map (fun k' => if k' = k then v else f k')).sum + f k = (ks.map f).sum + v := by
  induction ks with
  | nil => exact absurd hk List.not_mem_nil
  | cons a rest ih =>
    obtain ⟨ha, hrest⟩ := List.nodup_cons.mp hks
    rw [List.map_cons, List.sum_cons, List.map_cons, List.sum_cons]
    rcases List.mem_cons.mp hk with rfl | hin
    · have hsame : rest.map (fun k' => if k' = k then v else f k') = rest.map f := by
        apply List.map_congr_left
        intro k' hk'
        have hne : k' ≠ k := fun h => ha (h ▸ hk')
        rw [if_neg hne]
      rw [if_pos rfl, hsame]
      omega
    · have hne : a ≠ k := fun h => ha (h ▸ hin)
      have hsum := ih hrest hin
      rw [if_neg hne]
      omega

theorem count_dictOf_append (l : List (κ × ℕ)) (k : κ) (v : ℕ) (k' : κ) :
    count (dictOf (l ++ [(k, v)])) k' = if k' = k then v else count (dictOf l) k' := by
  unfold count
  rw [dictOf_append, lookup_insert_eq]
  split <;> rfl

theorem sum_count_dictOf_append {ks : List κ} (hks : ks.Nodup) (l : List (κ × ℕ)) {k : κ}
    (hk : k ∈ ks) (v : ℕ) :
    (ks.map (count (dictOf (l ++ [(k, v)])))).sum + count (dictOf l) k =
      (ks.map (count (dictOf l))).sum + v := by
  have hnew : ks.map (count (dictOf (l ++ [(k, v)]))) =
      ks.map (fun k' => if k' = k then v else count (dictOf l) k') :=
    List.map_congr_left (fun k' _ => count_dictOf_append l k v k')
  rw [hnew]
  exact sum_update hks hk _ v

theorem sum_count_dictOf_nil (ks : List κ) :
    (ks.map (count (dictOf ([] : List (κ × ℕ))))).sum = 0 := by
  apply List.sum_eq_zero
  intro n hn
  obtain ⟨k, -, rfl⟩ := List.mem_map.mp hn
  exact count_empty k

/-- A dict holds no more than what was listed, since a later pair overwrites. -/
theorem sum_count_dictOf_le {ks : List κ} (hks : ks.Nodup) {l : List (κ × ℕ)}
    (h : ∀ p ∈ l, p.1 ∈ ks) : (ks.map (count (dictOf l))).sum ≤ (l.map Prod.snd).sum := by
  induction l using List.reverseRecOn with
  | nil =>
    rw [sum_count_dictOf_nil]
    exact Nat.zero_le _
  | append_singleton l p ih =>
    obtain ⟨k, v⟩ := p
    have hk : k ∈ ks := h (k, v) (by simp)
    have hsum := sum_count_dictOf_append hks l hk v
    have hle := ih (fun q hq => h q (List.mem_append_left _ hq))
    rw [List.map_append, List.sum_append, List.map_singleton, List.sum_singleton]
    omega

theorem count_dictOf_eq_zero_iff {l : List (κ × ℕ)} (h : ∀ p ∈ l, 1 ≤ p.2) (k : κ) :
    count (dictOf l) k = 0 ↔ k ∉ l.map Prod.fst := by
  rw [← mem_dictOf, count]
  cases hlookup : (dictOf l).lookup k with
  | none => exact iff_of_true rfl (Finmap.lookup_eq_none.mp hlookup)
  | some n =>
    have hn := h _ (mem_of_lookup_dictOf hlookup)
    have hmem : k ∈ dictOf l := Finmap.mem_iff.mpr ⟨n, hlookup⟩
    exact iff_of_false (by rw [Option.getD_some]; exact Nat.one_le_iff_ne_zero.mp hn)
      (fun hno => hno hmem)

/-- It holds all of it exactly when no key is listed twice. -/
theorem sum_count_dictOf_eq_iff {ks : List κ} (hks : ks.Nodup) {l : List (κ × ℕ)}
    (h : ∀ p ∈ l, p.1 ∈ ks) (hpos : ∀ p ∈ l, 1 ≤ p.2) :
    (ks.map (count (dictOf l))).sum = (l.map Prod.snd).sum ↔ (l.map Prod.fst).Nodup := by
  induction l using List.reverseRecOn with
  | nil => exact iff_of_true (sum_count_dictOf_nil ks) List.nodup_nil
  | append_singleton l p ih =>
    obtain ⟨k, v⟩ := p
    have hk : k ∈ ks := h (k, v) (by simp)
    have hv : 1 ≤ v := hpos (k, v) (by simp)
    have hl : ∀ q ∈ l, q.1 ∈ ks := fun q hq => h q (List.mem_append_left _ hq)
    have hlpos : ∀ q ∈ l, 1 ≤ q.2 := fun q hq => hpos q (List.mem_append_left _ hq)
    have hsum := sum_count_dictOf_append hks l hk v
    have hle := sum_count_dictOf_le hks hl
    have hfresh := count_dictOf_eq_zero_iff hlpos k
    have hnd : ((l ++ [(k, v)]).map Prod.fst).Nodup ↔
        (l.map Prod.fst).Nodup ∧ k ∉ l.map Prod.fst := by
      rw [List.map_append, List.map_singleton, List.nodup_append]
      simp only [List.nodup_singleton, List.mem_singleton, true_and]
      exact and_congr_right (fun _ => ⟨fun h hk => h k hk k rfl rfl,
        fun h a ha b hb hab => h (hb ▸ hab ▸ ha)⟩)
    rw [hnd, ← ih hl hlpos, ← hfresh, List.map_append, List.sum_append, List.map_singleton,
      List.sum_singleton]
    omega

end Counting

end Raglogs.Dicts

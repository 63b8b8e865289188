import Mathlib.Data.Finset.Card
import Mathlib.Data.List.Perm.Subperm
import Mathlib.Order.OrderDual
import Raglogs.Collections

/-!
The best of several lists, over arbitrary elements with a key and a score. Each list is cut to
its best elements before they are merged, and of the elements with one key the best one is
kept. The cut loses nothing: what a list drops is outdone by as many elements as are kept in
the end.
-/

namespace Raglogs.TruncatedMerge

open Collections

variable {μ κ K : Type*} [DecidableEq κ] [LinearOrder K] (key : μ → κ) (score : μ → K)

/-- Enter an element under its key, where it takes the place of one with a lower score. -/
def merge (existing : List μ) (m : μ) : List μ :=
  match existing.find? (fun e => key e = key m) with
  | none => existing ++ [m]
  | some previous =>
      if score previous < score m then existing.map fun e => if key e = key m then m else e
      else existing

def mergeAll (ms : List μ) : List μ := ms.foldl (merge key score) []

/-- The best elements, those that were entered first among equals. -/
def ranked (ms : List μ) (limit : ℕ) : List μ :=
  (sortOn (fun m => OrderDual.toDual (score m)) ms).take limit

variable {key score}

/-! One entry for each key, with the best score. -/

theorem keys_merge {existing : List μ} (h : (existing.map key).Nodup) (m : μ) :
    ((merge key score existing m).map key).Nodup := by
  rw [merge]
  split
  · rename_i hnone
    rw [List.map_append, List.map_singleton]
    refine List.nodup_append.mpr ⟨h, List.nodup_singleton _, ?_⟩
    intro k hk k' hk' hkk'
    obtain ⟨e, he, rfl⟩ := List.mem_map.mp hk
    have hne := List.find?_eq_none.mp hnone e he
    exact hne (by simpa using hkk'.trans (List.mem_singleton.mp hk'))
  · split
    · rw [List.map_map]
      refine (congrArg List.Nodup (List.map_congr_left fun e _ => ?_)).mpr h
      rw [Function.comp_apply]
      split
      · rename_i heq
        exact heq.symm
      · rfl
    · exact h

theorem mem_of_mem_merge {existing : List μ} {m m' : μ} (h : m' ∈ merge key score existing m) :
    m' ∈ existing ∨ m' = m := by
  rw [merge] at h
  split at h
  · rcases List.mem_append.mp h with h | h
    · exact .inl h
    · exact .inr (List.mem_singleton.mp h)
  · split at h
    · obtain ⟨e, he, rfl⟩ := List.mem_map.mp h
      split
      · exact .inr rfl
      · exact .inl he
    · exact .inl h

variable (key score) in
/-- An element that is at least as good stands under its key. -/
def Outdone (l : List μ) (m : μ) : Prop := ∃ m' ∈ l, key m' = key m ∧ score m ≤ score m'

theorem outdone_merge {existing : List μ} (hnodup : (existing.map key).Nodup) (m : μ) {e : μ}
    (he : e = m ∨ Outdone key score existing e) :
    Outdone key score (merge key score existing m) e := by
  rw [merge]
  split
  · rcases he with rfl | ⟨e', he', hkey, hle⟩
    · exact ⟨e, by simp, rfl, le_rfl⟩
    · exact ⟨e', List.mem_append_left _ he', hkey, hle⟩
  · rename_i previous hprevious
    have hmem := List.mem_of_find?_eq_some hprevious
    have hsame : key previous = key m := by simpa using List.find?_some hprevious
    split
    · rename_i hbetter
      have hm : m ∈ existing.map fun e => if key e = key m then m else e :=
        List.mem_map.mpr ⟨previous, hmem, if_pos hsame⟩
      rcases he with rfl | ⟨e', he', hkey, hle⟩
      · exact ⟨e, hm, rfl, le_rfl⟩
      · by_cases hkm : key e' = key m
        · have heq : e' = previous :=
            List.inj_on_of_nodup_map hnodup he' hmem (hkm.trans hsame.symm)
          exact ⟨m, hm, hkm.symm.trans hkey, hle.trans (heq ▸ hbetter.le)⟩
        · exact ⟨e', List.mem_map.mpr ⟨e', he', if_neg hkm⟩, hkey, hle⟩
    · rename_i hworse
      rcases he with rfl | ⟨e', he', hkey, hle⟩
      · exact ⟨previous, hmem, hsame, not_lt.mp hworse⟩
      · exact ⟨e', he', hkey, hle⟩

variable (key score) in
/-- What a merge of some elements holds. -/
theorem mergeAll_spec (ms : List μ) :
    ((mergeAll key score ms).map key).Nodup ∧ (∀ m ∈ mergeAll key score ms, m ∈ ms) ∧
      ∀ m ∈ ms, Outdone key score (mergeAll key score ms) m := by
  induction ms using List.reverseRecOn with
  | nil => exact ⟨List.nodup_nil, fun m hm => hm, fun m hm => absurd hm List.not_mem_nil⟩
  | append_singleton ms m ih =>
    obtain ⟨hnodup, hfrom, hbest⟩ := ih
    have hstep : mergeAll key score (ms ++ [m]) = merge key score (mergeAll key score ms) m := by
      rw [mergeAll, List.foldl_append]
      rfl
    rw [hstep]
    refine ⟨keys_merge hnodup m, fun e he => ?_, fun e he => ?_⟩
    · rcases mem_of_mem_merge he with he | rfl
      · exact List.mem_append_left _ (hfrom e he)
      · simp
    · rcases List.mem_append.mp he with he | he
      · exact outdone_merge hnodup m (.inr (hbest e he))
      · exact outdone_merge hnodup m (.inl (List.mem_singleton.mp he))

/-! The cut. -/

section Cut

/-- A list in which no element with a property comes behind one without it. -/
theorem eq_filter_append_filter {p : μ → Bool} {l : List μ}
    (h : l.Pairwise fun a b => p b = true → p a = true) :
    l = l.filter p ++ l.filter (fun a => !p a) := by
  induction h with
  | nil => rfl
  | cons hhead htail ih =>
    rename_i a l
    cases ha : p a with
    | true => rw [List.filter_cons_of_pos ha, List.filter_cons_of_neg (by simp [ha]),
        List.cons_append, ← ih]
    | false =>
      have hnone : l.filter p = [] := List.filter_eq_nil_iff.mpr fun b hb hpb =>
        Bool.false_ne_true (ha.symm.trans (hhead b hb hpb))
      have hall : l.filter (fun b => !p b) = l := by rw [hnone] at ih; exact ih.symm
      rw [List.filter_cons_of_neg (by simp [ha]), List.filter_cons_of_pos (by simp [ha]), hnone,
        hall, List.nil_append]

variable {l : List μ} {limit : ℕ}

/-- Fewer elements than the limit are better than one that the cut keeps. -/
theorem countP_lt_of_mem_take (hsorted : l.Pairwise fun a b => score b ≤ score a) {m : μ}
    (hm : m ∈ l.take limit) : l.countP (fun e => score m < score e) < limit := by
  obtain ⟨before, after, hsplit⟩ := List.append_of_mem hm
  have hl : l = before ++ m :: (after ++ l.drop limit) := by
    rw [← List.cons_append, ← List.append_assoc, ← hsplit, List.take_append_drop]
  rw [hl, List.pairwise_append, List.pairwise_cons] at hsorted
  have hrest : (m :: (after ++ l.drop limit)).countP (fun e => score m < score e) = 0 := by
    rw [List.countP_eq_zero]
    intro e he
    rcases List.mem_cons.mp he with rfl | he
    · simp
    · simpa using hsorted.2.1.1 e he
  have hshort : before.length < limit := by
    have hlength := List.length_take_le limit l
    rw [hsplit, List.length_append, List.length_cons] at hlength
    omega
  have hbefore : before.countP (fun e => score m < score e) ≤ before.length :=
    List.countP_le_length
  rw [hl, List.countP_append, hrest]
  omega

/-- What the cut drops is no better than what it keeps. -/
theorem le_of_mem_take_of_mem_drop (hsorted : l.Pairwise fun a b => score b ≤ score a) {m e : μ}
    (hm : m ∈ l.take limit) (he : e ∈ l.drop limit) : score e ≤ score m := by
  rw [← List.take_append_drop limit l, List.pairwise_append] at hsorted
  exact hsorted.2.2 m hm e he

variable (limit) in
/-- An element that the cut drops is outdone by as many as it keeps. -/
theorem mem_take_or (hsorted : l.Pairwise fun a b => score b ≤ score a) {m : μ} (hm : m ∈ l) :
    m ∈ l.take limit ∨ ((l.take limit).length = limit ∧ ∀ e ∈ l.take limit, score m ≤ score e) := by
  have hmem := hm
  rw [← List.take_append_drop limit l, List.mem_append] at hmem
  rcases hmem with hmem | hmem
  · exact .inl hmem
  · refine .inr ⟨?_, fun e he => le_of_mem_take_of_mem_drop hsorted he hmem⟩
    have hlong := List.length_pos_of_mem hmem
    rw [List.length_drop] at hlong
    rw [List.length_take]
    omega

end Cut

/-! Cut, merged, and cut again. -/

section Lists

variable {lists : List (List μ)} {limit : ℕ}

variable (key score lists limit) in
/-- The best elements of the cut lists. -/
def best : List μ := ranked score (mergeAll key score (lists.flatMap (List.take limit))) limit

theorem mem_cut {m : μ} : m ∈ lists.flatMap (List.take limit) ↔ ∃ l ∈ lists, m ∈ l.take limit := by
  rw [List.mem_flatMap]

variable (hsorted : ∀ l ∈ lists, l.Pairwise fun a b => score b ≤ score a)
  (hnodup : ∀ l ∈ lists, (l.map key).Nodup)

variable (limit) in
include hsorted hnodup in
/-- An element of a list is merged, or as many merged ones as are kept are as good. -/
theorem outdone_or_many {l : List μ} (hl : l ∈ lists) {m : μ} (hm : m ∈ l) :
    Outdone key score (mergeAll key score (lists.flatMap (List.take limit))) m ∨
      limit ≤ (mergeAll key score (lists.flatMap (List.take limit))).countP
        (fun e => score m ≤ score e) := by
  obtain ⟨-, -, hbest⟩ := mergeAll_spec key score (lists.flatMap (List.take limit))
  rcases mem_take_or limit (hsorted l hl) hm with hkept | ⟨hfull, hbetter⟩
  · exact .inl (hbest m (mem_cut.mpr ⟨l, hl, hkept⟩))
  · refine .inr ?_
    have hkeys : ((l.take limit).map key).Nodup :=
      (hnodup l hl).sublist ((List.take_sublist _ _).map key)
    have hsub : (l.take limit).map key ⊆ ((mergeAll key score
        (lists.flatMap (List.take limit))).filter (fun e => score m ≤ score e)).map key := by
      intro k hk
      obtain ⟨e, he, rfl⟩ := List.mem_map.mp hk
      obtain ⟨e', he', hkey, hle⟩ := hbest e (mem_cut.mpr ⟨l, hl, he⟩)
      rw [← hkey]
      refine List.mem_map_of_mem (List.mem_filter.mpr ⟨he', ?_⟩)
      simpa using (hbetter e he).trans hle
    have hlength := (List.subperm_of_subset hkeys hsub).length_le
    rwa [List.length_map, List.length_map, hfull, ← List.countP_eq_length_filter] at hlength

variable (key score lists limit) in
/-- What is kept is the best of the lists: one element for each key, with the best score of the
key, and no element that is left out is better. -/
structure IsBest (kept : List μ) : Prop where
  keys_nodup : (kept.map key).Nodup
  sorted : kept.Pairwise fun a b => score b ≤ score a
  listed : ∀ m ∈ kept, ∃ l ∈ lists, m ∈ l
  best_of_key : ∀ m ∈ kept, ∀ l ∈ lists, ∀ e ∈ l, key e = key m → score e ≤ score m
  left_out : ∀ l ∈ lists, ∀ e ∈ l, key e ∉ kept.map key → ∀ m ∈ kept, score e ≤ score m
  full : kept.length = min limit (lists.flatten.map key).toFinset.card

include hsorted hnodup in
/-- Cutting the lists before they are merged loses nothing. -/
theorem isBest_best : IsBest key score lists limit (best key score lists limit) := by
  obtain ⟨hkeys, hfrom, hbest⟩ := mergeAll_spec key score (lists.flatMap (List.take limit))
  have hmany := fun {l : List μ} (hl : l ∈ lists) {m : μ} (hm : m ∈ l) =>
    outdone_or_many limit hsorted hnodup hl hm
  rw [best, ranked]
  generalize mergeAll key score (lists.flatMap (List.take limit)) = merged at *
  set sorted := sortOn (fun m => OrderDual.toDual (score m)) merged with hdef
  have hperm : sorted.Perm merged := sortOn_perm _ _
  have hdesc : sorted.Pairwise fun a b => score b ≤ score a :=
    (sortOn_pairwise (fun m => OrderDual.toDual (score m)) merged).imp fun h => h
  have hmem : ∀ {m}, m ∈ sorted.take limit → m ∈ merged := fun hm =>
    hperm.mem_iff.mp (List.mem_of_mem_take hm)
  -- As many merged elements as are kept cannot all be better than one that is kept.
  have hbound : ∀ {m e : μ}, m ∈ sorted.take limit →
      limit ≤ merged.countP (fun e' => score e ≤ score e') → score e ≤ score m := by
    intro m e hm hcount
    by_contra hlt
    have hfew := countP_lt_of_mem_take hdesc hm
    rw [hperm.countP_eq] at hfew
    have hle : merged.countP (fun e' => score e ≤ score e') ≤
        merged.countP (fun e' => score m < score e') :=
      List.countP_mono_left fun e' _ he' => by
        simp only [decide_eq_true_eq] at he' ⊢
        exact lt_of_lt_of_le (not_le.mp hlt) he'
    omega
  refine ⟨((hperm.map key).nodup_iff.mpr hkeys).sublist ((List.take_sublist _ _).map key),
    hdesc.sublist (List.take_sublist _ _), fun m hm => ?_, fun m hm l hl e he hkey => ?_,
    fun l hl e he hout m hm => ?_, ?_⟩
  · obtain ⟨l, hl, hcut⟩ := mem_cut.mp (hfrom m (hmem hm))
    exact ⟨l, hl, List.mem_of_mem_take hcut⟩
  · rcases hmany hl he with ⟨m', hm', hkey', hle⟩ | hcount
    · have heq : m' = m :=
        List.inj_on_of_nodup_map hkeys hm' (hmem hm) (hkey'.trans hkey)
      exact heq ▸ hle
    · exact hbound hm hcount
  · rcases hmany hl he with ⟨m', hm', hkey', hle⟩ | hcount
    · have hnot : m' ∉ sorted.take limit := fun hin =>
        hout (hkey' ▸ List.mem_map_of_mem hin)
      have hdrop : m' ∈ sorted.drop limit := by
        have hsplit := hperm.mem_iff.mpr hm'
        rw [← List.take_append_drop limit sorted, List.mem_append] at hsplit
        exact hsplit.resolve_left hnot
      exact hle.trans (le_of_mem_take_of_mem_drop hdesc hm hdrop)
    · exact hbound hm hcount
  · have hlength : merged.length = (merged.map key).toFinset.card := by
      rw [List.toFinset_card_of_nodup hkeys, List.length_map]
    have hsub : (merged.map key).toFinset ⊆ (lists.flatten.map key).toFinset := by
      intro k hk
      obtain ⟨m, hm, rfl⟩ := List.mem_map.mp (List.mem_toFinset.mp hk)
      obtain ⟨l, hl, hcut⟩ := mem_cut.mp (hfrom m hm)
      exact List.mem_toFinset.mpr (List.mem_map_of_mem
        (List.mem_flatten.mpr ⟨l, hl, List.mem_of_mem_take hcut⟩))
    have hcard := Finset.card_le_card hsub
    rw [List.length_take, hperm.length_eq, hlength]
    by_cases hall : (lists.flatten.map key).toFinset ⊆ (merged.map key).toFinset
    · rw [Finset.Subset.antisymm hsub hall]
    · obtain ⟨k, hk, hno⟩ := Finset.not_subset.mp hall
      obtain ⟨e, he, rfl⟩ := List.mem_map.mp (List.mem_toFinset.mp hk)
      obtain ⟨l, hl, he⟩ := List.mem_flatten.mp he
      rcases hmany hl he with ⟨m', hm', hkey, -⟩ | hcount
      · exact absurd (List.mem_toFinset.mpr (hkey ▸ List.mem_map_of_mem hm')) hno
      · have hle := hcount.trans List.countP_le_length
        omega

end Lists

end Raglogs.TruncatedMerge

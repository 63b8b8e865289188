import Raglogs.Collections

/-!
Shortlists: the first few elements of a list sorted by a key. What is kept is sorted, nothing
that was dropped goes before it, and something is dropped only when the shortlist is full.
-/

namespace Raglogs.Shortlists

open Collections

variable {α κ : Type*} [LinearOrder κ]

/-- The first elements of a list in the order of a key. -/
def shortlist (n : ℕ) (key : α → κ) (l : List α) : List α := (sortOn key l).take n

/-- A list is what is kept and what is dropped. -/
structure Shortlisted (n : ℕ) (key : α → κ) (l kept dropped : List α) : Prop where
  perm : l.Perm (kept ++ dropped)
  sorted : kept.Pairwise fun a b => key a ≤ key b
  before : ∀ a ∈ kept, ∀ b ∈ dropped, key a ≤ key b
  short : kept.length ≤ n
  full : dropped ≠ [] → kept.length = n

variable {n : ℕ} {key : α → κ} {l : List α}

variable (n key l) in
theorem shortlisted : Shortlisted n key l (shortlist n key l) ((sortOn key l).drop n) := by
  have hsorted := sortOn_pairwise key l
  rw [← List.take_append_drop n (sortOn key l), List.pairwise_append] at hsorted
  refine ⟨?_, hsorted.1, hsorted.2.2, List.length_take_le n _, ?_⟩
  · rw [shortlist, List.take_append_drop]
    exact (sortOn_perm key l).symm
  · intro hdropped
    rw [shortlist, List.length_take]
    have hlong : n < (sortOn key l).length := by
      by_contra hno
      exact hdropped (List.drop_eq_nil_of_le (not_lt.mp hno))
    exact min_eq_left hlong.le

theorem mem_of_mem_shortlist {a : α} (h : a ∈ shortlist n key l) : a ∈ l :=
  (mem_sortOn key).mp (List.mem_of_mem_take h)

variable (n key) in
/-- An element is kept, or the shortlist is full of others that go before it. -/
theorem mem_shortlist_or {a : α} (h : a ∈ l) : a ∈ shortlist n key l ∨
    (shortlist n key l).length = n ∧ ∀ b ∈ shortlist n key l, key b ≤ key a := by
  have hshort := shortlisted n key l
  rcases List.mem_append.mp (hshort.perm.mem_iff.mp h) with hkept | hdropped
  · exact .inl hkept
  · exact .inr ⟨hshort.full (List.ne_nil_of_mem hdropped),
      fun b hb => hshort.before b hb a hdropped⟩

theorem nodup_map_shortlist {β : Type*} {f : α → β} (h : (l.map f).Nodup) :
    ((shortlist n key l).map f).Nodup := by
  have hsub : ((shortlist n key l).map f).Sublist ((sortOn key l).map f) :=
    (List.take_sublist n _).map f
  exact (((sortOn_perm key l).map f).nodup_iff.mpr h).sublist hsub

/-- Keys that agree on a list pick the same shortlist of it. -/
theorem shortlist_congr {key' : α → κ} (n : ℕ) (h : ∀ a ∈ l, key a = key' a) :
    shortlist n key l = shortlist n key' l := by
  have hsort : (sortOn key l).map id = sortOn key' (l.map id) :=
    List.map_insertionSort (fun a b => key a ≤ key b) (fun a b => key' a ≤ key' b) id l
      fun a ha b hb => by rw [h a ha, h b hb]; rfl
  rw [List.map_id, List.map_id] at hsort
  rw [shortlist, shortlist, hsort]

/-! Sorting by a flag. -/

section Flags

variable {β : Type*}

theorem orderedInsert_append {r : β → β → Prop} [DecidableRel r] (a : β) {front : List β}
    (h : ∀ b ∈ front, ¬r a b) (back : List β) :
    (front ++ back).orderedInsert r a = front ++ back.orderedInsert r a := by
  induction front with
  | nil => rfl
  | cons b front ih =>
    rw [List.forall_mem_cons] at h
    rw [List.cons_append, List.orderedInsert_of_not_le r _ h.1, ih h.2, List.cons_append]

/-- The flagged elements go first, and otherwise the order stays. -/
theorem sortOn_flag (flag : β → Bool) (l : List β) :
    sortOn (fun a => if flag a then 0 else 1) l = l.filter flag ++ l.filter fun a => !flag a := by
  induction l with
  | nil => rfl
  | cons a l ih =>
    unfold sortOn at ih ⊢
    rw [List.insertionSort_cons, ih]
    cases hflag : flag a with
    | true =>
      rw [List.filter_cons_of_pos hflag, List.filter_cons_of_neg (by simp [hflag])]
      cases hrest : l.filter flag ++ l.filter fun a => !flag a with
      | nil => rw [List.cons_append, hrest]; rfl
      | cons b rest =>
        rw [List.orderedInsert_cons_of_le _ _ (by simp [hflag]), List.cons_append, hrest]
    | false =>
      rw [List.filter_cons_of_neg (by simp [hflag]), List.filter_cons_of_pos (by simp [hflag]),
        orderedInsert_append]
      · congr 1
        cases hback : l.filter fun a => !flag a with
        | nil => rfl
        | cons b rest =>
          have hb : b ∈ l.filter fun a => !flag a := hback ▸ List.mem_cons_self
          have hno : flag b = false := by simpa using (List.mem_filter.mp hb).2
          rw [List.orderedInsert_cons_of_le _ _ (by simp [hflag, hno])]
      · intro b hb
        have hyes := (List.mem_filter.mp hb).2
        simp [hflag, hyes]

end Flags

end Raglogs.Shortlists

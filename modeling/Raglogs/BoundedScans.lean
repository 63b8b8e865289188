import Mathlib.Data.Finset.Card
import Raglogs.Collections

/-!
Scans of ordered elements that stop early: a filter, an order, a cap, the first element
with each key, and the first few of these. What is found before a point does not depend
on what comes after it.
-/

namespace Raglogs.BoundedScans

open Collections

variable {α κ : Type*}

section Orders

variable [LinearOrder κ] {key : α → κ}

/-- A sorted list is what is up to a point and what is behind it. -/
theorem split_sorted {l : List α} (h : l.Pairwise fun a b => key a ≤ key b) (bound : κ) :
    l.filter (fun a => key a ≤ bound) ++ l.filter (fun a => bound < key a) = l := by
  induction l with
  | nil => rfl
  | cons a l ih =>
    rw [List.pairwise_cons] at h
    rcases le_or_gt (key a) bound with hle | hgt
    · rw [List.filter_cons_of_pos (by simpa using hle),
        List.filter_cons_of_neg (by simpa using hle), List.cons_append, ih h.2]
    · have hfront : l.filter (fun a => key a ≤ bound) = [] := by
        rw [List.filter_eq_nil_iff]
        intro b hb
        simpa using lt_of_lt_of_le hgt (h.1 b hb)
      have hback : l.filter (fun a => bound < key a) = l := by
        rw [List.filter_eq_self]
        intro b hb
        simpa using lt_of_lt_of_le hgt (h.1 b hb)
      rw [List.filter_cons_of_neg (by simpa using hgt), hfront, List.nil_append,
        List.filter_cons_of_pos (by simpa using hgt), hback]

/-- A filter and a sort commute where the key separates the elements. -/
theorem filter_sortOn {l : List α} (hkey : ∀ a ∈ l, ∀ b ∈ l, key a = key b → a = b)
    (p : α → Bool) : (sortOn key l).filter p = sortOn key (l.filter p) := by
  have hperm : ((sortOn key l).filter p).Perm (sortOn key (l.filter p)) :=
    ((sortOn_perm key l).filter p).trans (sortOn_perm key _).symm
  refine hperm.eq_of_pairwise ?_ ((sortOn_pairwise key l).filter p) (sortOn_pairwise key _)
  intro a b ha hb hab hba
  refine hkey a ?_ b ?_ (le_antisymm hab hba)
  · exact (mem_sortOn key).mp (List.mem_of_mem_filter ha)
  · exact List.mem_of_mem_filter ((mem_sortOn key).mp hb)

end Orders

section Firsts

variable [DecidableEq κ] (key : α → κ)

/-- The first element with each key that was not seen before. -/
def firsts : List κ → List α → List α
  | _, [] => []
  | seen, a :: l => if key a ∈ seen then firsts seen l else a :: firsts (key a :: seen) l

theorem mem_of_mem_firsts {seen : List κ} {l : List α} {a : α} (h : a ∈ firsts key seen l) :
    a ∈ l := by
  induction l generalizing seen with
  | nil => cases h
  | cons b l ih =>
    rw [firsts] at h
    split at h
    · exact List.mem_cons_of_mem b (ih h)
    · rcases List.mem_cons.mp h with rfl | h
      · exact List.mem_cons_self
      · exact List.mem_cons_of_mem b (ih h)

/-- What comes first in a list comes first in a longer one. -/
theorem firsts_append (seen : List κ) (l l' : List α) :
    ∃ rest, firsts key seen (l ++ l') = firsts key seen l ++ rest ∧ ∀ a ∈ rest, a ∈ l' := by
  induction l generalizing seen with
  | nil => exact ⟨_, rfl, fun a ha => mem_of_mem_firsts key ha⟩
  | cons b l ih =>
    rw [List.cons_append, firsts, firsts]
    split
    · exact ih seen
    · obtain ⟨rest, hrest, hmem⟩ := ih (key b :: seen)
      exact ⟨rest, by rw [hrest, List.cons_append], hmem⟩

/-- An element is among the first few if its key is new and few came before it. -/
theorem mem_take_firsts {seen : List κ} {l : List α} {n : ℕ} {a : α} :
    a ∈ (firsts key seen l).take n ↔ ∃ before after, l = before ++ a :: after ∧ key a ∉ seen ∧
      key a ∉ before.map key ∧ (firsts key seen before).length < n := by
  induction l generalizing seen n with
  | nil => simp [firsts]
  | cons b l ih =>
    have hcons : (∃ before after, b :: l = before ++ a :: after ∧ key a ∉ seen ∧
        key a ∉ before.map key ∧ (firsts key seen before).length < n) ↔
        (b = a ∧ key a ∉ seen ∧ 0 < n) ∨ ∃ before after, l = before ++ a :: after ∧
          key a ∉ seen ∧ key a ∉ (b :: before).map key ∧
            (firsts key seen (b :: before)).length < n := by
      constructor
      · rintro ⟨before, after, hl, hseen, hbefore, hlength⟩
        cases before with
        | nil =>
          obtain ⟨rfl, -⟩ := List.cons.inj hl
          exact Or.inl ⟨rfl, hseen, hlength⟩
        | cons c before =>
          obtain ⟨rfl, htail⟩ := List.cons.inj hl
          exact Or.inr ⟨before, after, htail, hseen, hbefore, hlength⟩
      · rintro (⟨rfl, hseen, hn⟩ | ⟨before, after, rfl, hseen, hbefore, hlength⟩)
        · exact ⟨[], l, rfl, hseen, List.not_mem_nil, hn⟩
        · exact ⟨b :: before, after, rfl, hseen, hbefore, hlength⟩
    rw [hcons, firsts]
    by_cases hb : key b ∈ seen
    · rw [if_pos hb, ih]
      have hfirst : ¬ (b = a ∧ key a ∉ seen ∧ 0 < n) := by
        rintro ⟨rfl, hseen, -⟩
        exact hseen hb
      have hrest : ∀ before, firsts key seen (b :: before) = firsts key seen before :=
        fun before => by rw [firsts, if_pos hb]
      simp only [hfirst, false_or, hrest, List.map_cons, List.mem_cons, not_or]
      constructor
      · rintro ⟨before, after, hl, hseen, hbefore, hlength⟩
        refine ⟨before, after, hl, hseen, ⟨?_, hbefore⟩, hlength⟩
        intro heq
        exact hseen (heq ▸ hb)
      · rintro ⟨before, after, hl, hseen, ⟨-, hbefore⟩, hlength⟩
        exact ⟨before, after, hl, hseen, hbefore, hlength⟩
    · rw [if_neg hb]
      have hrest : ∀ before, firsts key seen (b :: before) =
          b :: firsts key (key b :: seen) before := fun before => by rw [firsts, if_neg hb]
      cases n with
      | zero => simp
      | succ n =>
        rw [List.take_succ_cons, List.mem_cons, ih]
        simp only [hrest, List.length_cons, Nat.add_lt_add_iff_right, List.map_cons,
          List.mem_cons, not_or, Nat.zero_lt_succ, and_true]
        constructor
        · rintro (rfl | ⟨before, after, hl, ⟨hnew, hseen⟩, hbefore, hlength⟩)
          · exact Or.inl ⟨rfl, hb⟩
          · exact Or.inr ⟨before, after, hl, hseen, ⟨hnew, hbefore⟩, hlength⟩
        · rintro (⟨rfl, -⟩ | ⟨before, after, hl, hseen, ⟨hnew, hbefore⟩, hlength⟩)
          · exact Or.inl rfl
          · exact Or.inr ⟨before, after, hl, ⟨hnew, hseen⟩, hbefore, hlength⟩

/-- There are as many as there are keys that were not seen before. -/
theorem length_firsts (seen : List κ) (l : List α) :
    (firsts key seen l).length = ((l.map key).toFinset \ seen.toFinset).card := by
  induction l generalizing seen with
  | nil => simp [firsts]
  | cons b l ih =>
    rw [firsts, List.map_cons, List.toFinset_cons]
    split
    case isTrue hb =>
      rw [ih, Finset.insert_sdiff_of_mem _ (List.mem_toFinset.mpr hb)]
    case isFalse hb =>
      have hb' : key b ∉ seen.toFinset := mt List.mem_toFinset.mp hb
      have hrest : (l.map key).toFinset \ (key b :: seen).toFinset =
          ((l.map key).toFinset \ seen.toFinset).erase (key b) := by
        rw [List.toFinset_cons, Finset.sdiff_insert]
      have hsplit : insert (key b) (l.map key).toFinset \ seen.toFinset =
          insert (key b) (((l.map key).toFinset \ seen.toFinset).erase (key b)) := by
        rw [Finset.insert_sdiff_of_notMem _ hb']
        ext k
        by_cases hk : k = key b <;> simp [hk]
      rw [List.length_cons, ih, hrest, hsplit,
        Finset.card_insert_of_notMem (Finset.notMem_erase _ _)]

theorem firsts_eq_nil {l : List α} : firsts key [] l = [] ↔ l = [] := by
  cases l with
  | nil => simp [firsts]
  | cons a l => simp [firsts]

end Firsts

/-- Reading each element succeeds if each of them can be read. -/
theorem mapM_eq_some_iff {β : Type*} {read : α → Option β} {l : List α} {r : List β} :
    l.mapM read = some r ↔ (∀ a ∈ l, (read a).isSome = true) ∧ l.filterMap read = r := by
  induction l generalizing r with
  | nil => simp
  | cons a l ih =>
    rw [List.mapM_cons, List.forall_mem_cons]
    cases hread : read a with
    | none => simp
    | some b =>
      simp only [Option.bind_eq_bind, Option.bind_some, Option.isSome_some, true_and,
        List.filterMap_cons_some hread]
      constructor
      · intro h
        obtain ⟨r, hr, hb⟩ := Option.bind_eq_some_iff.mp h
        obtain ⟨hall, rfl⟩ := ih.mp hr
        exact ⟨hall, Option.some.inj hb⟩
      · rintro ⟨hall, rfl⟩
        rw [ih.mpr ⟨hall, rfl⟩]
        rfl

/-- Two lists that go on differently behind a common front, where a property tells the
front from the rest, have the same elements with it among the first few. -/
theorem filter_take_append {p : α → Bool} {front back : List α} (hfront : ∀ a ∈ front, p a = true)
    (hback : ∀ a ∈ back, p a = false) (n : ℕ) :
    ((front ++ back).take n).filter p = front.take n := by
  rw [List.take_append, List.filter_append]
  have hnone : (back.take (n - front.length)).filter p = [] := by
    rw [List.filter_eq_nil_iff]
    intro a ha
    simp [hback a (List.mem_of_mem_take ha)]
  rw [hnone, List.append_nil, List.filter_eq_self]
  exact fun a ha => hfront a (List.mem_of_mem_take ha)

end Raglogs.BoundedScans

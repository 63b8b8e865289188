import Raglogs.Collections
import Mathlib.Logic.Function.Basic
import Mathlib.Logic.Relation
import Mathlib.Tactic.ByContra

/-!
Union-find with path halving, over an arbitrary type of nodes. The parent
pointers are the whole state of the algorithm; the rank is carried beside them
only to say that no walk along the pointers returns to where it was, and every
walk ends because the rank drops. A run of unions represents the equivalence
generated by its pairs, in whatever order they came.
-/

namespace Raglogs.UnionFind

open Collections

variable {α : Type*} [DecidableEq α]

/-- Parent pointers without cycles: off the roots the rank drops at every step. -/
structure Forest (α : Type*) where
  parent : α → α
  rank : α → ℕ
  rank_lt : ∀ x, parent x ≠ x → rank (parent x) < rank x

namespace Forest

/-- Every node its own root. -/
def discrete : Forest α where
  parent := id
  rank _ := 0
  rank_lt _ h := absurd rfl h

theorem rank_parent_le (f : Forest α) (x : α) : f.rank (f.parent x) ≤ f.rank x := by
  by_cases h : f.parent x = x
  · rw [h]
  · exact Nat.le_of_lt (f.rank_lt x h)

theorem rank_grandparent_lt (f : Forest α) {x : α} (h : f.parent x ≠ x) :
    f.rank (f.parent (f.parent x)) < f.rank x :=
  Nat.lt_of_le_of_lt (f.rank_parent_le (f.parent x)) (f.rank_lt x h)

/-- The end of the walk from a node. -/
def root (f : Forest α) (x : α) : α :=
  if f.parent x = x then x else f.root (f.parent x)
termination_by f.rank x
decreasing_by exact f.rank_lt x ‹_›

theorem root_of_parent_eq (f : Forest α) {x : α} (h : f.parent x = x) : f.root x = x := by
  rw [root, if_pos h]

theorem root_parent (f : Forest α) (x : α) : f.root (f.parent x) = f.root x := by
  by_cases h : f.parent x = x
  · rw [h]
  · rw [root.eq_1 f x, if_neg h]

theorem parent_root (f : Forest α) (x : α) : f.parent (f.root x) = f.root x := by
  induction hr : f.rank x using Nat.strong_induction_on generalizing x with
  | _ n ih =>
    subst hr
    by_cases h : f.parent x = x
    · rw [f.root_of_parent_eq h, h]
    · rw [← f.root_parent x]
      exact ih _ (f.rank_lt x h) _ rfl

theorem root_root (f : Forest α) (x : α) : f.root (f.root x) = f.root x :=
  f.root_of_parent_eq (f.parent_root x)

/-- A labelling that the pointers preserve and that fixes the roots is `root`. -/
theorem root_unique (f : Forest α) (ρ : α → α) (hstep : ∀ x, ρ (f.parent x) = ρ x)
    (hroot : ∀ x, f.parent x = x → ρ x = x) (x : α) : f.root x = ρ x := by
  induction hr : f.rank x using Nat.strong_induction_on generalizing x with
  | _ n ih =>
    subst hr
    by_cases h : f.parent x = x
    · rw [f.root_of_parent_eq h, hroot x h]
    · rw [← f.root_parent x, ih _ (f.rank_lt x h) _ rfl, hstep]

@[simp]
theorem root_discrete (x : α) : (discrete : Forest α).root x = x :=
  root_of_parent_eq _ rfl

/-! Finding with path halving. -/

/-- Point a node at its grandparent. -/
def halve (f : Forest α) (x : α) : Forest α where
  parent := Function.update f.parent x (f.parent (f.parent x))
  rank := f.rank
  rank_lt y hy := by
    by_cases hyx : y = x
    · subst hyx
      rw [Function.update_self] at hy ⊢
      refine f.rank_grandparent_lt ?_
      intro h
      rw [h, h] at hy
      exact hy rfl
    · rw [Function.update_of_ne hyx] at hy ⊢
      exact f.rank_lt y hy

/-- Halving a path moves no node to another tree. -/
@[simp]
theorem root_halve (f : Forest α) (x y : α) : (f.halve x).root y = f.root y := by
  refine root_unique _ f.root ?_ ?_ y
  · intro z
    by_cases hzx : z = x
    · subst hzx
      simp only [halve, Function.update_self, root_parent]
    · simp only [halve, Function.update_of_ne hzx, root_parent]
  · intro z hz
    by_cases hzx : z = x
    · subst hzx
      simp only [halve, Function.update_self] at hz
      by_contra hne
      have hparent : f.parent z ≠ z := fun h => hne (f.root_of_parent_eq h)
      have hlt := f.rank_grandparent_lt hparent
      rw [hz] at hlt
      omega
    · simp only [halve, Function.update_of_ne hzx] at hz
      exact f.root_of_parent_eq hz

/-- The walk of the source: halve the path and step to the grandparent. -/
def find (f : Forest α) (x : α) : Forest α × α :=
  if f.parent x = x then (f, x) else (f.halve x).find (f.parent (f.parent x))
termination_by f.rank x
decreasing_by exact f.rank_grandparent_lt ‹_›

/-- Finding returns the root and leaves every root where it was. -/
theorem find_spec (f : Forest α) (x : α) :
    (f.find x).2 = f.root x ∧ ∀ y, (f.find x).1.root y = f.root y := by
  induction hr : f.rank x using Nat.strong_induction_on generalizing f x with
  | _ n ih =>
    subst hr
    rw [find]
    by_cases h : f.parent x = x
    · rw [if_pos h]
      exact ⟨(f.root_of_parent_eq h).symm, fun _ => rfl⟩
    · rw [if_neg h]
      obtain ⟨hfound, hkept⟩ := ih _ (f.rank_grandparent_lt h) (f.halve x)
        (f.parent (f.parent x)) rfl
      refine ⟨?_, fun y => (hkept y).trans (f.root_halve x y)⟩
      rw [hfound, root_halve, root_parent, root_parent]

@[simp]
theorem find_snd (f : Forest α) (x : α) : (f.find x).2 = f.root x := (f.find_spec x).1

@[simp]
theorem root_find_fst (f : Forest α) (x y : α) : (f.find x).1.root y = f.root y :=
  (f.find_spec x).2 y

theorem parent_find (f : Forest α) (x : α) :
    (f.find x).1.parent (f.find x).2 = (f.find x).2 := by
  have hroot : (f.find x).2 = (f.find x).1.root x := by rw [find_snd, root_find_fst]
  rw [hroot]
  exact parent_root _ x

/-! Linking two roots. -/

/-- Hang the tree of one root under a node of another tree. -/
def link (f : Forest α) (ra rb : α) (hb : f.parent rb = rb) (hne : f.root ra ≠ rb) :
    Forest α where
  parent := Function.update f.parent rb ra
  rank y := if f.root y = rb then f.rank y + f.rank ra + 1 else f.rank y
  rank_lt y hy := by
    by_cases hyb : y = rb
    · subst hyb
      rw [Function.update_self, if_neg hne, if_pos (f.root_of_parent_eq hb)]
      omega
    · rw [Function.update_of_ne hyb] at hy ⊢
      rw [f.root_parent]
      have hlt := f.rank_lt y hy
      split <;> omega

theorem root_link (f : Forest α) {ra rb : α} (hb : f.parent rb = rb) (hne : f.root ra ≠ rb)
    (y : α) :
    (f.link ra rb hb hne).root y = if f.root y = rb then f.root ra else f.root y := by
  refine root_unique _ (fun y => if f.root y = rb then f.root ra else f.root y) ?_ ?_ y
  · intro z
    by_cases hzb : z = rb
    · subst hzb
      simp only [link, Function.update_self]
      rw [if_neg hne, if_pos (f.root_of_parent_eq hb)]
    · simp only [link, Function.update_of_ne hzb, root_parent]
  · intro z hz
    by_cases hzb : z = rb
    · subst hzb
      simp only [link, Function.update_self] at hz
      subst hz
      exact absurd (f.root_of_parent_eq hb) hne
    · simp only [link, Function.update_of_ne hzb] at hz
      have hroot := f.root_of_parent_eq hz
      simp only [hroot, hzb, if_false]

/-- Join the trees of two nodes; false when they share one already. -/
def union (f : Forest α) (a b : α) : Forest α × Bool :=
  let fa := f.find a
  let fb := fa.1.find b
  if h : fa.2 = fb.2 then (fb.1, false)
  else (fb.1.link fa.2 fb.2
    (fa.1.parent_find b) (by simpa [fa, fb, root_root] using h), true)

theorem union_spec (f : Forest α) (a b : α) :
    ((f.union a b).2 = true ↔ f.root a ≠ f.root b) ∧
      ∀ y, (f.union a b).1.root y = if f.root y = f.root b then f.root a else f.root y := by
  unfold union
  simp only
  by_cases h : f.root a = f.root b
  · have hfound : (f.find a).2 = ((f.find a).1.find b).2 := by simpa using h
    rw [dif_pos hfound]
    refine ⟨by simp [h], ?_⟩
    intro y
    simp only [root_find_fst]
    split
    · rename_i hy
      rw [hy, h]
    · rfl
  · have hfound : ¬ (f.find a).2 = ((f.find a).1.find b).2 := by simpa using h
    rw [dif_neg hfound]
    refine ⟨by simp [h], ?_⟩
    intro y
    rw [root_link]
    simp only [root_find_fst, find_snd, root_root]

/-! The relation a forest represents. -/

/-- Two nodes share a root exactly when the relation connects them. -/
def Represents (f : Forest α) (R : α → α → Prop) : Prop :=
  ∀ x y, f.root x = f.root y ↔ Relation.EqvGen R x y

theorem represents_discrete : (discrete : Forest α).Represents (fun _ _ => False) := by
  intro x y
  simp only [root_discrete]
  constructor
  · rintro rfl
    exact Relation.EqvGen.refl x
  · intro h
    induction h with
    | rel _ _ h => exact h.elim
    | refl => rfl
    | symm _ _ _ ih => exact ih.symm
    | trans _ _ _ _ _ ih₁ ih₂ => exact ih₁.trans ih₂

theorem Represents.congr {f : Forest α} {R S : α → α → Prop} (h : f.Represents R)
    (hRS : ∀ x y, R x y ↔ S x y) : f.Represents S := by
  have : R = S := by
    funext x y
    exact propext (hRS x y)
  rwa [← this]

/-- One union adds one pair to the relation. -/
theorem Represents.union {f : Forest α} {R : α → α → Prop} (h : f.Represents R) (a b : α) :
    (f.union a b).1.Represents (fun x y => R x y ∨ (x = a ∧ y = b)) := by
  have hroot := (f.union_spec a b).2
  have hlift : ∀ {x y}, Relation.EqvGen R x y →
      Relation.EqvGen (fun x y => R x y ∨ (x = a ∧ y = b)) x y :=
    fun hxy => Relation.EqvGen.mono (fun _ _ h => Or.inl h) _ _ hxy
  have hab : Relation.EqvGen (fun x y => R x y ∨ (x = a ∧ y = b)) a b :=
    Relation.EqvGen.rel _ _ (Or.inr ⟨rfl, rfl⟩)
  -- every node is connected to one whose old root is its new root
  have hmove : ∀ x, ∃ x', Relation.EqvGen (fun x y => R x y ∨ (x = a ∧ y = b)) x x' ∧
      (f.union a b).1.root x = f.root x' := by
    intro x
    by_cases hx : f.root x = f.root b
    · refine ⟨a, (hlift ((h x b).mp hx)).trans _ _ _ (hab.symm _ _), ?_⟩
      rw [hroot, if_pos hx]
    · refine ⟨x, Relation.EqvGen.refl x, ?_⟩
      rw [hroot, if_neg hx]
  intro x y
  constructor
  · intro hxy
    obtain ⟨x', hx, hx'⟩ := hmove x
    obtain ⟨y', hy, hy'⟩ := hmove y
    have hxy' : Relation.EqvGen R x' y' := (h x' y').mp (by rw [← hx', ← hy', hxy])
    exact (hx.trans _ _ _ (hlift hxy')).trans _ _ _ (hy.symm _ _)
  · intro hxy
    induction hxy with
    | rel x y hxy =>
      rcases hxy with hxy | ⟨rfl, rfl⟩
      · have heq := (h x y).mpr (Relation.EqvGen.rel _ _ hxy)
        rw [hroot, hroot, heq]
      · rw [hroot, hroot, if_pos rfl]
        split <;> rfl
    | refl => rfl
    | symm _ _ _ ih => exact ih.symm
    | trans _ _ _ _ _ ih₁ ih₂ => exact ih₁.trans ih₂

/-! A run of unions. -/

/-- Union a pair that passes the test, remembering whether a union joined two trees. -/
def unionStep (test : α × α → Bool) (s : Forest α × Bool) (p : α × α) : Forest α × Bool :=
  if test p then ((s.1.union p.1 p.2).1, s.2 || (s.1.union p.1 p.2).2) else s

def unionAll (test : α × α → Bool) (f : Forest α) (pairs : List (α × α)) : Forest α × Bool :=
  pairs.foldl (unionStep test) (f, false)

theorem represents_unionStep {test : α × α → Bool} {s : Forest α × Bool} {R : α → α → Prop}
    (h : s.1.Represents R) (p : α × α) :
    (unionStep test s p).1.Represents (fun x y => R x y ∨ ((x, y) = p ∧ test (x, y) = true)) := by
  obtain ⟨a, b⟩ := p
  unfold unionStep
  by_cases ht : test (a, b) = true
  · rw [if_pos ht]
    refine (h.union a b).congr ?_
    intro x y
    rw [Prod.mk.injEq]
    constructor
    · rintro (hxy | ⟨rfl, rfl⟩)
      · exact Or.inl hxy
      · exact Or.inr ⟨⟨rfl, rfl⟩, ht⟩
    · exact Or.imp_right And.left
  · rw [if_neg ht]
    refine h.congr ?_
    intro x y
    rw [Prod.mk.injEq]
    constructor
    · exact Or.inl
    · rintro (hxy | ⟨⟨rfl, rfl⟩, htxy⟩)
      · exact hxy
      · exact absurd htxy ht

theorem represents_foldl {test : α × α → Bool} {s : Forest α × Bool} {R : α → α → Prop}
    (h : s.1.Represents R) (pairs : List (α × α)) :
    (pairs.foldl (unionStep test) s).1.Represents
      (fun x y => R x y ∨ ((x, y) ∈ pairs ∧ test (x, y) = true)) := by
  induction pairs generalizing s R with
  | nil => exact h.congr (by simp)
  | cons p pairs ih =>
    rw [List.foldl_cons]
    refine (ih (represents_unionStep h p)).congr ?_
    intro x y
    rw [List.mem_cons, or_and_right, or_assoc]

/-- After a run from the discrete forest, sharing a root is being connected by the
pairs that passed the test. -/
theorem unionAll_represents (test : α × α → Bool) (pairs : List (α × α)) :
    (unionAll test discrete pairs).1.Represents
      (fun x y => (x, y) ∈ pairs ∧ test (x, y) = true) := by
  have hstart : ((discrete, false) : Forest α × Bool).1.Represents (fun _ _ => False) :=
    represents_discrete
  refine (represents_foldl hstart pairs).congr ?_
  simp

/-- A step that reports no merge has moved no root. -/
theorem root_unionStep {test : α × α → Bool} {s : Forest α × Bool} {p : α × α}
    (h : (unionStep test s p).2 = false) :
    s.2 = false ∧ ∀ x, (unionStep test s p).1.root x = s.1.root x := by
  unfold unionStep at h ⊢
  by_cases ht : test p = true
  · rw [if_pos ht, Bool.or_eq_false_iff] at h
    obtain ⟨hjoined, hmoved⟩ := s.1.union_spec p.1 p.2
    have hsame : s.1.root p.1 = s.1.root p.2 := by
      by_contra hne
      rw [hjoined.mpr hne] at h
      exact Bool.noConfusion h.2
    refine ⟨h.1, fun x => ?_⟩
    rw [if_pos ht, hmoved]
    split
    · rename_i hx
      rw [hx, hsame]
    · rfl
  · rw [if_neg ht] at h ⊢
    exact ⟨h, fun _ => rfl⟩

/-- A run none of whose unions joined two trees has moved no root. -/
theorem root_of_not_merged {test : α × α → Bool} (pairs : List (α × α)) {s : Forest α × Bool}
    (h : (pairs.foldl (unionStep test) s).2 = false) :
    s.2 = false ∧ ∀ x, (pairs.foldl (unionStep test) s).1.root x = s.1.root x := by
  induction pairs generalizing s with
  | nil => exact ⟨h, fun _ => rfl⟩
  | cons p pairs ih =>
    rw [List.foldl_cons] at h ⊢
    obtain ⟨hstep, hroot⟩ := ih h
    obtain ⟨hold, hmoved⟩ := root_unionStep hstep
    exact ⟨hold, fun x => (hroot x).trans (hmoved x)⟩

/-! Collecting the components. -/

/-- Find the root of a node and append the node to the group of the root. -/
def collectStep (s : Forest α × List (α × List α)) (x : α) : Forest α × List (α × List α) :=
  ((s.1.find x).1, appendTo (s.1.find x).2 x s.2)

def components (f : Forest α) (nodes : List α) : List (α × List α) :=
  (nodes.foldl collectStep (f, [])).2

theorem foldl_collectStep (f g : Forest α) (nodes : List α) (groups : List (α × List α))
    (hg : ∀ y, g.root y = f.root y) :
    (nodes.foldl collectStep (g, groups)).2 =
      nodes.foldl (fun groups a => appendTo (f.root a) a groups) groups := by
  induction nodes generalizing g groups with
  | nil => rfl
  | cons x nodes ih =>
    rw [List.foldl_cons, List.foldl_cons, collectStep, find_snd, hg x]
    exact ih _ _ (fun y => (g.root_find_fst x y).trans (hg y))

/-- The halving done on the way does not change the groups. -/
theorem components_eq (f : Forest α) (nodes : List α) :
    f.components nodes = groupOn f.root nodes :=
  foldl_collectStep f f nodes [] (fun _ => rfl)

end Forest

end Raglogs.UnionFind

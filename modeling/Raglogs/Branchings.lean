import Mathlib.Data.Finset.Card
import Mathlib.Logic.Relation

/-!
Nodes with children, where a node may also be missing. The branches from a node all end
after so many steps exactly if none of them comes to a missing node or back to a node,
when that many nodes are there.
-/

namespace Raglogs.Branchings

variable {ν : Type*} {children : ν → Option (List ν)}

/-- Whether all branches from a node end within so many nodes, none of them missing. -/
def ends (children : ν → Option (List ν)) : ℕ → ν → Bool
  | 0, _ => false
  | n + 1, i =>
      match children i with
      | none => false
      | some cs => cs.all (ends children n)

def Child (children : ν → Option (List ν)) (i j : ν) : Prop :=
  ∃ cs, children i = some cs ∧ j ∈ cs

/-- The node can be reached along children. -/
def Below (children : ν → Option (List ν)) : ν → ν → Prop :=
  Relation.ReflTransGen (Child children)

/-- No branch comes to a missing node, and none comes back to a node. -/
structure Sound (children : ν → Option (List ν)) (root : ν) : Prop where
  present : ∀ i, Below children root i → (children i).isSome
  acyclic : ∀ i, Below children root i → ¬ Relation.TransGen (Child children) i i

theorem ends_succ {n : ℕ} {i : ν} : ends children (n + 1) i = true ↔
    ∃ cs, children i = some cs ∧ ∀ j ∈ cs, ends children n j = true := by
  rw [ends]
  cases children i with
  | none => simp
  | some cs => simp

theorem isSome_of_ends {n : ℕ} {i : ν} (h : ends children n i = true) :
    (children i).isSome := by
  cases n with
  | zero => cases h
  | succ n =>
    obtain ⟨cs, hcs, -⟩ := ends_succ.mp h
    rw [hcs]
    rfl

theorem ends_child {n : ℕ} {i j : ν} (h : ends children n i = true) (hij : Child children i j) :
    ∃ k < n, ends children k j = true := by
  cases n with
  | zero => cases h
  | succ n =>
    obtain ⟨cs, hcs, hall⟩ := ends_succ.mp h
    obtain ⟨cs', hcs', hj⟩ := hij
    obtain rfl := Option.some.inj (hcs.symm.trans hcs')
    exact ⟨n, n.lt_succ_self, hall j hj⟩

theorem ends_below {n : ℕ} {i j : ν} (h : ends children n i = true) (hij : Below children i j) :
    ∃ k, ends children k j = true := by
  induction hij with
  | refl => exact ⟨n, h⟩
  | tail _ hchild ih =>
    obtain ⟨k, hk⟩ := ih
    obtain ⟨k', -, hk'⟩ := ends_child hk hchild
    exact ⟨k', hk'⟩

theorem ends_descendant {n : ℕ} {i j : ν} (h : ends children n i = true)
    (hij : Relation.TransGen (Child children) i j) : ∃ k < n, ends children k j = true := by
  induction hij with
  | single hchild => exact ends_child h hchild
  | tail _ hchild ih =>
    obtain ⟨k, hk, hends⟩ := ih
    obtain ⟨k', hk', hends'⟩ := ends_child hends hchild
    exact ⟨k', hk'.trans hk, hends'⟩

/-- A node whose branches end is on none of them again. -/
theorem not_descendant_self {n : ℕ} {i : ν} (h : ends children n i = true) :
    ¬ Relation.TransGen (Child children) i i := by
  intro hcycle
  induction n using Nat.strong_induction_on with
  | _ n ih =>
    obtain ⟨k, hk, hends⟩ := ends_descendant h hcycle
    exact ih k hk hends

theorem sound_of_ends {n : ℕ} {root : ν} (h : ends children n root = true) :
    Sound children root where
  present i hi := by
    obtain ⟨k, hk⟩ := ends_below h hi
    exact isSome_of_ends hk
  acyclic i hi := by
    obtain ⟨k, hk⟩ := ends_below h hi
    exact not_descendant_self hk

theorem Sound.child {i j : ν} (h : Sound children i) (hij : Child children i j) :
    Sound children j where
  present k hk := h.present k (.head hij hk)
  acyclic k hk := h.acyclic k (.head hij hk)

/-- A node does not come again below its children, so that one fewer is left there. -/
theorem ends_of_sound [DecidableEq ν] {n : ℕ} {root : ν} (h : Sound children root)
    {nodes : Finset ν} (hnodes : ∀ i, Below children root i → i ∈ nodes) (hcard : nodes.card ≤ n) :
    ends children n root = true := by
  induction n generalizing root nodes with
  | zero =>
    obtain rfl := Finset.card_eq_zero.mp (Nat.le_zero.mp hcard)
    exact absurd (hnodes root .refl) (Finset.notMem_empty root)
  | succ n ih =>
    obtain ⟨cs, hcs⟩ := Option.isSome_iff_exists.mp (h.present root .refl)
    rw [ends_succ]
    refine ⟨cs, hcs, fun j hj => ?_⟩
    have hchild : Child children root j := ⟨cs, hcs, hj⟩
    have hleft : ∀ i, Below children j i → i ∈ nodes.erase root := by
      intro i hi
      refine Finset.mem_erase.mpr ⟨?_, hnodes i (.head hchild hi)⟩
      rintro rfl
      exact h.acyclic i .refl (.head' hchild hi)
    have hroot := hnodes root .refl
    have hfewer := Finset.card_erase_lt_of_mem hroot
    exact ih (h.child hchild) hleft (by omega)

/-- As many steps as there are nodes decide. -/
theorem ends_iff_sound [DecidableEq ν] {root : ν} {nodes : Finset ν}
    (hnodes : ∀ i, (children i).isSome → i ∈ nodes) :
    ends children nodes.card root = true ↔ Sound children root := by
  refine ⟨sound_of_ends, fun h => ?_⟩
  exact ends_of_sound h (fun i hi => hnodes i (h.present i hi)) le_rfl

end Raglogs.Branchings

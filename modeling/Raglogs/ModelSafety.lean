import Mathlib.Algebra.Order.BigOperators.Group.List
import Mathlib.Algebra.Order.Ring.Rat
import Mathlib.Data.Int.ConditionallyCompleteOrder
import Mathlib.Data.Int.Interval
import Mathlib.Tactic.NormNum
import Raglogs.ModelFileLaws

/-!
When a loaded model is safe: a walk through a tree comes to an end when no branch of the
tree does otherwise, and the rest is a matter of the features and of the range of the
exponential. With what the loader comes upon, this decides whether a file is safe.
-/

namespace Raglogs.ModelFiles

open Branchings Collections Text

section Trees

variable {φ : Type} (F : Floats φ)

def Tree.IsLeaf (t : Tree φ) (i : ℤ) : Prop :=
  ∃ left, item? t.childrenLeft i = some left ∧ left.equalsInt F (-1) = true

def Tree.IsInner (t : Tree φ) (i : ℤ) : Prop :=
  ∃ left, item? t.childrenLeft i = some left ∧ left.equalsInt F (-1) = false

/-- The children of a node; there are none if a part of the node or an index of a child is
missing. -/
def Tree.children (t : Tree φ) (i : ℤ) : Option (List ℤ) :=
  match item? t.childrenLeft i with
  | none => none
  | some left =>
      if left.equalsInt F (-1) then (item? t.value i).map fun _ => []
      else
        match item? t.childrenRight i, item? t.feature i, item? t.threshold i with
        | some right, some _, some _ =>
            left.index.bind fun l => right.index.map fun r => [l, r]
        | _, _, _ => none

/-- A vector leads from a node to a child. -/
def Tree.Goes (t : Tree φ) (x : List φ) (i j : ℤ) : Prop :=
  ∃ left b child, item? t.childrenLeft i = some left ∧ left.equalsInt F (-1) = false ∧
    t.goesLeft F x (.int i) = .ok b ∧
    (if b then some left else item? t.childrenRight i) = some child ∧ child.index = some j

/-- The nodes that a vector leads to. -/
def Tree.Leads (t : Tree φ) (x : List φ) : ℤ → ℤ → Prop := Relation.ReflTransGen (t.Goes F x)

/-- A vector leads to a leaf with a value. -/
def Tree.LeadsTo (t : Tree φ) (x : List φ) (i : ℤ) (v : φ) : Prop :=
  ∃ j, t.Leads F x i j ∧ t.IsLeaf F j ∧ item? t.value j = some v

/-- At each node that a vector leads to, the feature is one of the vector. -/
def Tree.Indexed (t : Tree φ) (x : List φ) (i : ℤ) : Prop :=
  ∀ j, t.Leads F x i j → t.IsInner F j → ∀ f, item? t.feature j = some f →
    ∃ a, item x f = .ok a

theorem item_of_index {α : Type} {xs : List α} {v : Value φ} {i : ℤ} (h : v.index = some i) :
    item xs v = (item? xs i).elim (.error .index) .ok := by
  rw [item, h]

theorem mem_Ico_of_item? {α : Type} {xs : List α} {i : ℤ} {a : α} (h : item? xs i = some a) :
    i ∈ Finset.Ico (-(xs.length : ℤ)) xs.length := by
  rw [Finset.mem_Ico]
  rw [item?] at h
  split at h
  · have hlt := (List.getElem?_eq_some_iff.mp h).1
    omega
  · split at h
    · omega
    · cases h

variable {F} {t : Tree φ} {x : List φ}

theorem leaf_not_inner {i : ℤ} (h : t.IsLeaf F i) : ¬ t.IsInner F i := by
  rintro ⟨left, hleft, hinner⟩
  obtain ⟨left', hleft', hleaf⟩ := h
  obtain rfl := Option.some.inj (hleft.symm.trans hleft')
  rw [hleaf] at hinner
  cases hinner

theorem Tree.Goes.inner {i j : ℤ} (h : t.Goes F x i j) : t.IsInner F i := by
  obtain ⟨left, -, -, hleft, hinner, -⟩ := h
  exact ⟨left, hleft, hinner⟩

/-- A node with all its parts. -/
theorem children_eq_some {i : ℤ} {cs : List ℤ} (h : t.children F i = some cs) :
    (t.IsLeaf F i ∧ ∃ v, item? t.value i = some v) ∨
    ∃ left right f threshold l r, item? t.childrenLeft i = some left ∧
      left.equalsInt F (-1) = false ∧ item? t.childrenRight i = some right ∧
      item? t.feature i = some f ∧ item? t.threshold i = some threshold ∧
      left.index = some l ∧ right.index = some r ∧ cs = [l, r] := by
  rw [Tree.children] at h
  split at h
  · cases h
  · rename_i left hleft
    split at h
    · rename_i hleaf
      obtain ⟨v, hv, -⟩ := Option.map_eq_some_iff.mp h
      exact Or.inl ⟨⟨left, hleft, hleaf⟩, v, hv⟩
    · rename_i hinner
      split at h
      · rename_i right f threshold hright hf hthreshold
        obtain ⟨l, hl, hmap⟩ := Option.bind_eq_some_iff.mp h
        obtain ⟨r, hr, rfl⟩ := Option.map_eq_some_iff.mp hmap
        exact Or.inr ⟨left, right, f, threshold, l, r, hleft, Bool.eq_false_iff.mpr hinner, hright,
          hf, hthreshold, hl, hr, rfl⟩
      · cases h

/-- The nodes of a tree are the indices of its left children, from either end. -/
theorem mem_nodes {i : ℤ} (h : (t.children F i).isSome) :
    i ∈ Finset.Ico (-(t.childrenLeft.length : ℤ)) t.childrenLeft.length := by
  obtain ⟨cs, hcs⟩ := Option.isSome_iff_exists.mp h
  rcases children_eq_some hcs with ⟨⟨left, hleft, -⟩, -⟩ | ⟨left, _, _, _, _, _, hleft, -⟩
  · exact mem_Ico_of_item? hleft
  · exact mem_Ico_of_item? hleft

/-- Twice as many steps as there are nodes. -/
def Tree.steps (t : Tree φ) : ℕ := 2 * t.childrenLeft.length

theorem card_nodes (t : Tree φ) :
    (Finset.Ico (-(t.childrenLeft.length : ℤ)) t.childrenLeft.length).card = t.steps := by
  rw [Int.card_Ico, Tree.steps]
  omega

theorem ends_iff (t : Tree φ) :
    ends (t.children F) t.steps 0 = true ↔ Sound (t.children F) 0 := by
  rw [← card_nodes]
  exact ends_iff_sound fun i hi => mem_nodes hi

/-! Walks. -/

theorem walk_leaf {node : Value φ} {i : ℤ} (hnode : node.index = some i) (h : t.IsLeaf F i)
    (fuel : ℕ) :
    t.walk F x (fuel + 1) node = some ((item? t.value i).elim (.error .index) .ok) := by
  obtain ⟨left, hleft, hleaf⟩ := h
  rw [Tree.walk, item_of_index hnode, hleft]
  simp only [Option.elim_some, hleaf, if_true]
  rw [item_of_index hnode]

theorem goesLeft_of_index {node : Value φ} {i : ℤ} (hnode : node.index = some i) :
    t.goesLeft F x node = t.goesLeft F x (.int i) := by
  have hint : (Value.int i : Value φ).index = some i := rfl
  simp only [Tree.goesLeft, item_of_index hnode, item_of_index hint]

theorem goesLeft_error_or {i : ℤ} {f : Value φ} {b : Bool} (hf : item? t.feature i = some f)
    (h : t.goesLeft F x (.int i) = .ok b) : ∃ a, item x f = .ok a := by
  have hint : (Value.int i : Value φ).index = some i := rfl
  rw [Tree.goesLeft, item_of_index hint, hf] at h
  cases hitem : item x f with
  | ok a => exact ⟨a, rfl⟩
  | error e =>
    change (item x f >>= _) = _ at h
    rw [hitem] at h
    cases h

theorem walk_inner {node : Value φ} {i : ℤ} (hnode : node.index = some i) {left : Value φ}
    (hleft : item? t.childrenLeft i = some left) (hinner : left.equalsInt F (-1) = false)
    (fuel : ℕ) : t.walk F x (fuel + 1) node =
      match t.goesLeft F x (.int i) with
      | .error e => some (.error e)
      | .ok true => t.walk F x fuel left
      | .ok false =>
          match item? t.childrenRight i with
          | none => some (.error .index)
          | some right => t.walk F x fuel right := by
  rw [Tree.walk, item_of_index hnode, hleft]
  simp only [Option.elim_some, hinner, Bool.false_eq_true, if_false, goesLeft_of_index hnode,
    item_of_index hnode]
  cases t.goesLeft F x (.int i) with
  | error e => rfl
  | ok b =>
    cases b with
    | true => rfl
    | false =>
      cases item? t.childrenRight i with
      | none => rfl
      | some right => rfl

/-- Where all branches end, a vector is led to a leaf. -/
theorem walk_of_ends {n : ℕ} {node : Value φ} {i : ℤ} (hnode : node.index = some i)
    (h : ends (t.children F) n i = true) (hindexed : t.Indexed F x i) :
    ∃ v, t.walk F x n node = some (.ok v) ∧ t.LeadsTo F x i v := by
  induction n generalizing node i with
  | zero => cases h
  | succ n ih =>
    obtain ⟨cs, hcs, hall⟩ := ends_succ.mp h
    rcases children_eq_some hcs with ⟨hleaf, v, hv⟩ |
      ⟨left, right, f, threshold, l, r, hleft, hinner, hright, hf, hthreshold, hl, hr, rfl⟩
    · refine ⟨v, ?_, i, .refl, hleaf, hv⟩
      rw [walk_leaf hnode hleaf, hv]
      rfl
    · obtain ⟨a, ha⟩ := hindexed i .refl ⟨left, hleft, hinner⟩ f hf
      have hgoes : t.goesLeft F x (.int i) = .ok (F.le a threshold) := by
        have hint : (Value.int i : Value φ).index = some i := rfl
        rw [Tree.goesLeft, item_of_index hint, hf, item_of_index hint, hthreshold]
        change (item x f >>= _) = _
        rw [ha]
        rfl
      -- the walk goes on at one of the children
      have hnext : ∀ {child : Value φ} {j : ℤ}, child.index = some j → j ∈ [l, r] →
          t.Goes F x i j → ∃ v, t.walk F x n child = some (.ok v) ∧ t.LeadsTo F x i v := by
        intro child j hchild hj hstep
        have hindexed' : t.Indexed F x j := fun k hk => hindexed k (.head hstep hk)
        obtain ⟨v, hwalk, k, hk, hleaf⟩ := ih hchild (hall j hj) hindexed'
        exact ⟨v, hwalk, k, .head hstep hk, hleaf⟩
      rw [walk_inner hnode hleft hinner, hgoes]
      cases hb : F.le a threshold with
      | true =>
        rw [hb] at hgoes
        exact hnext hl (by simp) ⟨left, true, left, hleft, hinner, hgoes, rfl, hl⟩
      | false =>
        rw [hb] at hgoes
        simp only [hright]
        exact hnext hr (by simp) ⟨left, false, right, hleft, hinner, hgoes, hright, hr⟩

/-- A walk that comes to a value had all features it needed, and leads nowhere else. -/
theorem leads_of_walk {fuel : ℕ} {node : Value φ} {i : ℤ} {v : φ} (hnode : node.index = some i)
    (h : t.walk F x fuel node = some (.ok v)) :
    t.Indexed F x i ∧ ∀ w, t.LeadsTo F x i w → w = v := by
  induction fuel generalizing node i with
  | zero => cases h
  | succ fuel ih =>
    cases hleft : item? t.childrenLeft i with
    | none =>
      rw [Tree.walk, item_of_index hnode, hleft] at h
      cases h
    | some left =>
      cases hinner : left.equalsInt F (-1) with
      | true =>
        have hleaf : t.IsLeaf F i := ⟨left, hleft, hinner⟩
        have hstays : ∀ j, t.Leads F x i j → j = i := by
          intro j hj
          rcases Relation.ReflTransGen.cases_head hj with rfl | ⟨k, hk, -⟩
          · rfl
          · exact absurd hk.inner (leaf_not_inner hleaf)
        rw [walk_leaf hnode hleaf] at h
        constructor
        · intro j hj hjinner
          rw [hstays j hj] at hjinner
          exact absurd hjinner (leaf_not_inner hleaf)
        · rintro w ⟨j, hj, -, hw⟩
          rw [hstays j hj] at hw
          rw [hw] at h
          exact Except.ok.inj (Option.some.inj h)
      | false =>
        rw [walk_inner hnode hleft hinner] at h
        cases hgoes : t.goesLeft F x (.int i) with
        | error e =>
          rw [hgoes] at h
          cases h
        | ok b =>
          rw [hgoes] at h
          -- wherever the vector goes from here, the walk goes too
          have hnext : ∀ j, t.Goes F x i j →
              t.Indexed F x j ∧ ∀ w, t.LeadsTo F x j w → w = v := by
            rintro j ⟨left', b', child, hleft', -, hgoes', hchild, hj⟩
            obtain rfl := Option.some.inj (hleft.symm.trans hleft')
            obtain rfl := Except.ok.inj (hgoes.symm.trans hgoes')
            cases b with
            | true =>
              obtain rfl := Option.some.inj hchild
              exact ih hj h
            | false =>
              simp only [Bool.false_eq_true, if_false] at hchild
              rw [hchild] at h
              exact ih hj h
          constructor
          · intro j hj hjinner f hf
            rcases Relation.ReflTransGen.cases_head hj with rfl | ⟨k, hk, hkj⟩
            · exact goesLeft_error_or hf hgoes
            · exact (hnext k hk).1 j hkj hjinner f hf
          · rintro w ⟨j, hj, hjleaf, hw⟩
            rcases Relation.ReflTransGen.cases_head hj with rfl | ⟨k, hk, hkj⟩
            · exact absurd ⟨left, hleft, hinner⟩ (leaf_not_inner hjleaf)
            · exact (hnext k hk).2 w ⟨j, hkj, hjleaf, hw⟩

end Trees

/-! Scores. -/

section Scores

/-- Two lists in step with a third one by relations that relate an element once. -/
theorem eq_of_forall₂ {α β : Type} {r r' : α → β → Prop} {l : List α} {bs bs' : List β}
    (h : List.Forall₂ r l bs) (h' : List.Forall₂ r' l bs')
    (hunique : ∀ a b b', r a b → r' a b' → b = b') : bs = bs' := by
  induction h generalizing bs' with
  | nil =>
    cases h'
    rfl
  | cons hab _ ih =>
    cases h' with
    | cons hab' hrest => rw [hunique _ _ _ hab hab', ih hrest]

variable {φ : Type} (F : Floats φ)

theorem sigmoid_ok_iff (d : φ) : (∃ p, sigmoid F d = .ok p) ↔ (F.exp (F.neg d)).isSome := by
  rw [sigmoid]
  cases he : F.exp (F.neg d) with
  | none => exact iff_of_false (fun ⟨p, hp⟩ => nomatch hp) (by simp)
  | some e =>
    obtain ⟨p, hp⟩ := Option.isSome_iff_exists.mp (F.div_exp (F.ofCount 1) (F.neg d) e he)
    exact iff_of_true ⟨p, by simp only [hp, Option.elim_some]⟩ rfl

theorem predictAll_eq_ok {fuel : ℕ} {x : List φ} {trees : List (Tree φ)} {vs : List φ} :
    predictAll F fuel x trees = some (.ok vs) ↔
      List.Forall₂ (fun t v => t.predict F fuel x = some (.ok v)) trees vs := by
  induction trees generalizing vs with
  | nil =>
    rw [predictAll, List.forall₂_nil_left_iff]
    constructor
    · intro h
      exact (Except.ok.inj (Option.some.inj h)).symm
    · rintro rfl
      rfl
  | cons t trees ih =>
    rw [predictAll]
    constructor
    · intro h
      split at h
      · cases h
      · cases h
      · rename_i v hv
        obtain ⟨r, hr, hmap⟩ := Option.map_eq_some_iff.mp h
        cases r with
        | error e => cases hmap
        | ok ws =>
          obtain rfl := Except.ok.inj hmap
          exact List.Forall₂.cons hv (ih.mp hr)
    · intro h
      cases h with
      | cons hv hrest =>
        rw [hv]
        dsimp only
        rw [ih.mpr hrest]
        rfl

theorem scoreVector_eq_ok {m : RcaRanker φ} {fuel : ℕ} {x : List φ} :
    (∃ p, m.scoreVector F fuel x = some (.ok p)) ↔
      ∃ vs, predictAll F fuel x m.trees = some (.ok vs) ∧
        (F.exp (F.neg (m.decision F vs))).isSome := by
  rw [RcaRanker.scoreVector]
  constructor
  · rintro ⟨p, hp⟩
    obtain ⟨r, hr, hbind⟩ := Option.map_eq_some_iff.mp hp
    cases r with
    | error e => cases hbind
    | ok vs => exact ⟨vs, hr, (sigmoid_ok_iff F _).mp ⟨p, hbind⟩⟩
  · rintro ⟨vs, hvs, hrange⟩
    obtain ⟨p, hp⟩ := (sigmoid_ok_iff F _).mpr hrange
    refine ⟨p, ?_⟩
    rw [hvs, Option.map_some]
    exact congrArg some hp

/-- The features of the vector are fields. -/
def Named (names : List (Value φ)) : Prop := ∀ name ∈ names, ∃ s ∈ featureNames, name = .str s

theorem attribute_featureName (sf : ServiceFeatures φ) {name : String}
    (h : name ∈ featureNames) : ∃ v, sf.attribute F (.str name) = .ok v := by
  simp only [featureNames, List.mem_cons, List.not_mem_nil, or_false] at h
  rcases h with rfl | rfl | rfl | rfl | rfl | rfl | rfl | rfl | rfl <;> exact ⟨_, rfl⟩

theorem number_eq_none (sf : ServiceFeatures φ) {name : String} (h : name ∉ featureNames) :
    sf.number F name = none := by
  simp only [featureNames, List.mem_cons, List.not_mem_nil, or_false, not_or] at h
  unfold ServiceFeatures.number
  split <;> simp_all

/-- A service with an empty name, whose name is no number. -/
def unnamedService : ServiceFeatures φ where
  service := ""
  logErr := 0
  logGrp := 0
  logStack := 0
  trRate := F.ofCount 0
  trDur := F.ofCount 0
  metAnom := F.ofCount 0
  hasLogs := false
  hasTraces := false
  hasMetrics := false

/-- The attributes of the nameless service that are numbers are fields. -/
theorem attribute_unnamed {name : Value φ} {v : φ}
    (h : (unnamedService F).attribute F name = .ok v) : ∃ s ∈ featureNames, name = .str s := by
  unfold ServiceFeatures.attribute at h
  split at h
  · change (F.ofString "").elim (Except.error PyError.value) Except.ok = .ok v at h
    rw [F.ofString_empty] at h
    cases h
  · rename_i s _
    refine ⟨s, ?_, rfl⟩
    by_contra hs
    rw [number_eq_none F _ hs] at h
    cases h
  · cases h

theorem vector_ok_iff {names : List (Value φ)} :
    (∀ sf : ServiceFeatures φ, ∃ x, sf.vector F names = .ok x) ↔ Named names := by
  constructor
  · intro h name hname
    obtain ⟨x, hx⟩ := h (unnamedService F)
    have hne : names ≠ [] := List.ne_nil_of_mem hname
    rw [ServiceFeatures.vector, if_neg hne, mapM_eq_ok_iff] at hx
    obtain ⟨v, -, hv⟩ := exists_source hx.flip hname
    exact attribute_unnamed F hv
  · intro h sf
    have hnamed : Named (if names = [] then featureNames.map .str else names : List (Value φ)) := by
      split
      · intro name hname
        obtain ⟨s, hs, rfl⟩ := List.mem_map.mp hname
        exact ⟨s, hs, rfl⟩
      · exact h
    have hall : ∀ name ∈ (if names = [] then featureNames.map .str else names : List (Value φ)),
        ∃ v, sf.attribute F name = .ok v ∧ () = () := by
      intro name hname
      obtain ⟨s, hs, rfl⟩ := hnamed name hname
      obtain ⟨v, hv⟩ := attribute_featureName F sf hs
      exact ⟨v, hv, rfl⟩
    obtain ⟨x, hx, -⟩ := mapM_exists hall
    exact ⟨x, hx⟩

/-- What is asked of a ranker. -/
structure RcaRanker.Safe (m : RcaRanker φ) : Prop where
  scores : ∀ sf : ServiceFeatures φ, ∃ fuel p, m.score F fuel sf = some (.ok p)
  branches : ∀ t ∈ m.trees, Sound (t.children F) 0

/-- What a ranker has to be for that. -/
structure RcaRanker.Fits (m : RcaRanker φ) : Prop where
  named : Named m.featureNames
  ends : ∀ t ∈ m.trees, ends (t.children F) t.steps 0 = true
  indexed : ∀ (sf : ServiceFeatures φ) x, sf.vector F m.featureNames = .ok x →
    ∀ t ∈ m.trees, t.Indexed F x 0
  inRange : ∀ (sf : ServiceFeatures φ) x, sf.vector F m.featureNames = .ok x →
    ∀ vs, List.Forall₂ (fun t v => t.LeadsTo F x 0 v) m.trees vs →
      (F.exp (F.neg (m.decision F vs))).isSome

/-- Steps that suffice for each of some trees. -/
def stepsOf (trees : List (Tree φ)) : ℕ := (trees.map Tree.steps).sum

theorem predictAll_of_ends {x : List φ} {trees : List (Tree φ)}
    (h : ∀ t ∈ trees, Sound (t.children F) 0 ∧ t.Indexed F x 0) :
    ∃ vs, predictAll F (stepsOf trees) x trees = some (.ok vs) ∧
      List.Forall₂ (fun t v => t.LeadsTo F x 0 v) trees vs := by
  have hwalks : ∀ t ∈ trees, ∃ v,
      t.predict F (stepsOf trees) x = some (.ok v) ∧ t.LeadsTo F x 0 v := by
    intro t ht
    obtain ⟨hsound, hindexed⟩ := h t ht
    have hsteps : t.steps ≤ stepsOf trees := List.le_sum_of_mem (List.mem_map_of_mem ht)
    have hends : ends (t.children F) (stepsOf trees) 0 = true :=
      ends_of_sound hsound (fun i hi => mem_nodes (hsound.present i hi))
        ((card_nodes t).le.trans hsteps)
    have hroot : (Value.int 0 : Value φ).index = some 0 := rfl
    exact walk_of_ends hroot hends hindexed
  have : Nonempty φ := ⟨F.ofCount 0⟩
  choose! v hv using hwalks
  refine ⟨trees.map v, (predictAll_eq_ok F).mpr ?_, ?_⟩
  · exact List.forall₂_map_right_iff.mpr (List.forall₂_same.mpr fun t ht => (hv t ht).1)
  · exact List.forall₂_map_right_iff.mpr (List.forall₂_same.mpr fun t ht => (hv t ht).2)

theorem score_of_vector {m : RcaRanker φ} {sf : ServiceFeatures φ} {x : List φ}
    (h : sf.vector F m.featureNames = .ok x) (fuel : ℕ) :
    m.score F fuel sf = m.scoreVector F fuel x := by
  rw [RcaRanker.score, h]

theorem RcaRanker.safe_iff (m : RcaRanker φ) : m.Safe F ↔ m.Fits F := by
  constructor
  · intro h
    have hnamed : Named m.featureNames := by
      refine (vector_ok_iff F).mp fun sf => ?_
      obtain ⟨fuel, p, hp⟩ := h.scores sf
      cases hvector : sf.vector F m.featureNames with
      | error e =>
        rw [RcaRanker.score, hvector] at hp
        cases hp
      | ok x => exact ⟨x, rfl⟩
    have hpredicted : ∀ (sf : ServiceFeatures φ) x, sf.vector F m.featureNames = .ok x →
        ∃ fuel vs, List.Forall₂ (fun t v => t.predict F fuel x = some (.ok v)) m.trees vs ∧
          (F.exp (F.neg (m.decision F vs))).isSome := by
      intro sf x hx
      obtain ⟨fuel, p, hp⟩ := h.scores sf
      rw [score_of_vector F hx] at hp
      obtain ⟨vs, hvs, hrange⟩ := (scoreVector_eq_ok F).mp ⟨p, hp⟩
      exact ⟨fuel, vs, (predictAll_eq_ok F).mp hvs, hrange⟩
    have hroot : (Value.int 0 : Value φ).index = some 0 := rfl
    refine ⟨hnamed, fun t ht => (ends_iff t).mpr (h.branches t ht), ?_, ?_⟩
    · intro sf x hx t ht
      obtain ⟨fuel, vs, hvs, -⟩ := hpredicted sf x hx
      obtain ⟨v, -, hv⟩ := exists_source hvs.flip ht
      exact (leads_of_walk hroot hv).1
    · intro sf x hx ws hws
      obtain ⟨fuel, vs, hvs, hrange⟩ := hpredicted sf x hx
      have hsame : ws = vs :=
        eq_of_forall₂ hws hvs fun t w v hw hv => (leads_of_walk hroot hv).2 w hw
      rw [hsame]
      exact hrange
  · intro h
    have hsound : ∀ t ∈ m.trees, Sound (t.children F) 0 :=
      fun t ht => (ends_iff t).mp (h.ends t ht)
    refine ⟨fun sf => ?_, hsound⟩
    obtain ⟨x, hx⟩ := (vector_ok_iff F).mpr h.named sf
    obtain ⟨vs, hvs, hleads⟩ :=
      predictAll_of_ends F fun t ht => ⟨hsound t ht, h.indexed sf x hx t ht⟩
    obtain ⟨p, hp⟩ := (scoreVector_eq_ok F).mpr ⟨vs, hvs, h.inRange sf x hx vs hleads⟩
    exact ⟨_, p, by rw [score_of_vector F hx, hp]⟩

/-- What is asked of a calibrator. -/
def PlattCalibrator.Safe (c : PlattCalibrator φ) : Prop :=
  ∀ candidates : List (RootCauseCandidate φ), ∃ r, c.confidence F candidates = .ok r

/-- What a calibrator has to be for that. -/
def PlattCalibrator.Fits (c : PlattCalibrator φ) : Prop :=
  ∀ candidates : List (RootCauseCandidate φ), candidates ≠ [] →
    ∀ v, calibrationFeature F candidates c.feature = .ok v →
      (F.exp (F.neg (F.add (F.mul c.a v) c.b))).isSome

theorem exists_calibrationFeature (candidates : List (RootCauseCandidate φ))
    (feature : CalibrationFeature) : ∃ v, calibrationFeature F candidates feature = .ok v := by
  cases feature with
  | topScore => cases candidates <;> exact ⟨_, rfl⟩
  | margin =>
    rcases candidates with _ | ⟨top, _ | ⟨second, rest⟩⟩ <;> exact ⟨_, rfl⟩
  | nCandidates => exact ⟨_, rfl⟩
  | nModalities => cases candidates <;> exact ⟨_, rfl⟩
  | crossModalAgreement =>
    cases candidates with
    | nil => exact ⟨_, rfl⟩
    | cons top rest =>
      simp only [calibrationFeature]
      split
      · exact ⟨_, rfl⟩
      · rename_i hpresent
        obtain ⟨v, hv⟩ := Option.isSome_iff_exists.mp
          (F.div_ofCount (F.ofCount top.modalities.dedup.length) _
            (List.length_pos_iff.mpr hpresent))
        exact ⟨v, by rw [hv, Option.elim_some]⟩

theorem PlattCalibrator.safe_iff (c : PlattCalibrator φ) : c.Safe F ↔ c.Fits F := by
  refine forall_congr' fun candidates => ?_
  cases candidates with
  | nil => exact iff_of_true ⟨none, rfl⟩ fun h => absurd rfl h
  | cons top rest =>
    obtain ⟨v, hv⟩ := exists_calibrationFeature F (top :: rest) c.feature
    have hconfidence : c.confidence F (top :: rest) =
        (c.probability F v >>= fun p => .ok (some p)) := by
      rw [PlattCalibrator.confidence, hv]
      rfl
    rw [hconfidence, PlattCalibrator.probability]
    constructor
    · rintro ⟨r, hr⟩ - v' hv'
      obtain rfl := Except.ok.inj (hv.symm.trans hv')
      refine (sigmoid_ok_iff F _).mp ?_
      cases hs : sigmoid F (F.add (F.mul c.a v) c.b) with
      | error e =>
        rw [hs] at hr
        cases hr
      | ok p => exact ⟨p, rfl⟩
    · intro h
      obtain ⟨p, hp⟩ := (sigmoid_ok_iff F _).mpr (h (by simp) v hv)
      exact ⟨some p, by rw [hp]; rfl⟩

end Scores

/-! Files. -/

section Files

variable {φ μ : Type}

/-- Nothing is raised, and a model that is loaded is safe. -/
def LoadsSafely (loaded : Except PyError (Option μ)) (safe : μ → Prop) : Prop :=
  ∃ found, loaded = .ok found ∧ ∀ m, found = some m → safe m

section Loading

variable {reader : JsonReader φ} {faults : Value φ → List PyError}
  {build : Value φ → Except PyError μ} {fits : μ → Prop}

theorem loadsSafely_none : LoadsSafely (.ok none : Except PyError (Option μ)) fits :=
  ⟨none, rfl, fun _ hm => nomatch hm⟩

theorem loadsSafely_some (m : μ) : LoadsSafely (.ok (some m)) fits ↔ fits m := by
  constructor
  · rintro ⟨found, hfound, hsafe⟩
    obtain rfl := Except.ok.inj hfound
    exact hsafe m rfl
  · intro h
    refine ⟨some m, rfl, fun m' hm' => ?_⟩
    obtain rfl := Option.some.inj hm'
    exact h

theorem loadsSafely_raised (e : PyError) :
    LoadsSafely (if e.caught then .ok none else .error e : Except PyError (Option μ)) fits ↔
      e.caught = true := by
  by_cases he : e.caught = true
  · rw [if_pos he]
    exact iff_of_true loadsSafely_none he
  · rw [if_neg he]
    exact iff_of_false (fun ⟨found, hfound, _⟩ => nomatch hfound) he

/-- What the value of a text has to be. -/
def DataFits (faults : Value φ → List PyError) (build : Value φ → Except PyError μ)
    (fits : μ → Prop) (data : Value φ) : Prop :=
  (∃ fields, data = .dict fields) ∧ (faults data).head? ≠ some .overflow ∧
    ∀ m, build data = .ok m → fits m

/-- What a file has to be to be rejected or safe: its text does not nest too deep, it is an
object, no integer that is too large comes before all else that is amiss, and a model that
is built fits. -/
def FileFits (reader : JsonReader φ) (path : Option String) (file : File)
    (faults : Value φ → List PyError) (build : Value φ → Except PyError μ) (fits : μ → Prop) :
    Prop :=
  ∀ s, truthy path ≠ none → file = .text s → reader.loads s ≠ .error .recursion ∧
    ∀ data, reader.loads s = .ok data → DataFits faults build fits data

variable (hreports : ∀ data, Reports (build data) (faults data))
  (hmild : ∀ fields, ∀ e ∈ faults (.dict fields), Mild e)
  (hobject : ∀ data, (∀ fields, data ≠ .dict fields) → build data = .error .attribute)

include hreports hmild hobject

theorem buildsSafely_iff (data : Value φ) :
    LoadsSafely (match build data with
      | .error e => if e.caught then .ok none else .error e
      | .ok model => .ok (some model)) fits ↔ DataFits faults build fits data := by
  have hdict : build data ≠ .error .attribute → ∃ fields, data = .dict fields := by
    intro hne
    by_contra hno
    exact hne (hobject data fun fields hfields => hno ⟨fields, hfields⟩)
  cases hbuild : build data with
  | error e =>
    dsimp only
    rw [loadsSafely_raised]
    have hhead := (hreports data).error_iff.mp hbuild
    constructor
    · intro hcaught
      refine ⟨hdict ?_, ?_, fun m hm => by rw [hbuild] at hm; cases hm⟩
      · rw [hbuild]
        rintro heq
        cases heq
        cases hcaught
      · rw [hhead]
        rintro heq
        cases heq
        cases hcaught
    · rintro ⟨⟨fields, rfl⟩, hoverflow, -⟩
      rcases hmild fields e (List.mem_of_mem_head? hhead) with hcaught | rfl
      · exact hcaught
      · exact absurd hhead hoverflow
  | ok m =>
    dsimp only
    rw [loadsSafely_some]
    have hclean := (hreports data).ok_iff.mp ⟨m, hbuild⟩
    constructor
    · intro hm
      refine ⟨hdict (by rw [hbuild]; simp), by rw [hclean]; simp, fun m' hm' => ?_⟩
      obtain rfl := Except.ok.inj (hbuild.symm.trans hm')
      exact hm
    · rintro ⟨-, -, hm⟩
      exact hm m hbuild

theorem loadsSafely_iff (path : Option String) (file : File) :
    LoadsSafely (loadModel reader build path file) fits ↔
      FileFits reader path file faults build fits := by
  cases hpath : truthy path with
  | none =>
    simp only [loadModel, hpath]
    exact iff_of_true loadsSafely_none fun s hs => absurd hpath hs
  | some p =>
    simp only [loadModel, hpath]
    have hother : ∀ {other : File}, (∀ s, other ≠ .text s) →
        FileFits reader path other faults build fits := fun h s _ hs => absurd hs (h s)
    cases file with
    | absent => exact iff_of_true loadsSafely_none (hother fun s hs => nomatch hs)
    | unreadable => exact iff_of_true loadsSafely_none (hother fun s hs => nomatch hs)
    | undecodable => exact iff_of_true loadsSafely_none (hother fun s hs => nomatch hs)
    | text s =>
      have hfits : FileFits reader path (.text s) faults build fits ↔
          reader.loads s ≠ .error .recursion ∧
            ∀ data, reader.loads s = .ok data → DataFits faults build fits data := by
        constructor
        · intro h
          exact h s (by rw [hpath]; simp) rfl
        · intro h s' _ hs'
          cases hs'
          exact h
      rw [hfits]
      cases hloads : reader.loads s with
      | error e =>
        simp only [hloads]
        rw [loadsSafely_raised]
        rcases reader.raises s e hloads with rfl | rfl
        · exact iff_of_true rfl ⟨by simp, fun data hdata => nomatch hdata⟩
        · exact iff_of_false (by decide) fun h => h.1 rfl
      | ok data =>
        simp only [hloads]
        refine (buildsSafely_iff hreports hmild hobject data).trans ?_
        constructor
        · intro h
          refine ⟨by simp, fun data' hdata' => ?_⟩
          obtain rfl := Except.ok.inj hdata'
          exact h
        · rintro ⟨-, h⟩
          exact h data rfl

end Loading

theorem get_of_no_object {data : Value φ} (h : ∀ fields, data ≠ .dict fields) (key : String) :
    data.get key = .error .attribute := by
  cases data with
  | dict fields => exact absurd rfl (h fields)
  | null | bool b | int n | float x | str s | list items => rfl

theorem loadRanker_safe_iff (F : Floats φ) (reader : JsonReader φ) (path : Option String)
    (file : File) : LoadsSafely (loadRanker F reader path file) (RcaRanker.Safe F) ↔
      FileFits reader path file (rankerFaults F) (rankerFromDict F) (RcaRanker.Fits F) := by
  have hsafe : RcaRanker.Safe F = RcaRanker.Fits F := funext fun m => propext (m.safe_iff F)
  rw [hsafe]
  refine loadsSafely_iff (reports_ranker F) (mild_rankerFaults F) (fun data hdata => ?_) path file
  rw [rankerFromDict, get_of_no_object hdata]
  rfl

theorem loadCalibrator_safe_iff (F : Floats φ) (reader : JsonReader φ) (path : Option String)
    (file : File) : LoadsSafely (loadCalibrator F reader path file) (PlattCalibrator.Safe F) ↔
      FileFits reader path file (calibratorFaults F) (calibratorFromDict F)
        (PlattCalibrator.Fits F) := by
  have hsafe : PlattCalibrator.Safe F = PlattCalibrator.Fits F :=
    funext fun c => propext (c.safe_iff F)
  rw [hsafe]
  refine loadsSafely_iff (reports_calibrator F) (mild_calibratorFaults F) (fun data hdata => ?_)
    path file
  rw [calibratorFromDict, get_of_no_object hdata]
  rfl

/-- When a file is either rejected or holds a safe model. -/
theorem model_files_safe_iff (F : Floats φ) (reader : JsonReader φ) (path : Option String)
    (file : File) :
    (LoadsSafely (loadRanker F reader path file) (RcaRanker.Safe F) ↔
      FileFits reader path file (rankerFaults F) (rankerFromDict F) (RcaRanker.Fits F)) ∧
    (LoadsSafely (loadCalibrator F reader path file) (PlattCalibrator.Safe F) ↔
      FileFits reader path file (calibratorFaults F) (calibratorFromDict F)
        (PlattCalibrator.Fits F)) :=
  ⟨loadRanker_safe_iff F reader path file, loadCalibrator_safe_iff F reader path file⟩

end Files

/-! A tree whose only node is its own child. -/

def exactFloats : Floats ℚ where
  ofInt n := if n.natAbs < 2 ^ 1024 then some n else none
  ofString _ := none
  ofCount n := n
  equalsInt x n := x = n
  le x y := x ≤ y
  neg x := -x
  add x y := x + y
  sub x y := x - y
  mul x y := x * y
  sum := List.sum
  div x y := if y = 0 then none else some (x / y)
  exp x := if x ≤ 709 then some 1 else none
  ofString_empty := rfl
  div_ofCount x n hn := by
    rw [if_neg (Nat.cast_ne_zero.mpr hn.ne')]
    rfl
  div_exp x y e he := by
    split at he
    · cases he
      rw [if_neg (by norm_num)]
      rfl
    · cases he

def loopTree : Value ℚ :=
  .dict [("children_left", .list [.int 0]), ("children_right", .list [.int 0]),
    ("feature", .list [.int 0]), ("threshold", .list [.float 0]), ("value", .list [.float 0])]

def loopData : Value ℚ :=
  .dict [("version", .int 1), ("feature_names", .list [.str "log_err"]), ("init", .float 0),
    ("learning_rate", .float 1), ("trees", .list [loopTree])]

def loopText : String :=
  "\x7b\"version\": 1, \"feature_names\": [\"log_err\"], \"init\": 0.0, " ++
    "\"learning_rate\": 1.0, \"trees\": [\x7b\"children_left\": [0], " ++
    "\"children_right\": [0], \"feature\": [0], \"threshold\": [0.0], " ++
    "\"value\": [0.0]\x7d]\x7d"

def loopReader : JsonReader ℚ where
  loads text := if text = loopText then .ok loopData else .error .value
  raises text e h := by
    split at h
    · cases h
    · cases h
      exact Or.inl rfl

def loopRanker : RcaRanker ℚ :=
  ⟨[.str "log_err"], 0, 1, [⟨[.int 0], [.int 0], [.int 0], [0], [0]⟩]⟩

theorem loadRanker_loopText :
    loadRanker exactFloats loopReader (some "ranker.json") (.text loopText) =
      .ok (some loopRanker) := by
  have hpath : truthy (some "ranker.json") = some "ranker.json" := rfl
  have hloads : loopReader.loads loopText = .ok loopData := by simp [loopReader]
  have hbuild : rankerFromDict exactFloats loopData = .ok loopRanker := rfl
  simp only [loadRanker, loadModel, hpath, hloads, hbuild]

theorem loop_not_loaded_safely :
    ¬ LoadsSafely (loadRanker exactFloats loopReader (some "ranker.json") (.text loopText))
      (RcaRanker.Safe exactFloats) := by
  rw [loadRanker_loopText, loadsSafely_some]
  intro h
  have hsound := h.branches _ (List.mem_singleton_self _)
  refine hsound.acyclic 0 .refl (.single ⟨[0, 0], ?_, List.mem_cons_self⟩)
  decide

end Raglogs.ModelFiles

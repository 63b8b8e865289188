import Raglogs.Collections
import Mathlib.Algebra.Order.Ring.Nat
import Mathlib.Data.List.FinRange
import Mathlib.Data.List.Flatten
import Mathlib.Data.Multiset.Basic
import Mathlib.Logic.Relation

/-!
A list cut into the classes of a relation. The pieces together are the list, none
is empty, and two elements share a piece exactly when they are related. Whatever
builds the pieces and in whatever order, a value computed from each piece without
looking at its order comes out the same.
-/

namespace Raglogs.Components

open Collections

variable {α β : Type*} {R : α → α → Prop} {l : List α} {groups : List (List α)}

structure ComponentsOf (R : α → α → Prop) (l : List α) (groups : List (List α)) : Prop where
  flatten_perm : groups.flatten.Perm l
  nonempty : ∀ g ∈ groups, g ≠ []
  mem_iff : ∀ g ∈ groups, ∀ a ∈ g, ∀ b ∈ l, b ∈ g ↔ R a b

namespace ComponentsOf

theorem mem_of_mem (h : ComponentsOf R l groups) {g : List α} (hg : g ∈ groups) {a : α}
    (ha : a ∈ g) : a ∈ l :=
  h.flatten_perm.mem_iff.mp (List.mem_flatten.mpr ⟨g, hg, ha⟩)

theorem exists_group (h : ComponentsOf R l groups) {a : α} (ha : a ∈ l) :
    ∃ g ∈ groups, a ∈ g :=
  List.mem_flatten.mp (h.flatten_perm.mem_iff.mpr ha)

theorem congr {S : α → α → Prop} (h : ComponentsOf R l groups) (hRS : ∀ a b, R a b ↔ S a b) :
    ComponentsOf S l groups :=
  ⟨h.flatten_perm, h.nonempty, fun g hg a ha b hb => (h.mem_iff g hg a ha b hb).trans (hRS a b)⟩

/-- The order of the pieces does not matter. -/
theorem of_perm (h : ComponentsOf R l groups) {groups' : List (List α)}
    (hperm : groups'.Perm groups) : ComponentsOf R l groups' :=
  ⟨hperm.flatten.trans h.flatten_perm, fun g hg => h.nonempty g (hperm.mem_iff.mp hg),
    fun g hg => h.mem_iff g (hperm.mem_iff.mp hg)⟩

/-- Unrelated elements are pieces of their own. -/
theorem singletons (h : ∀ a ∈ l, ∀ b ∈ l, R a b ↔ a = b) :
    ComponentsOf R l (l.map (fun a => [a])) where
  flatten_perm := by
    rw [← List.flatMap_def]
    simp
  nonempty := by simp
  mem_iff := by
    intro g hg a ha b hb
    obtain ⟨c, hc, rfl⟩ := List.mem_map.mp hg
    rw [List.mem_singleton] at ha ⊢
    subst ha
    rw [h a hc b hb, eq_comm]

/-- Grouping by a label cuts a list into the classes of sharing the label. -/
theorem of_groupOn {κ : Type*} [DecidableEq κ] (label : α → κ) (l : List α) :
    ComponentsOf (fun a b => label a = label b) l ((groupOn label l).map Prod.snd) where
  flatten_perm := by
    rw [← List.flatMap_def]
    exact groupOn_flatten_perm label l
  nonempty := by
    intro g hg
    obtain ⟨⟨k, g⟩, hmem, rfl⟩ := List.mem_map.mp hg
    exact ((mem_groupOn label l k g).mp hmem).2
  mem_iff := by
    intro g hg a ha b hb
    obtain ⟨⟨k, g⟩, hmem, rfl⟩ := List.mem_map.mp hg
    obtain ⟨rfl, -⟩ := (mem_groupOn label l k g).mp hmem
    simp only [List.mem_filter, decide_eq_true_eq] at ha ⊢
    rw [ha.2, and_iff_right hb, eq_comm]

/-- Pieces of indices are pieces of the elements they stand for. -/
theorem map {S : β → β → Prop} (h : ComponentsOf R l groups) (f : α → β)
    (hf : Function.Injective f) (hRS : ∀ a ∈ l, ∀ b ∈ l, R a b ↔ S (f a) (f b)) :
    ComponentsOf S (l.map f) (groups.map (List.map f)) where
  flatten_perm := by
    rw [← List.map_flatten]
    exact h.flatten_perm.map f
  nonempty := by
    intro g hg
    obtain ⟨g₀, hg₀, rfl⟩ := List.mem_map.mp hg
    simpa using h.nonempty g₀ hg₀
  mem_iff := by
    intro g hg a ha b hb
    obtain ⟨g₀, hg₀, rfl⟩ := List.mem_map.mp hg
    obtain ⟨a₀, ha₀, rfl⟩ := List.mem_map.mp ha
    obtain ⟨b₀, hb₀, rfl⟩ := List.mem_map.mp hb
    rw [List.mem_map_of_injective hf, h.mem_iff g₀ hg₀ a₀ ha₀ b₀ hb₀]
    exact hRS a₀ (h.mem_of_mem hg₀ ha₀) b₀ hb₀

/-- Two cuts of the same elements have the same pieces, up to the order within each. -/
theorem exists_perm (h : ComponentsOf R l groups) (hl : l.Nodup) {l' : List α}
    {groups' : List (List α)} (h' : ComponentsOf R l' groups') (hperm : l.Perm l') {g : List α}
    (hg : g ∈ groups) : ∃ g' ∈ groups', g'.Perm g := by
  obtain ⟨a, ha⟩ := List.exists_mem_of_ne_nil g (h.nonempty g hg)
  obtain ⟨g', hg', ha'⟩ := h'.exists_group (hperm.mem_iff.mp (h.mem_of_mem hg ha))
  have hnd : g.Nodup :=
    (List.nodup_flatten.mp (h.flatten_perm.nodup_iff.mpr hl)).1 g hg
  have hnd' : g'.Nodup :=
    (List.nodup_flatten.mp (h'.flatten_perm.nodup_iff.mpr (hperm.nodup_iff.mp hl))).1 g' hg'
  refine ⟨g', hg', (List.perm_ext_iff_of_nodup hnd' hnd).mpr ?_⟩
  intro b
  by_cases hb : b ∈ l
  · rw [h.mem_iff g hg a ha b hb, h'.mem_iff g' hg' a ha' b (hperm.mem_iff.mp hb)]
  · constructor
    · exact fun hmem => absurd (hperm.mem_iff.mpr (h'.mem_of_mem hg' hmem)) hb
    · exact fun hmem => absurd (h.mem_of_mem hg hmem) hb

theorem multisets_nodup (h : ComponentsOf R l groups) (hl : l.Nodup) :
    (groups.map Multiset.ofList).Nodup := by
  have hdisj := (List.nodup_flatten.mp (h.flatten_perm.nodup_iff.mpr hl)).2
  refine List.pairwise_map.mpr (hdisj.imp_of_mem ?_)
  intro g g' hg _ hgg heq
  obtain ⟨a, ha⟩ := List.exists_mem_of_ne_nil g (h.nonempty g hg)
  exact hgg ha ((Multiset.coe_eq_coe.mp heq).mem_iff.mp ha)

/-- A value that does not look at the order of a piece is computed alike by two cuts. -/
theorem map_perm (h : ComponentsOf R l groups) (hl : l.Nodup) {l' : List α}
    {groups' : List (List α)} (h' : ComponentsOf R l' groups') (hperm : l.Perm l')
    (F : List α → β) (hF : ∀ g ∈ groups, ∀ g', g'.Perm g → F g' = F g) :
    (groups.map F).Perm (groups'.map F) := by
  classical
  have hl' := hperm.nodup_iff.mp hl
  have hsets : (groups.map Multiset.ofList).Perm
      (groups'.map Multiset.ofList) := by
    rw [List.perm_ext_iff_of_nodup (h.multisets_nodup hl) (h'.multisets_nodup hl')]
    intro s
    rw [List.mem_map, List.mem_map]
    constructor
    · rintro ⟨g, hg, rfl⟩
      obtain ⟨g', hg', hgg⟩ := h.exists_perm hl h' hperm hg
      exact ⟨g', hg', Multiset.coe_eq_coe.mpr hgg⟩
    · rintro ⟨g', hg', rfl⟩
      obtain ⟨g, hg, hgg⟩ := h'.exists_perm hl' h hperm.symm hg'
      exact ⟨g, hg, Multiset.coe_eq_coe.mpr hgg⟩
  -- read the value off the set of the piece, through any listing of it
  have hread : ∀ g ∈ groups, F (g : Multiset α).toList = F g := fun g hg =>
    hF g hg _ (Multiset.coe_eq_coe.mp (Multiset.coe_toList _))
  have hread' : ∀ g' ∈ groups', F (g' : Multiset α).toList = F g' := by
    intro g' hg'
    obtain ⟨g, hg, hgg⟩ := h'.exists_perm hl' h hperm.symm hg'
    rw [hF g hg g' hgg.symm]
    exact hF g hg _ ((Multiset.coe_eq_coe.mp (Multiset.coe_toList _)).trans hgg.symm)
  have hmap := hsets.map (fun s => F s.toList)
  simp only [List.map_map, Function.comp_def] at hmap
  rwa [List.map_congr_left hread, List.map_congr_left hread'] at hmap

end ComponentsOf

/-- The pairs are the sublists of two. -/
theorem mem_pairs_iff {l : List α} {a b : α} : (a, b) ∈ pairs l ↔ [a, b].Sublist l := by
  induction l with
  | nil => simp [pairs]
  | cons c rest ih =>
    rw [pairs, List.mem_append, List.mem_map, ih, List.sublist_cons_iff]
    constructor
    · rintro (⟨d, hd, heq⟩ | h)
      · obtain ⟨rfl, rfl⟩ := Prod.mk.inj heq
        exact Or.inr ⟨[d], rfl, List.singleton_sublist.mpr hd⟩
      · exact Or.inl h
    · rintro (h | ⟨r, heq, hr⟩)
      · exact Or.inr h
      · obtain ⟨rfl, rfl⟩ := List.cons.inj heq
        exact Or.inl ⟨b, List.singleton_sublist.mp hr, rfl⟩

/-- A relation between the values of an injection joins the values as its source does. -/
theorem eqvGen_iff_of_injective {f : α → β} (hf : Function.Injective f) {R : α → α → Prop}
    {S : β → β → Prop} (hRS : ∀ a b, R a b → S (f a) (f b))
    (hSR : ∀ x y, S x y → ∃ a b, f a = x ∧ f b = y ∧ R a b) (a b : α) :
    Relation.EqvGen R a b ↔ Relation.EqvGen S (f a) (f b) := by
  constructor
  · intro h
    induction h with
    | rel a b h => exact .rel _ _ (hRS a b h)
    | refl a => exact .refl _
    | symm _ _ _ ih => exact ih.symm
    | trans _ _ _ _ _ ih₁ ih₂ => exact ih₁.trans _ _ _ ih₂
  · -- values that are joined but not equal are joined at their sources
    have hjoined : ∀ x y, Relation.EqvGen S x y →
        x = y ∨ ∃ a b, f a = x ∧ f b = y ∧ Relation.EqvGen R a b := by
      intro x y h
      induction h with
      | rel x y h =>
        obtain ⟨a, b, ha, hb, hR⟩ := hSR x y h
        exact Or.inr ⟨a, b, ha, hb, .rel _ _ hR⟩
      | refl x => exact Or.inl rfl
      | symm x y _ ih =>
        rcases ih with rfl | ⟨a, b, ha, hb, hR⟩
        · exact Or.inl rfl
        · exact Or.inr ⟨b, a, hb, ha, hR.symm⟩
      | trans x y z _ _ ih₁ ih₂ =>
        rcases ih₁ with rfl | ⟨a, b, ha, hb, hR⟩
        · exact ih₂
        rcases ih₂ with rfl | ⟨b', c, hb', hc, hR'⟩
        · exact Or.inr ⟨a, b, ha, hb, hR⟩
        · obtain rfl := hf (hb.trans hb'.symm)
          exact Or.inr ⟨a, c, ha, hc, hR.trans _ _ _ hR'⟩
    intro h
    rcases hjoined _ _ h with heq | ⟨a', b', ha, hb, hR⟩
    · rw [hf heq]
      exact .refl b
    · rwa [← hf ha, ← hf hb]

/-! A list that keeps its pieces together. -/

section Listing

variable {κ : Type*} [DecidableEq κ]

theorem appendTo_append {k : κ} (a : α) {gs : List (κ × List α)} (h : k ∉ gs.map Prod.fst)
    (rest : List (κ × List α)) : appendTo k a (gs ++ rest) = gs ++ appendTo k a rest := by
  induction gs with
  | nil => rfl
  | cons p gs ih =>
    obtain ⟨k', g⟩ := p
    simp only [List.map_cons, List.mem_cons, not_or] at h
    simp [appendTo, Ne.symm h.1, ih h.2]

/-- Elements that share a new key open one group at the end. -/
theorem groupOn_append_new (key : α → κ) {l g : List α} {k : κ} (hne : g ≠ [])
    (hg : ∀ a ∈ g, key a = k) (hl : ∀ a ∈ l, key a ≠ k) :
    groupOn key (l ++ g) = groupOn key l ++ [(k, g)] := by
  have hnew : k ∉ (groupOn key l).map Prod.fst := by
    rw [mem_groupOn_keys]
    rintro ⟨a, ha, hak⟩
    exact hl a ha hak
  induction g using List.reverseRecOn with
  | nil => exact absurd rfl hne
  | append_singleton g a ih =>
    have hstep : groupOn key (l ++ (g ++ [a])) = appendTo k a (groupOn key (l ++ g)) := by
      rw [← List.append_assoc]
      unfold groupOn
      rw [List.foldl_append, ← hg a (by simp)]
      rfl
    rw [hstep]
    by_cases hnil : g = []
    · subst hnil
      have happend := appendTo_append a hnew []
      simpa [appendTo] using happend
    · rw [ih hnil (fun b hb => hg b (List.mem_append_left _ hb)), appendTo_append a hnew]
      simp [appendTo]

/-- Keys that are told apart after renaming give the same groups. -/
theorem groupOn_rename {κ' : Type*} [DecidableEq κ'] (key : α → κ) (rename : κ → κ') {l : List α}
    (h : ∀ a ∈ l, ∀ b ∈ l, rename (key a) = rename (key b) → key a = key b) :
    groupOn (fun a => rename (key a)) l = (groupOn key l).map (fun p => (rename p.1, p.2)) := by
  have happend : ∀ (a : α) (gs : List (κ × List α)),
      (∀ k ∈ gs.map Prod.fst, rename k = rename (key a) → k = key a) →
      appendTo (rename (key a)) a (gs.map (fun p => (rename p.1, p.2))) =
        (appendTo (key a) a gs).map (fun p => (rename p.1, p.2)) := by
    intro a gs
    induction gs with
    | nil => exact fun _ => rfl
    | cons p gs ih =>
      obtain ⟨k, g⟩ := p
      intro hkeys
      rw [List.map_cons, List.forall_mem_cons] at hkeys
      by_cases hk : k = key a
      · simp [appendTo, hk]
      · simp [appendTo, hk, mt hkeys.1 hk, ih hkeys.2]
  induction l using List.reverseRecOn with
  | nil => rfl
  | append_singleton l a ih =>
    have hprefix := ih fun b hb c hc =>
      h b (List.mem_append_left _ hb) c (List.mem_append_left _ hc)
    unfold groupOn at hprefix ⊢
    rw [List.foldl_append, List.foldl_append, hprefix]
    refine happend a _ ?_
    intro k hk heq
    obtain ⟨b, hb, rfl⟩ := (mem_groupOn_keys key l k).mp hk
    exact h b (List.mem_append_left _ hb) a (by simp) heq

/-- Keys that tell the same elements apart cut a list into the same pieces. -/
theorem pieces_congr {κ' : Type*} [DecidableEq κ'] {key : α → κ} {key' : α → κ'} {l : List α}
    (h : ∀ a ∈ l, ∀ b ∈ l, key a = key b ↔ key' a = key' b) :
    (groupOn key l).map Prod.snd = (groupOn key' l).map Prod.snd := by
  have hfirst := groupOn_rename (fun a => (key a, key' a)) Prod.fst
    (fun a ha b hb heq => Prod.ext heq ((h a ha b hb).mp heq))
  have hsecond := groupOn_rename (fun a => (key a, key' a)) Prod.snd
    (fun a ha b hb heq => Prod.ext ((h a ha b hb).mpr heq) heq)
  dsimp only at hfirst hsecond
  rw [hfirst, hsecond, List.map_map, List.map_map]
  rfl

/-- Elements with keys of their own are pieces of their own. -/
theorem pieces_singletons {key : α → κ} {l : List α} (hl : l.Nodup)
    (h : ∀ a ∈ l, ∀ b ∈ l, key a = key b → a = b) :
    (groupOn key l).map Prod.snd = l.map (fun a => [a]) := by
  induction l using List.reverseRecOn with
  | nil => rfl
  | append_singleton l a ih =>
    obtain ⟨hnd, -, hnew⟩ := List.nodup_append.mp hl
    have hkey : ∀ b ∈ l, key b ≠ key a := fun b hb heq =>
      hnew b hb a (by simp) (h b (List.mem_append_left _ hb) a (by simp) heq)
    rw [groupOn_append_new key (List.cons_ne_nil a []) (by simp) hkey, List.map_append,
      List.map_append, ih hnd fun b hb c hc =>
        h b (List.mem_append_left _ hb) c (List.mem_append_left _ hc)]
    rfl

theorem mem_of_mem_appendTo {k : κ} {c : α} {gs : List (κ × List α)} {q : κ × List α}
    (hq : q ∈ appendTo k c gs) {b : α} (hb : b ∈ q.2) : b = c ∨ ∃ q' ∈ gs, b ∈ q'.2 := by
  have hflat : b ∈ (appendTo k c gs).flatMap Prod.snd := List.mem_flatMap.mpr ⟨q, hq, hb⟩
  rw [(appendTo_flatten_perm k c gs).mem_iff, List.mem_append, List.mem_singleton,
    List.mem_flatMap] at hflat
  exact hflat.symm

/-- Groups follow one another as their first members do. -/
theorem groupOn_pairwise {r : α → α → Prop} (key : α → κ) {l : List α} (hl : l.Pairwise r) :
    (groupOn key l).Pairwise (fun p q => ∀ b ∈ q.2, ∃ a ∈ p.2, r a b) := by
  have happend : ∀ (k : κ) (c : α) (gs : List (κ × List α)), (∀ p ∈ gs, ∃ a ∈ p.2, r a c) →
      gs.Pairwise (fun p q => ∀ b ∈ q.2, ∃ a ∈ p.2, r a b) →
      (appendTo k c gs).Pairwise (fun p q => ∀ b ∈ q.2, ∃ a ∈ p.2, r a b) := by
    intro k c gs
    induction gs with
    | nil => exact fun _ _ => List.pairwise_singleton _ _
    | cons p gs ih =>
      intro hlast hgs
      rw [List.forall_mem_cons] at hlast
      rw [List.pairwise_cons] at hgs
      by_cases hk : p.1 = k
      · rw [appendTo, if_pos hk, List.pairwise_cons]
        refine ⟨fun q hq b hb => ?_, hgs.2⟩
        obtain ⟨a, ha, hab⟩ := hgs.1 q hq b hb
        exact ⟨a, List.mem_append_left _ ha, hab⟩
      · rw [appendTo, if_neg hk, List.pairwise_cons]
        refine ⟨fun q hq b hb => ?_, ih hlast.2 hgs.2⟩
        rcases mem_of_mem_appendTo hq hb with rfl | ⟨q', hq', hb'⟩
        · exact hlast.1
        · exact hgs.1 q' hq' b hb'
  induction l using List.reverseRecOn with
  | nil => exact List.Pairwise.nil
  | append_singleton l c ih =>
    obtain ⟨hl, -, hlast⟩ := List.pairwise_append.mp hl
    have hgroup : groupOn key (l ++ [c]) = appendTo (key c) c (groupOn key l) := by
      unfold groupOn
      rw [List.foldl_append]
      rfl
    rw [hgroup]
    refine happend _ _ _ ?_ (ih hl)
    intro p hp
    obtain ⟨hfilter, hne⟩ := (mem_groupOn key l p.1 p.2).mp hp
    obtain ⟨a, ha⟩ := List.exists_mem_of_ne_nil _ hne
    exact ⟨a, ha, hlast a (List.mem_of_mem_filter (hfilter ▸ ha)) c (by simp)⟩

/-- Groups of indices are already in the order of their least members. -/
theorem sortOn_groupOn_finRange {n : ℕ} (key : Fin n → κ) :
    sortOn (fun p => ((p.2.map Fin.val).min?).getD 0) (groupOn key (List.finRange n)) =
      groupOn key (List.finRange n) := by
  apply List.Pairwise.insertionSort_eq
  have hpw := groupOn_pairwise key (List.pairwise_lt_finRange n)
  refine hpw.imp_of_mem ?_
  intro p q hp hq hlt
  have hleast : ∀ p ∈ groupOn key (List.finRange n), ∃ i ∈ p.2,
      (p.2.map Fin.val).min? = some i.val := by
    intro p hp
    obtain ⟨i, hi⟩ := List.exists_mem_of_ne_nil p.2 ((mem_groupOn key _ p.1 p.2).mp hp).2
    obtain ⟨k, hk⟩ := Option.isSome_iff_exists.mp
      (List.isSome_min?_of_mem (List.mem_map_of_mem hi : i.val ∈ p.2.map Fin.val))
    obtain ⟨j, hj, rfl⟩ := List.mem_map.mp (List.min?_eq_some_iff.mp hk).1
    exact ⟨j, hj, hk⟩
  obtain ⟨i, hi, hpmin⟩ := hleast p hp
  obtain ⟨j, hj, hqmin⟩ := hleast q hq
  obtain ⟨i', hi', hij⟩ := hlt j hj
  have hle : i.val ≤ i'.val := (List.min?_eq_some_iff.mp hpmin).2 _ (List.mem_map_of_mem hi')
  simp only [hpmin, hqmin, Option.getD_some]
  exact le_trans hle hij.le

end Listing

/-! One value for each piece. -/

theorem sum_of_forall₂ {f : α → ℕ} {out : List α}
    (h : List.Forall₂ (fun g m => f m = (g.map f).sum) groups out) :
    (out.map f).sum = (groups.flatten.map f).sum := by
  induction h with
  | nil => rfl
  | cons hm _ ih =>
    rw [List.map_cons, List.sum_cons, hm, ih, List.flatten_cons, List.map_append,
      List.sum_append]

theorem flatMap_perm_of_forall₂ {γ : Type*} {f : β → List γ} {e : α → List γ} {out : List β}
    (h : List.Forall₂ (fun g m => (f m).Perm (g.flatMap e)) groups out) :
    (out.flatMap f).Perm (groups.flatten.flatMap e) := by
  induction h with
  | nil => exact List.Perm.refl _
  | cons hm _ ih =>
    rw [List.flatMap_cons, List.flatten_cons, List.flatMap_append]
    exact hm.append ih

theorem forall₂_flatMap_of_singletons {r : List α → β → Prop} {F : List α → List β}
    (h : ∀ g ∈ groups, ∃ m, F g = [m] ∧ r g m) :
    List.Forall₂ r groups (groups.flatMap F) := by
  induction groups with
  | nil => exact List.Forall₂.nil
  | cons g groups ih =>
    obtain ⟨m, hm, hr⟩ := h g List.mem_cons_self
    rw [List.flatMap_cons, hm]
    exact List.Forall₂.cons hr (ih fun g' hg' => h g' (List.mem_cons_of_mem g hg'))

end Raglogs.Components

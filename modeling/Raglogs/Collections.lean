import Mathlib.Data.List.Induction
import Mathlib.Data.List.Sort
import Mathlib.Data.List.Nodup
import Mathlib.Data.List.Perm.Basic
import Mathlib.Order.MinMax
import Mathlib.Tactic.Tauto

/-!
Sorted and grouped lists, over arbitrary types. `sortOn` is a stable sort by a
key in a linear order. `groupOn` is the dict-of-lists idiom: the first element
with a new key opens a group at the end, every later one is appended to its own
group. Two lists with the same elements sort and group alike as soon as the key
separates the elements, whatever order they arrived in.
-/

namespace Raglogs.Collections

universe u

section Sorting

variable {α β κ : Type*} [LinearOrder κ]

/-- Stable sort of a list by a key. -/
def sortOn (key : α → κ) (l : List α) : List α :=
  l.insertionSort (fun a b => key a ≤ key b)

variable (key : α → κ)

private instance keyTotal : Std.Total (fun a b : α => key a ≤ key b) :=
  ⟨fun a b => le_total (key a) (key b)⟩

private instance keyTrans : IsTrans α (fun a b : α => key a ≤ key b) :=
  ⟨fun _ _ _ hab hbc => le_trans hab hbc⟩

theorem sortOn_perm (l : List α) : (sortOn key l).Perm l :=
  List.perm_insertionSort _ l

@[simp]
theorem mem_sortOn {l : List α} {a : α} : a ∈ sortOn key l ↔ a ∈ l :=
  (sortOn_perm key l).mem_iff

@[simp]
theorem length_sortOn (l : List α) : (sortOn key l).length = l.length :=
  (sortOn_perm key l).length_eq

@[simp]
theorem sortOn_eq_nil {l : List α} : sortOn key l = [] ↔ l = [] := by
  rw [← List.length_eq_zero_iff, length_sortOn, List.length_eq_zero_iff]

theorem sortOn_pairwise (l : List α) :
    (sortOn key l).Pairwise (fun a b => key a ≤ key b) :=
  List.pairwise_insertionSort _ l

/-- When the key separates the elements, the sorted list depends on them only. -/
theorem sortOn_eq_of_perm {l l' : List α} (h : l.Perm l')
    (hkey : ∀ a ∈ l, ∀ b ∈ l, key a = key b → a = b) :
    sortOn key l = sortOn key l' := by
  have hperm : (sortOn key l).Perm (sortOn key l') :=
    ((sortOn_perm key l).trans h).trans (sortOn_perm key l').symm
  refine hperm.eq_of_pairwise ?_ (sortOn_pairwise key l) (sortOn_pairwise key l')
  intro a b ha hb hab hba
  have ha' : a ∈ l := (mem_sortOn key).mp ha
  have hb' : b ∈ l := h.mem_iff.mpr ((mem_sortOn key).mp hb)
  exact hkey a ha' b hb' (le_antisymm hab hba)

/-- Sorting commutes with a map that leaves the key alone. -/
theorem sortOn_map (key' : β → κ) (f : α → β) (h : ∀ a, key' (f a) = key a)
    (l : List α) : sortOn key' (l.map f) = (sortOn key l).map f := by
  refine (List.map_insertionSort (fun a b => key a ≤ key b)
    (fun a b => key' a ≤ key' b) f l ?_).symm
  intro a _ b _
  rw [h a, h b]

private instance lawfulMin : Std.LawfulOrderMin κ where
  min_eq_or a b := min_choice a b
  le_min_iff _ _ _ := le_min_iff

private instance lawfulMax : Std.LawfulOrderMax κ where
  max_eq_or a b := max_choice a b
  max_le_iff _ _ _ := max_le_iff

/-- The first element of a sorted list is the least one. -/
theorem head?_sortOn_id (l : List κ) : (sortOn id l).head? = l.min? := by
  apply Option.ext
  intro a
  have hpw := sortOn_pairwise id l
  rw [List.min?_eq_some_iff]
  cases h : sortOn id l with
  | nil =>
    rw [sortOn_eq_nil] at h
    simp [h]
  | cons b rest =>
    rw [h, List.pairwise_cons] at hpw
    have hmem : ∀ c, c ∈ l ↔ c = b ∨ c ∈ rest := by
      intro c
      rw [← mem_sortOn id, h, List.mem_cons]
    have hle : ∀ c ∈ l, b ≤ c := by
      intro c hc
      rcases (hmem c).mp hc with rfl | hc
      · exact le_refl c
      · exact hpw.1 c hc
    rw [List.head?_cons, Option.some.injEq]
    constructor
    · rintro rfl
      exact ⟨(hmem b).mpr (Or.inl rfl), hle⟩
    · rintro ⟨ha, hmin⟩
      exact le_antisymm (hle a ha) (hmin b ((hmem b).mpr (Or.inl rfl)))

/-- The last element of a sorted list is the greatest one. -/
theorem getLast?_sortOn_id (l : List κ) : (sortOn id l).getLast? = l.max? := by
  apply Option.ext
  intro a
  have hpw := sortOn_pairwise id l
  rw [List.max?_eq_some_iff]
  cases h : (sortOn id l).getLast? with
  | none =>
    rw [List.getLast?_eq_none_iff, sortOn_eq_nil] at h
    simp [h]
  | some b =>
    obtain ⟨front, hfront⟩ := List.getLast?_eq_some_iff.mp h
    rw [hfront, List.pairwise_append] at hpw
    have hmem : ∀ c, c ∈ l ↔ c ∈ front ∨ c = b := by
      intro c
      rw [← mem_sortOn id, hfront, List.mem_append, List.mem_singleton]
    have hle : ∀ c ∈ l, c ≤ b := by
      intro c hc
      rcases (hmem c).mp hc with hc | rfl
      · exact hpw.2.2 c hc b (List.mem_singleton_self b)
      · exact le_refl c
    rw [Option.some.injEq]
    constructor
    · rintro rfl
      exact ⟨(hmem b).mpr (Or.inr rfl), hle⟩
    · rintro ⟨ha, hmax⟩
      exact le_antisymm (hmax b ((hmem b).mpr (Or.inr rfl))) (hle a ha)

theorem min?_eq_of_perm {l l' : List κ} (h : l.Perm l') : l.min? = l'.min? := by
  rw [← head?_sortOn_id, ← head?_sortOn_id, sortOn_eq_of_perm id h (fun _ _ _ _ h => h)]

theorem max?_eq_of_perm {l l' : List κ} (h : l.Perm l') : l.max? = l'.max? := by
  rw [← getLast?_sortOn_id, ← getLast?_sortOn_id, sortOn_eq_of_perm id h (fun _ _ _ _ h => h)]

/-- The first of the elements with the least key, of a non-empty list. -/
def minOn (key : α → κ) (first : α) (others : List α) : α :=
  others.foldl (fun best a => if key a < key best then a else best) first

theorem minOn_mem (first : α) (others : List α) : minOn key first others ∈ first :: others := by
  unfold minOn
  induction others generalizing first with
  | nil => exact List.mem_singleton_self first
  | cons a others ih =>
    rw [List.foldl_cons]
    split
    · exact List.mem_cons_of_mem _ (ih a)
    · rcases List.mem_cons.mp (ih first) with h | h
      · rw [h]
        exact List.mem_cons_self
      · exact List.mem_cons_of_mem _ (List.mem_cons_of_mem _ h)

theorem minOn_le (first : α) (others : List α) {a : α} (ha : a ∈ first :: others) :
    key (minOn key first others) ≤ key a := by
  unfold minOn
  induction others generalizing first a with
  | nil =>
    rw [List.mem_singleton] at ha
    rw [ha]
    exact le_refl _
  | cons b others ih =>
    rw [List.foldl_cons]
    have hfirst : key (if key b < key first then b else first) ≤ key first := by
      split
      · exact le_of_lt ‹_›
      · exact le_refl _
    have hb : key (if key b < key first then b else first) ≤ key b := by
      split
      · exact le_refl _
      · exact not_lt.mp ‹_›
    rcases List.mem_cons.mp ha with rfl | ha
    · exact le_trans (ih _ List.mem_cons_self) hfirst
    · rcases List.mem_cons.mp ha with rfl | ha
      · exact le_trans (ih _ List.mem_cons_self) hb
      · exact ih _ (List.mem_cons_of_mem _ ha)

end Sorting

section Grouping

variable {α κ : Type*} [DecidableEq κ]

/-- Append to the group of a key, opening the group when the key is new. -/
def appendTo (k : κ) (a : α) : List (κ × List α) → List (κ × List α)
  | [] => [(k, [a])]
  | (k', g) :: rest =>
      if k' = k then (k', g ++ [a]) :: rest else (k', g) :: appendTo k a rest

/-- Group a list by a key, groups in order of first appearance. -/
def groupOn (key : α → κ) (l : List α) : List (κ × List α) :=
  l.foldl (fun groups a => appendTo (key a) a groups) []

theorem appendTo_keys (k : κ) (a : α) (gs : List (κ × List α)) :
    (appendTo k a gs).map Prod.fst =
      if k ∈ gs.map Prod.fst then gs.map Prod.fst else gs.map Prod.fst ++ [k] := by
  induction gs with
  | nil => simp [appendTo]
  | cons p rest ih =>
    obtain ⟨k', g⟩ := p
    by_cases hk : k' = k
    · simp [appendTo, hk]
    · have hk' : ¬ k = k' := fun h => hk h.symm
      by_cases hmem : k ∈ rest.map Prod.fst
      · simp only [appendTo, hk, if_false, List.map_cons, List.mem_cons, hk', hmem,
          or_true, if_true, ih]
      · simp only [appendTo, hk, if_false, List.map_cons, List.mem_cons, hk', hmem,
          or_self, ih, List.cons_append]

/-- The groups of a prefix: each key's group is the filtered prefix. -/
structure GroupsOf (key : α → κ) (l : List α) (gs : List (κ × List α)) : Prop where
  keys_nodup : (gs.map Prod.fst).Nodup
  mem_keys : ∀ k, k ∈ gs.map Prod.fst ↔ ∃ a ∈ l, key a = k
  group_eq : ∀ k g, (k, g) ∈ gs → g = l.filter (fun a => key a = k)

theorem mem_appendTo {k : κ} {a : α} {gs : List (κ × List α)}
    (hnd : (gs.map Prod.fst).Nodup) {k' : κ} {g' : List α}
    (h : (k', g') ∈ appendTo k a gs) :
    (k' ≠ k ∧ (k', g') ∈ gs) ∨
      (k' = k ∧ ((∃ g, (k, g) ∈ gs ∧ g' = g ++ [a]) ∨
        (k ∉ gs.map Prod.fst ∧ g' = [a]))) := by
  induction gs with
  | nil =>
    simp only [appendTo, List.mem_singleton, Prod.mk.injEq] at h
    exact Or.inr ⟨h.1, Or.inr ⟨by simp, h.2⟩⟩
  | cons p rest ih =>
    obtain ⟨k₀, g₀⟩ := p
    simp only [List.map_cons, List.nodup_cons] at hnd
    by_cases hk : k₀ = k
    · simp only [appendTo, hk, if_true, List.mem_cons, Prod.mk.injEq] at h
      rcases h with ⟨rfl, rfl⟩ | h
      · exact Or.inr ⟨rfl, Or.inl ⟨g₀, by simp [hk], rfl⟩⟩
      · have hne : k' ≠ k := by
          rintro rfl
          exact hnd.1 (hk ▸ List.mem_map_of_mem (f := Prod.fst) h)
        exact Or.inl ⟨hne, List.mem_cons_of_mem _ h⟩
    · simp only [appendTo, hk, if_false, List.mem_cons] at h
      rcases h with h | h
      · obtain ⟨rfl, rfl⟩ := Prod.mk.inj h
        exact Or.inl ⟨hk, List.mem_cons_self⟩
      · rcases ih hnd.2 h with ⟨hne, hmem⟩ | ⟨hkk, ⟨g, hg, hgg⟩ | ⟨hno, hgg⟩⟩
        · exact Or.inl ⟨hne, List.mem_cons_of_mem _ hmem⟩
        · exact Or.inr ⟨hkk, Or.inl ⟨g, List.mem_cons_of_mem _ hg, hgg⟩⟩
        · refine Or.inr ⟨hkk, Or.inr ⟨?_, hgg⟩⟩
          simp only [List.map_cons, List.mem_cons, not_or]
          exact ⟨fun h => hk h.symm, hno⟩

theorem GroupsOf.append {key : α → κ} {l : List α} {gs : List (κ × List α)}
    (h : GroupsOf key l gs) (a : α) :
    GroupsOf key (l ++ [a]) (appendTo (key a) a gs) where
  keys_nodup := by
    rw [appendTo_keys]
    split
    · exact h.keys_nodup
    · rename_i hno
      exact List.nodup_append.mpr ⟨h.keys_nodup, List.nodup_singleton _, by
        intro x hx y hy
        rw [List.mem_singleton] at hy
        rintro rfl
        exact hno (hy ▸ hx)⟩
  mem_keys k := by
    have hold := h.mem_keys k
    rw [appendTo_keys]
    split
    · rename_i hmem
      rw [hold]
      constructor
      · rintro ⟨b, hb, hbk⟩
        exact ⟨b, List.mem_append_left _ hb, hbk⟩
      · rintro ⟨b, hb, hbk⟩
        rcases List.mem_append.mp hb with hb | hb
        · exact ⟨b, hb, hbk⟩
        · rw [List.mem_singleton] at hb
          subst hb
          exact hbk ▸ (h.mem_keys (key b)).mp hmem
    · simp only [List.mem_append, List.mem_singleton, hold, or_and_right, exists_or,
        exists_eq_left]
      rw [eq_comm]
  group_eq k g hg := by
    rw [List.filter_append]
    rcases mem_appendTo h.keys_nodup hg with ⟨hne, hmem⟩ | ⟨rfl, ⟨g₀, hmem, rfl⟩ | ⟨hno, rfl⟩⟩
    · rw [h.group_eq k g hmem]
      simp [Ne.symm hne]
    · rw [h.group_eq _ g₀ hmem]
      simp
    · have hnil : l.filter (fun b => key b = key a) = [] := by
        rw [List.filter_eq_nil_iff]
        intro b hb hbk
        exact hno ((h.mem_keys _).mpr ⟨b, hb, by simpa using hbk⟩)
      simp [hnil]

theorem groupOn_groupsOf (key : α → κ) (l : List α) : GroupsOf key l (groupOn key l) := by
  unfold groupOn
  induction l using List.reverseRecOn with
  | nil => exact ⟨by simp, by simp, by simp⟩
  | append_singleton l a ih =>
    rw [List.foldl_append]
    exact ih.append a

theorem groupOn_keys_nodup (key : α → κ) (l : List α) :
    ((groupOn key l).map Prod.fst).Nodup :=
  (groupOn_groupsOf key l).keys_nodup

theorem mem_groupOn_keys (key : α → κ) (l : List α) (k : κ) :
    k ∈ (groupOn key l).map Prod.fst ↔ ∃ a ∈ l, key a = k :=
  (groupOn_groupsOf key l).mem_keys k

/-- A group is the filtered list, and no group is empty. -/
theorem mem_groupOn (key : α → κ) (l : List α) (k : κ) (g : List α) :
    (k, g) ∈ groupOn key l ↔ g = l.filter (fun a => key a = k) ∧ g ≠ [] := by
  constructor
  · intro h
    have heq := (groupOn_groupsOf key l).group_eq k g h
    obtain ⟨a, ha, hak⟩ := (mem_groupOn_keys key l k).mp (List.mem_map_of_mem (f := Prod.fst) h)
    refine ⟨heq, ?_⟩
    rw [heq]
    exact List.ne_nil_of_mem (List.mem_filter.mpr ⟨ha, by simpa using hak⟩)
  · rintro ⟨rfl, hne⟩
    obtain ⟨a, ha⟩ := List.exists_mem_of_ne_nil _ hne
    obtain ⟨ha, hak⟩ := List.mem_filter.mp ha
    obtain ⟨⟨k', g⟩, hg, hk⟩ := List.mem_map.mp
      ((mem_groupOn_keys key l k).mpr ⟨a, ha, by simpa using hak⟩)
    simp only at hk
    subst hk
    rwa [← (groupOn_groupsOf key l).group_eq _ g hg]

/-- Grouping is determined by the order of the keys and the list itself. -/
theorem groupOn_eq_map (key : α → κ) (l : List α) :
    groupOn key l =
      ((groupOn key l).map Prod.fst).map (fun k => (k, l.filter (fun a => key a = k))) := by
  rw [List.map_map]
  conv_lhs => rw [← List.map_id (groupOn key l)]
  apply List.map_congr_left
  rintro ⟨k, g⟩ hg
  simp only [id_eq, Function.comp_apply, Prod.mk.injEq, true_and]
  exact ((mem_groupOn key l k g).mp hg).1

/-- The groups with a given key: one, unless no element has the key. -/
theorem filter_groupOn (key : α → κ) (l : List α) (k : κ) :
    (groupOn key l).filter (fun p => p.1 = k) =
      if l.filter (fun a => key a = k) = [] then []
      else [(k, l.filter (fun a => key a = k))] := by
  have hnd : ((groupOn key l).filter (fun p => p.1 = k)).Nodup :=
    ((groupOn_keys_nodup key l).of_map _).filter _
  have hmem : ∀ p, p ∈ (groupOn key l).filter (fun p => p.1 = k) ↔
      p = (k, l.filter (fun a => key a = k)) ∧ l.filter (fun a => key a = k) ≠ [] := by
    rintro ⟨k', g⟩
    rw [List.mem_filter, mem_groupOn, decide_eq_true_eq, Prod.mk.injEq]
    constructor
    · rintro ⟨⟨rfl, hne⟩, rfl⟩
      exact ⟨⟨rfl, rfl⟩, hne⟩
    · rintro ⟨⟨rfl, rfl⟩, hne⟩
      exact ⟨⟨rfl, hne⟩, rfl⟩
  split
  · rename_i hnil
    rw [List.eq_nil_iff_forall_not_mem]
    exact fun p hp => ((hmem p).mp hp).2 hnil
  · rename_i hne
    apply List.perm_singleton.mp
    rw [List.perm_ext_iff_of_nodup hnd (List.nodup_singleton _)]
    intro p
    rw [hmem, List.mem_singleton]
    exact and_iff_left hne

/-- A list all of whose keys agree forms one group. -/
theorem groupOn_of_forall_eq {key : α → κ} {l : List α} {k : κ} (hne : l ≠ [])
    (h : ∀ a ∈ l, key a = k) : groupOn key l = [(k, l)] := by
  have hfilter : l.filter (fun a => key a = k) = l :=
    List.filter_eq_self.mpr (fun a ha => by simpa using h a ha)
  have hall : (groupOn key l).filter (fun p => p.1 = k) = groupOn key l := by
    refine List.filter_eq_self.mpr ?_
    intro p hp
    obtain ⟨a, ha, hak⟩ := (mem_groupOn_keys key l p.1).mp (List.mem_map_of_mem hp)
    rw [decide_eq_true_eq, ← hak, h a ha]
  rw [← hall, filter_groupOn, hfilter, if_neg hne]

theorem appendTo_flatten_perm (k : κ) (a : α) (gs : List (κ × List α)) :
    ((appendTo k a gs).flatMap Prod.snd).Perm (gs.flatMap Prod.snd ++ [a]) := by
  induction gs with
  | nil => simp [appendTo]
  | cons p rest ih =>
    by_cases hk : p.1 = k
    · simp only [appendTo, hk, if_true, List.flatMap_cons, List.append_assoc]
      exact (List.perm_append_comm).append_left _
    · simp only [appendTo, hk, if_false, List.flatMap_cons, List.append_assoc]
      exact ih.append_left _

/-- The groups together are the list. -/
theorem groupOn_flatten_perm (key : α → κ) (l : List α) :
    ((groupOn key l).flatMap Prod.snd).Perm l := by
  unfold groupOn
  induction l using List.reverseRecOn with
  | nil => exact List.Perm.refl _
  | append_singleton l a ih =>
    rw [List.foldl_append, List.foldl_cons, List.foldl_nil]
    exact (appendTo_flatten_perm _ _ _).trans (ih.append_right _)

/-- Permuting a list permutes its groups, once each group is replaced by a value
that the permutation leaves alone. -/
theorem groupOn_map_perm {γ : Type*} (key : α → κ) (F : κ → List α → γ) {l l' : List α}
    (h : l.Perm l')
    (hF : ∀ k, F k (l.filter (fun a => key a = k)) = F k (l'.filter (fun a => key a = k))) :
    ((groupOn key l).map (fun p => F p.1 p.2)).Perm
      ((groupOn key l').map (fun p => F p.1 p.2)) := by
  have hkeys : ((groupOn key l).map Prod.fst).Perm ((groupOn key l').map Prod.fst) := by
    rw [List.perm_ext_iff_of_nodup (groupOn_keys_nodup key l) (groupOn_keys_nodup key l')]
    intro k
    rw [mem_groupOn_keys, mem_groupOn_keys]
    simp only [h.mem_iff]
  rw [groupOn_eq_map key l, groupOn_eq_map key l', List.map_map]
  conv_rhs => rw [List.map_map]
  have hfun : ((fun p : κ × List α => F p.1 p.2) ∘
        fun k => (k, l.filter (fun a => key a = k))) =
      ((fun p : κ × List α => F p.1 p.2) ∘
        fun k => (k, l'.filter (fun a => key a = k))) :=
    funext hF
  rw [hfun]
  exact hkeys.map _

theorem appendTo_map {β : Type*} (f : α → β) (k : κ) (a : α) (gs : List (κ × List α)) :
    appendTo k (f a) (gs.map (fun p => (p.1, p.2.map f))) =
      (appendTo k a gs).map (fun p => (p.1, p.2.map f)) := by
  induction gs with
  | nil => simp [appendTo]
  | cons p rest ih =>
    by_cases hk : p.1 = k
    · simp [appendTo, hk]
    · simp [appendTo, hk, ih]

/-- Grouping commutes with a map that leaves the key alone. -/
theorem groupOn_map {β : Type*} {key : α → κ} {key' : β → κ} {f : α → β}
    (h : ∀ a, key' (f a) = key a) (l : List α) :
    groupOn key' (l.map f) = (groupOn key l).map (fun p => (p.1, p.2.map f)) := by
  unfold groupOn
  induction l using List.reverseRecOn with
  | nil => rfl
  | append_singleton l a ih =>
    rw [List.map_append, List.foldl_append, List.foldl_append, ih]
    simp only [List.map_cons, List.map_nil, List.foldl_cons, List.foldl_nil, h]
    exact appendTo_map f (key a) a _

end Grouping

section FirstOccurrences

variable {α : Type*} [DecidableEq α]

/-- The distinct elements of a list in order of first occurrence. -/
def fromKeys (l : List α) : List α :=
  l.foldl (fun seen a => if a ∈ seen then seen else seen ++ [a]) []

theorem mem_fromKeys {l : List α} {a : α} : a ∈ fromKeys l ↔ a ∈ l := by
  unfold fromKeys
  induction l using List.reverseRecOn with
  | nil => rfl
  | append_singleton l b ih =>
    rw [List.foldl_append, List.foldl_cons, List.foldl_nil]
    split
    · rename_i hb
      rw [List.mem_append, ih, List.mem_singleton]
      refine ⟨Or.inl, ?_⟩
      rintro (ha | rfl)
      · exact ha
      · exact ih.mp hb
    · rw [List.mem_append, List.mem_append, ih]

theorem fromKeys_append_singleton (l : List α) (a : α) :
    fromKeys (l ++ [a]) = if a ∈ fromKeys l then fromKeys l else fromKeys l ++ [a] := by
  rw [fromKeys, List.foldl_append]
  rfl

theorem fromKeys_nodup (l : List α) : (fromKeys l).Nodup := by
  unfold fromKeys
  induction l using List.reverseRecOn with
  | nil => exact List.nodup_nil
  | append_singleton l b ih =>
    rw [List.foldl_append, List.foldl_cons, List.foldl_nil]
    split
    · exact ih
    · rename_i hb
      rw [List.nodup_append]
      refine ⟨ih, List.nodup_singleton _, ?_⟩
      rintro a ha c hc rfl
      exact hb (List.mem_singleton.mp hc ▸ ha)

/-- A permutation of a list has the same distinct elements, in another order. -/
theorem fromKeys_perm {l l' : List α} (h : l.Perm l') : (fromKeys l).Perm (fromKeys l') := by
  rw [List.perm_ext_iff_of_nodup (fromKeys_nodup l) (fromKeys_nodup l')]
  intro a
  rw [mem_fromKeys, mem_fromKeys, h.mem_iff]

end FirstOccurrences

section Pairs

variable {α : Type*}

/-- All pairs of a list, an earlier element first: the 2-combinations. -/
def pairs : List α → List (α × α)
  | [] => []
  | a :: rest => rest.map (fun b => (a, b)) ++ pairs rest

theorem mem_of_mem_pairs {l : List α} {a b : α} (h : (a, b) ∈ pairs l) :
    a ∈ l ∧ b ∈ l := by
  induction l with
  | nil => simp [pairs] at h
  | cons c rest ih =>
    simp only [pairs, List.mem_append, List.mem_map, Prod.mk.injEq] at h
    rcases h with ⟨d, hd, rfl, rfl⟩ | h
    · exact ⟨List.mem_cons_self, List.mem_cons_of_mem _ hd⟩
    · exact ⟨List.mem_cons_of_mem _ (ih h).1, List.mem_cons_of_mem _ (ih h).2⟩

/-- Two different members form a pair in one of the two orders. -/
theorem mem_pairs_or {l : List α} {a b : α} (ha : a ∈ l) (hb : b ∈ l) (hne : a ≠ b) :
    (a, b) ∈ pairs l ∨ (b, a) ∈ pairs l := by
  induction l with
  | nil => simp at ha
  | cons c rest ih =>
    simp only [pairs, List.mem_append, List.mem_map, Prod.mk.injEq]
    rcases List.mem_cons.mp ha with hac | har
    · rcases List.mem_cons.mp hb with hbc | hbr
      · exact absurd (hac.trans hbc.symm) hne
      · exact Or.inl (Or.inl ⟨b, hbr, hac.symm, rfl⟩)
    · rcases List.mem_cons.mp hb with hbc | hbr
      · exact Or.inr (Or.inl ⟨a, har, hbc.symm, rfl⟩)
      · rcases ih har hbr with h | h
        · exact Or.inl (Or.inr h)
        · exact Or.inr (Or.inr h)

end Pairs

section Buckets

variable {α δ : Type*} [DecidableEq δ]

/-- Elements sorted into buckets by a label are the elements with those labels. -/
theorem flatMap_filter_perm (label : α → δ) {labels : List δ} (hnd : labels.Nodup) (l : List α) :
    (labels.flatMap (fun d => l.filter (fun a => label a = d))).Perm
      (l.filter (fun a => label a ∈ labels)) := by
  induction labels with
  | nil => simp
  | cons d rest ih =>
    obtain ⟨hd, hrest⟩ := List.nodup_cons.mp hnd
    rw [List.flatMap_cons]
    have hfirst : l.filter (fun a => label a = d) =
        (l.filter (fun a => label a ∈ d :: rest)).filter (fun a => label a = d) := by
      rw [List.filter_filter]
      apply List.filter_congr
      intro a _
      by_cases had : label a = d <;> simp [had]
    have hothers : l.filter (fun a => label a ∈ rest) =
        (l.filter (fun a => label a ∈ d :: rest)).filter (fun a => !decide (label a = d)) := by
      rw [List.filter_filter]
      apply List.filter_congr
      intro a _
      by_cases had : label a = d <;> simp [had, hd]
    refine ((ih hrest).append_left _).trans ?_
    rw [hfirst, hothers]
    exact List.filter_append_perm _ _

end Buckets

/-- What stands in one of two lists in step has a partner in the other one. -/
theorem exists_source {β γ : Type*} {r : γ → β → Prop} {pieces : List γ} {out : List β}
    (h : List.Forall₂ r pieces out) {m : β} (hm : m ∈ out) : ∃ g ∈ pieces, r g m := by
  induction h with
  | nil => simp at hm
  | @cons g m' pieces out hg _ ih =>
    rcases List.mem_cons.mp hm with rfl | hm
    · exact ⟨g, List.mem_cons_self, hg⟩
    · obtain ⟨g', hg', hr⟩ := ih hm
      exact ⟨g', List.mem_cons_of_mem _ hg', hr⟩

/-- Two lists in step on which two functions agree have the same images. -/
theorem map_eq_map_of_forall₂ {α β γ : Type*} {f : α → γ} {g : β → γ} {l : List α} {l' : List β}
    (h : List.Forall₂ (fun a b => f a = g b) l l') : l.map f = l'.map g := by
  induction h with
  | nil => rfl
  | cons hab _ ih => rw [List.map_cons, List.map_cons, hab, ih]

/-- A list of pairs is determined by its two columns. -/
theorem eq_of_map_fst_snd {α β : Type*} {l l' : List (α × β)}
    (hfst : l.map Prod.fst = l'.map Prod.fst) (hsnd : l.map Prod.snd = l'.map Prod.snd) :
    l = l' := by
  rw [← List.zip_unzip l, ← List.zip_unzip l', List.unzip_eq_map, List.unzip_eq_map, hfst, hsnd]

/-- Lists in step, with where their elements are. -/
theorem forall₂_mem {α β : Type*} {r : α → β → Prop} {l : List α} {l' : List β}
    (h : List.Forall₂ r l l') : List.Forall₂ (fun a b => a ∈ l ∧ b ∈ l' ∧ r a b) l l' := by
  induction h with
  | nil => exact List.Forall₂.nil
  | cons hab _ ih =>
    refine List.Forall₂.cons ⟨List.mem_cons_self, List.mem_cons_self, hab⟩ (ih.imp ?_)
    rintro a b ⟨ha, hb, hr⟩
    exact ⟨List.mem_cons_of_mem _ ha, List.mem_cons_of_mem _ hb, hr⟩

/-- Two lists with the same keys, one within the other, whose keys are distinct. -/
theorem perm_of_map_perm {α β : Type*} {key : α → β} {l l' : List α} (hsub : ∀ a ∈ l, a ∈ l')
    (hnd : (l'.map key).Nodup) (h : (l.map key).Perm (l'.map key)) : l.Perm l' := by
  have hnd' : (l.map key).Nodup := h.nodup_iff.mpr hnd
  rw [List.perm_ext_iff_of_nodup (hnd'.of_map _) (hnd.of_map _)]
  intro a
  refine ⟨hsub a, fun ha => ?_⟩
  obtain ⟨b, hb, hab⟩ := List.mem_map.mp (h.mem_iff.mpr (List.mem_map_of_mem ha))
  rwa [← List.inj_on_of_nodup_map hnd (hsub b hb) ha hab]

section Padding

variable {α β : Type*} {p : α → Prop} {l l' : List α}

/-- The second list is the first with elements added, each of which has a property. -/
inductive Padded (p : α → Prop) : List α → List α → Prop
  | nil : Padded p [] []
  | keep (a : α) {l l' : List α} : Padded p l l' → Padded p (a :: l) (a :: l')
  | add (a : α) {l l' : List α} : p a → Padded p l l' → Padded p l (a :: l')

theorem Padded.sublist (h : Padded p l l') : l.Sublist l' := by
  induction h with
  | nil => exact List.Sublist.slnil
  | keep a _ ih => exact ih.cons_cons a
  | add a _ _ ih => exact ih.cons a

theorem Padded.mono {q : α → Prop} (h : Padded p l l') (hpq : ∀ a, p a → q a) :
    Padded q l l' := by
  induction h with
  | nil => exact .nil
  | keep a _ ih => exact ih.keep a
  | add a ha _ ih => exact ih.add a (hpq a ha)

theorem Padded.filterMap {q : β → Prop} {f : α → Option β} (h : Padded p l l')
    (hq : ∀ a b, p a → f a = some b → q b) : Padded q (l.filterMap f) (l'.filterMap f) := by
  induction h with
  | nil => exact .nil
  | keep a _ ih =>
    rw [List.filterMap_cons, List.filterMap_cons]
    cases f a with
    | none => exact ih
    | some b => exact ih.keep b
  | add a ha _ ih =>
    rw [List.filterMap_cons]
    cases hf : f a with
    | none => exact ih
    | some b => exact ih.add b (hq a b ha hf)

theorem Padded.filter (h : Padded p l l') (f : α → Bool) :
    Padded p (l.filter f) (l'.filter f) := by
  rw [← List.filterMap_eq_filter]
  refine h.filterMap ?_
  intro a b ha hb
  obtain ⟨rfl, -⟩ := Option.guard_eq_some_iff.mp hb
  exact ha

/-- Nothing was added to a list without such elements. -/
theorem Padded.eq (h : Padded p l l') (hno : ∀ a ∈ l', ¬p a) : l = l' := by
  induction h with
  | nil => rfl
  | keep a _ ih => rw [ih (fun b hb => hno b (List.mem_cons_of_mem _ hb))]
  | add a ha _ _ => exact absurd ha (hno a List.mem_cons_self)

/-- What such elements do not contribute to is the same. -/
theorem Padded.filterMap_eq {f : α → Option β} (h : Padded p l l') (hf : ∀ a, p a → f a = none) :
    l.filterMap f = l'.filterMap f := by
  refine (h.filterMap (q := fun _ => False) ?_).eq (fun _ _ => not_false)
  intro a b ha hb
  rw [hf a ha] at hb
  cases hb

theorem Padded.filter_eq {f : α → Bool} (h : Padded p l l') (hf : ∀ a, p a → f a = false) :
    l.filter f = l'.filter f := by
  refine (h.filter f).eq ?_
  intro a ha hpa
  rw [List.mem_filter, hf a hpa] at ha
  exact absurd ha.2 (by decide)

end Padding

section Effects

variable {ε : Type*} {α β : Type u}

/-- A loop whose body never raises is a map. -/
theorem mapM_ok {l : List α} {f : α → Except ε β} {g : α → β}
    (h : ∀ a ∈ l, f a = .ok (g a)) : l.mapM f = .ok (l.map g) := by
  induction l with
  | nil => rfl
  | cons a rest ih =>
    rw [List.mapM_cons, h a List.mem_cons_self, ih (fun b hb => h b (List.mem_cons_of_mem _ hb))]
    rfl

/-- A loop each of whose rounds returns a value with a known image. -/
theorem mapM_exists {γ : Type*} {l : List α} {f : α → Except ε β} {φ : β → γ} {ψ : α → γ}
    (h : ∀ a ∈ l, ∃ b, f a = .ok b ∧ φ b = ψ a) :
    ∃ bs, l.mapM f = .ok bs ∧ bs.map φ = l.map ψ := by
  induction l with
  | nil => exact ⟨[], rfl, rfl⟩
  | cons a rest ih =>
    obtain ⟨b, hb, hφ⟩ := h a List.mem_cons_self
    obtain ⟨bs, hbs, hmap⟩ := ih (fun c hc => h c (List.mem_cons_of_mem _ hc))
    refine ⟨b :: bs, ?_, by rw [List.map_cons, List.map_cons, hφ, hmap]⟩
    rw [List.mapM_cons, hb, hbs]
    rfl

/-- A loop returns what its rounds return. -/
theorem mapM_eq_ok_iff {l : List α} {f : α → Except ε β} {bs : List β} :
    l.mapM f = .ok bs ↔ List.Forall₂ (fun a b => f a = .ok b) l bs := by
  induction l generalizing bs with
  | nil =>
    rw [List.mapM_nil, List.forall₂_nil_left_iff]
    exact ⟨fun h => (Except.ok.inj h).symm, fun h => h ▸ rfl⟩
  | cons a rest ih =>
    rw [List.mapM_cons, List.forall₂_cons_left_iff]
    cases hfirst : f a with
    | error e => simp [bind, Except.bind]
    | ok b =>
      cases hrest : rest.mapM f with
      | error e =>
        have hno : ∀ cs, ¬List.Forall₂ (fun a b => f a = .ok b) rest cs := fun cs h => by
          rw [ih.mpr h] at hrest
          exact absurd hrest (by simp)
        simp [bind, Except.bind, hno]
      | ok cs =>
        have hcs : ∀ ds, List.Forall₂ (fun a b => f a = .ok b) rest ds ↔ ds = cs := fun ds => by
          rw [← ih, hrest]
          exact ⟨fun h => (Except.ok.inj h).symm, fun h => h ▸ rfl⟩
        simp [bind, Except.bind, pure, Except.pure, hcs, eq_comm]

/-- A loop over optional values that returned had a value for each element. -/
theorem exists_of_mapM_eq_some {f : α → Option β} {l : List α} {l' : List β}
    (h : l.mapM f = some l') {a : α} (ha : a ∈ l) : ∃ b, f a = some b := by
  induction l generalizing l' with
  | nil => cases ha
  | cons first rest ih =>
    rw [List.mapM_cons] at h
    obtain ⟨b, hb, h⟩ := Option.bind_eq_some_iff.mp h
    obtain ⟨bs, hbs, -⟩ := Option.bind_eq_some_iff.mp h
    rcases List.mem_cons.mp ha with rfl | ha
    · exact ⟨b, hb⟩
    · exact ih hbs ha

/-- A loop over optional values returns exactly if all of them are there. -/
theorem mapM_option_eq (f : α → Option β) (l : List α) :
    l.mapM f = if l.all (fun a => (f a).isSome) then some (l.filterMap f) else none := by
  induction l with
  | nil => rfl
  | cons a rest ih =>
    rw [List.mapM_cons, ih, List.filterMap_cons, List.all_cons]
    cases f a with
    | none => rfl
    | some b => cases rest.all (fun a => (f a).isSome) <;> rfl

/-- A loop over optional values that are all there collects them. -/
theorem exists_mapM_eq_some {f : α → Option β} {l : List α} (h : ∀ a ∈ l, ∃ b, f a = some b) :
    ∃ bs, l.mapM f = some bs ∧ List.Forall₂ (fun a b => f a = some b) l bs := by
  induction l with
  | nil => exact ⟨[], rfl, List.Forall₂.nil⟩
  | cons a rest ih =>
    obtain ⟨b, hb⟩ := h a List.mem_cons_self
    obtain ⟨bs, hbs, hrest⟩ := ih (fun a' ha' => h a' (List.mem_cons_of_mem a ha'))
    refine ⟨b :: bs, ?_, List.Forall₂.cons hb hrest⟩
    rw [List.mapM_cons, hb, hbs]
    rfl

/-- A loop that raised, raised in one of its rounds. -/
theorem exists_of_mapM_eq_error {f : α → Except ε β} {l : List α} {e : ε}
    (h : l.mapM f = .error e) : ∃ a ∈ l, f a = .error e := by
  induction l with
  | nil => cases h
  | cons a rest ih =>
    rw [List.mapM_cons] at h
    cases hfirst : f a with
    | error e' =>
      rw [hfirst] at h
      obtain rfl := Except.error.inj h
      exact ⟨a, List.mem_cons_self, hfirst⟩
    | ok b =>
      rw [hfirst] at h
      cases hrest : rest.mapM f with
      | error e' =>
        rw [hrest] at h
        obtain rfl := Except.error.inj h
        obtain ⟨a', ha', hraised⟩ := ih hrest
        exact ⟨a', List.mem_cons_of_mem _ ha', hraised⟩
      | ok bs =>
        rw [hrest] at h
        cases h

/-- Where all rounds raise the same, permuting them permutes what the loop returns. -/
theorem mapM_perm {f : α → Except ε β} {l l' : List α} {e : ε} (h : l.Perm l')
    (he : ∀ a ∈ l, ∀ e', f a = .error e' → e' = e) :
    (l.mapM f = .error e ∧ l'.mapM f = .error e) ∨
      ∃ bs bs', l.mapM f = .ok bs ∧ l'.mapM f = .ok bs' ∧ bs.Perm bs' := by
  by_cases hall : ∀ a ∈ l, ∃ b, f a = .ok b
  · have hreturns : ∀ l₀ : List α, (∀ a ∈ l₀, a ∈ l) →
        l₀.mapM f = .ok (l₀.filterMap (fun a => (f a).toOption)) := by
      intro l₀ hmem
      refine mapM_eq_ok_iff.mpr ?_
      induction l₀ with
      | nil => exact .nil
      | cons a rest ih =>
        obtain ⟨b, hb⟩ := hall a (hmem a List.mem_cons_self)
        rw [List.filterMap_cons_some (b := b) (by rw [hb]; rfl)]
        exact .cons hb (ih fun c hc => hmem c (List.mem_cons_of_mem _ hc))
    exact Or.inr ⟨_, _, hreturns l (fun _ ha => ha), hreturns l' (fun _ ha => h.mem_iff.mpr ha),
      h.filterMap _⟩
  · have hraises : ∀ l₀ : List α, (∀ a, a ∈ l₀ ↔ a ∈ l) → l₀.mapM f = .error e := by
      intro l₀ hmem
      cases hl₀ : l₀.mapM f with
      | error e' =>
        obtain ⟨a, ha, hraised⟩ := exists_of_mapM_eq_error hl₀
        rw [he a ((hmem a).mp ha) e' hraised]
      | ok bs =>
        refine absurd (fun a ha => ?_) hall
        obtain ⟨b, -, hb⟩ := exists_source (mapM_eq_ok_iff.mp hl₀).flip ((hmem a).mpr ha)
        exact ⟨b, hb⟩
    exact Or.inl ⟨hraises l (fun _ => Iff.rfl), hraises l' (fun _ => h.mem_iff.symm)⟩

/-- From a bind that returned, the value its first part returned. -/
theorem bind_eq_ok {x : Except ε α} {f : α → Except ε β} {b : β} :
    (x >>= f) = .ok b ↔ ∃ a, x = .ok a ∧ f a = .ok b := by
  cases x with
  | error e => simp [bind, Except.bind]
  | ok a => simp [bind, Except.bind]

/-- A renamed error is no value. -/
theorem mapError_eq_ok {ε' : Type*} {f : ε → ε'} {x : Except ε α} {a : α} :
    x.mapError f = .ok a ↔ x = .ok a := by
  cases x with
  | error e => simp [Except.mapError]
  | ok b => simp [Except.mapError]

theorem mapError_eq_error {ε' : Type*} {f : ε → ε'} {x : Except ε α} {e : ε'} :
    x.mapError f = .error e ↔ ∃ w, x = .error w ∧ f w = e := by
  cases x with
  | error w => simp [Except.mapError]
  | ok b => simp [Except.mapError]

/-- An error of two steps is one of the first or of the second. -/
theorem bind_eq_error {x : Except ε α} {f : α → Except ε β} {e : ε} :
    (x >>= f) = .error e ↔ x = .error e ∨ ∃ a, x = .ok a ∧ f a = .error e := by
  cases x with
  | error w => simp [bind, Except.bind]
  | ok b => simp [bind, Except.bind]

end Effects

end Raglogs.Collections

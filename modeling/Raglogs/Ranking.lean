import Mathlib.Data.Prod.Lex
import Raglogs.Collections

/-!
Ranked lists with a cap, over arbitrary types. A list is ranked by a stable sort,
the greatest key first; a choice takes the first of the elements with the greatest
key. The cap keeps the head of the ranking, and the element that a second key puts
first is kept besides when that key says so. What the cap keeps is stated by the
place of an element: how many go ahead of it.
-/

namespace Raglogs.Ranking

open Collections

variable {α β κ μ ν : Type*} [LinearOrder κ] [LinearOrder μ] [LinearOrder ν]

/-- Stable sort, the greatest key first. -/
def sortDown (key : α → κ) (l : List α) : List α :=
  sortOn (fun a => OrderDual.toDual (key a)) l

/-! Positions. -/

section Positions

variable [DecidableEq α]

/-- Dropping other elements does not change which of two comes first. -/
theorem idxOf_filter_le_iff (p : α → Bool) {a b : α} (ha : p a) (hb : p b) (l : List α) :
    (l.filter p).idxOf a ≤ (l.filter p).idxOf b ↔ l.idxOf a ≤ l.idxOf b := by
  induction l with
  | nil => simp
  | cons x l ih =>
    by_cases hxa : x = a
    · subst hxa
      simp [ha]
    · by_cases hxb : x = b
      · subst hxb
        simp [hb, List.idxOf_cons_ne _ hxa]
      · by_cases hx : p x
        · simpa [hx, List.idxOf_cons_ne _ hxa, List.idxOf_cons_ne _ hxb] using ih
        · simpa [hx, List.idxOf_cons_ne _ hxa, List.idxOf_cons_ne _ hxb] using ih

/-- The place among the elements that pass a test counts those listed before. -/
theorem idxOf_filter (p : α → Bool) {a : α} (ha : p a) (l : List α) :
    (l.filter p).idxOf a = (l.takeWhile (fun b => b ≠ a)).countP p := by
  induction l with
  | nil => simp
  | cons x l ih =>
    by_cases hxa : x = a
    · subst hxa
      simp [ha]
    · by_cases hx : p x
      · simp [hx, hxa, List.idxOf_cons_ne _ hxa, ih]
      · simp [hx, hxa, ih]

theorem idxOf_take_of_mem {l : List α} {m : ℕ} {a : α} (h : a ∈ l.take m) :
    (l.take m).idxOf a = l.idxOf a := by
  have hidx : (l.take m ++ l.drop m).idxOf a = (l.take m).idxOf a :=
    List.idxOf_append_of_mem h
  rw [List.take_append_drop] at hidx
  exact hidx.symm

theorem mem_take_iff_idxOf {l : List α} {m : ℕ} {a : α} :
    a ∈ l.take m ↔ a ∈ l ∧ l.idxOf a < m := by
  constructor
  · intro h
    refine ⟨List.mem_of_mem_take h, ?_⟩
    have hlt := List.idxOf_lt_length_iff.mpr h
    rw [idxOf_take_of_mem h, List.length_take] at hlt
    omega
  · rintro ⟨hmem, hlt⟩
    have hlen := List.idxOf_lt_length_iff.mpr hmem
    rw [List.mem_take_iff_getElem]
    exact ⟨l.idxOf a, by omega, List.getElem_idxOf hlen⟩

end Positions

/-! The stable sort. -/

section Sorting

variable (key : α → κ)

@[simp]
theorem mem_sortDown {l : List α} {a : α} : a ∈ sortDown key l ↔ a ∈ l :=
  mem_sortOn _

theorem sortDown_perm (l : List α) : (sortDown key l).Perm l := sortOn_perm _ l

@[simp]
theorem length_sortDown (l : List α) : (sortDown key l).length = l.length :=
  length_sortOn _ l

theorem sortDown_pairwise (l : List α) :
    (sortDown key l).Pairwise (fun a b => key b ≤ key a) :=
  sortOn_pairwise (fun a => OrderDual.toDual (key a)) l

theorem sortDown_map (key' : β → κ) (f : α → β) (h : ∀ a, key' (f a) = key a) (l : List α) :
    sortDown key' (l.map f) = (sortDown key l).map f := by
  apply sortOn_map
  intro a
  rw [h a]

private instance rankTotal :
    Std.Total (fun a b : α => OrderDual.toDual (key a) ≤ OrderDual.toDual (key b)) :=
  ⟨fun _ _ => le_total _ _⟩

private instance rankTrans :
    IsTrans α (fun a b : α => OrderDual.toDual (key a) ≤ OrderDual.toDual (key b)) :=
  ⟨fun _ _ _ hab hbc => le_trans hab hbc⟩

/-- Elements with one key keep the order in which they were listed. -/
theorem filter_sortDown (k : κ) (l : List α) :
    (sortDown key l).filter (fun a => key a = k) = l.filter (fun a => key a = k) := by
  have hpw : (l.filter (fun a => key a = k)).Pairwise
      (fun a b => OrderDual.toDual (key a) ≤ OrderDual.toDual (key b)) := by
    apply List.pairwise_of_forall_mem_list
    intro a ha b hb
    have hak := of_decide_eq_true (List.mem_filter.mp ha).2
    have hbk := of_decide_eq_true (List.mem_filter.mp hb).2
    rw [hak, hbk]
  have hsub : (l.filter (fun a => key a = k)).Sublist (sortDown key l) :=
    List.sublist_insertionSort hpw List.filter_sublist
  have hfilter := hsub.filter (fun a => key a = k)
  simp only [List.filter_filter, Bool.and_self] at hfilter
  exact (hfilter.eq_of_length ((sortDown_perm key l).filter _).length_eq.symm).symm

variable [DecidableEq α]

theorem idxOf_sortDown_le_iff {a b : α} (hab : key a = key b) (l : List α) :
    (sortDown key l).idxOf a ≤ (sortDown key l).idxOf b ↔ l.idxOf a ≤ l.idxOf b := by
  have ha : decide (key a = key b) = true := decide_eq_true hab
  have hb : decide (key b = key b) = true := decide_eq_true rfl
  rw [← idxOf_filter_le_iff (fun c => key c = key b) ha hb (sortDown key l),
    ← idxOf_filter_le_iff (fun c => key c = key b) ha hb l, filter_sortDown]

/-- Whatever comes first has the greater key. -/
theorem key_le_of_idxOf_le {l : List α} {a b : α} (hb : b ∈ l)
    (hab : (sortDown key l).idxOf a ≤ (sortDown key l).idxOf b) : key b ≤ key a := by
  have hblt := List.idxOf_lt_length_iff.mpr ((mem_sortDown key).mpr hb)
  have halt : (sortDown key l).idxOf a < (sortDown key l).length := by omega
  rcases Nat.lt_or_eq_of_le hab with hlt | heq
  · have hrel := List.pairwise_iff_getElem.mp (sortDown_pairwise key l) _ _ halt hblt hlt
    rwa [List.getElem_idxOf, List.getElem_idxOf] at hrel
  · have hsame := (List.idxOf_inj (List.idxOf_lt_length_iff.mp halt)).mp heq
    rw [hsame]

/-- How many go ahead of an element: those with a greater key, and those with the
same key that are listed before it. -/
def place (l : List α) (a : α) : ℕ :=
  l.countP (fun b => key a < key b) +
    (l.takeWhile (fun b => b ≠ a)).countP (fun b => key b = key a)

theorem idxOf_of_sorted {l : List α} (hl : l.Pairwise (fun a b => key b ≤ key a)) {a : α}
    (ha : a ∈ l) : l.idxOf a = place key l a := by
  unfold place
  induction l with
  | nil => simp at ha
  | cons x l ih =>
    obtain ⟨hx, hl⟩ := List.pairwise_cons.mp hl
    by_cases hxa : x = a
    · subst hxa
      have hnone : l.countP (fun b => key x < key b) = 0 := by
        rw [List.countP_eq_zero]
        intro b hb
        simpa using hx b hb
      simp [hnone]
    · have hmem : a ∈ l := (List.mem_cons.mp ha).resolve_left (fun h => hxa h.symm)
      have hle := hx a hmem
      have hrest := ih hl hmem
      rw [List.idxOf_cons_ne _ hxa, hrest]
      rcases lt_or_eq_of_le hle with hlt | heq
      · simp [hxa, hlt, hlt.ne']
        omega
      · simp [hxa, heq]
        omega

/-- The place of an element is its position in the ranking. -/
theorem idxOf_sortDown {l : List α} {a : α} (ha : a ∈ l) :
    (sortDown key l).idxOf a = place key l a := by
  rw [idxOf_of_sorted key (sortDown_pairwise key l) ((mem_sortDown key).mpr ha)]
  unfold place
  have heq : decide (key a = key a) = true := decide_eq_true rfl
  rw [(sortDown_perm key l).countP_eq,
    ← idxOf_filter (fun b => key b = key a) heq (sortDown key l),
    ← idxOf_filter (fun b => key b = key a) heq l, filter_sortDown]

/-- An element goes behind fewer than there are with its key or a greater one. -/
theorem place_lt {l : List α} {a : α} (ha : a ∈ l) :
    place key l a < l.countP (fun b => key a ≤ key b) := by
  unfold place
  induction l with
  | nil => simp at ha
  | cons x l ih =>
    by_cases hxa : x = a
    · subst hxa
      have hle : l.countP (fun b => key x < key b) ≤ l.countP (fun b => key x ≤ key b) :=
        List.countP_mono_left (fun b _ hb => by simpa using (of_decide_eq_true hb).le)
      simp
      omega
    · have hrest := ih ((List.mem_cons.mp ha).resolve_left (fun h => hxa h.symm))
      simp only [ne_eq, decide_not] at hrest ⊢
      rcases lt_trichotomy (key a) (key x) with hlt | heq | hgt
      · simp [hxa, hlt, hlt.le, hlt.ne']
        omega
      · simp [hxa, heq]
        rw [← heq]
        omega
      · simp [hxa, hgt.not_gt, hgt.not_ge, hgt.ne]
        omega

end Sorting

/-! The choice: the first of the elements with the greatest key. -/

section Choice

variable (key : α → κ)

theorem maxOn?_eq_none {l : List α} : l.maxOn? key = none ↔ l = [] := by
  rw [← Option.not_isSome_iff_eq_none, List.isSome_maxOn?_iff, not_not]

theorem maxOn?_map (key' : β → κ) (f : α → β) (h : ∀ a, key' (f a) = key a) (l : List α) :
    (l.map f).maxOn? key' = (l.maxOn? key).map f := by
  induction l with
  | nil => simp
  | cons a l ih =>
    rw [List.map_cons, List.maxOn?_cons, List.maxOn?_cons, ih, Option.map_some, Option.some.injEq]
    cases l.maxOn? key with
    | none => rfl
    | some b =>
      simp only [Option.map_some, Option.elim_some, maxOn_eq_if, h]
      split <;> rfl

variable [DecidableEq α]

theorem maxOn?_spec {l : List α} {c : α} (h : l.maxOn? key = some c) :
    c ∈ l ∧ ∀ d ∈ l, key d ≤ key c ∧ (key d = key c → l.idxOf c ≤ l.idxOf d) := by
  induction l generalizing c with
  | nil => simp at h
  | cons a l ih =>
    rw [List.maxOn?_cons, Option.some.injEq] at h
    cases hrest : l.maxOn? key with
    | none =>
      rw [maxOn?_eq_none] at hrest
      subst hrest
      subst h
      simp
    | some b =>
      obtain ⟨hb, hmax⟩ := ih hrest
      rw [hrest, Option.elim_some, maxOn_eq_if] at h
      by_cases hle : key b ≤ key a
      · rw [if_pos hle] at h
        subst h
        refine ⟨List.mem_cons_self, ?_⟩
        intro d hd
        refine ⟨?_, fun _ => by simp⟩
        rcases List.mem_cons.mp hd with rfl | hd
        · exact le_refl _
        · exact le_trans (hmax d hd).1 hle
      · rw [if_neg hle] at h
        subst h
        have hlt := lt_of_not_ge hle
        refine ⟨List.mem_cons_of_mem a hb, ?_⟩
        intro d hd
        have hab : a ≠ b := fun h => absurd hlt (by rw [h]; exact lt_irrefl _)
        rcases List.mem_cons.mp hd with rfl | hd
        · exact ⟨hlt.le, fun heq => absurd heq hlt.ne⟩
        · refine ⟨(hmax d hd).1, ?_⟩
          intro heq
          have had : a ≠ d := fun h => absurd hlt (by rw [h, heq]; exact lt_irrefl _)
          have hfirst := (hmax d hd).2 heq
          rw [List.idxOf_cons_ne _ hab, List.idxOf_cons_ne _ had]
          omega

/-- The choice is the element of the greatest key that comes first. -/
theorem maxOn?_eq_some {l : List α} {c : α} :
    l.maxOn? key = some c ↔
      c ∈ l ∧ ∀ d ∈ l, key d ≤ key c ∧ (key d = key c → l.idxOf c ≤ l.idxOf d) := by
  constructor
  · exact maxOn?_spec key
  · rintro ⟨hmem, hmax⟩
    obtain ⟨d, hfound⟩ := Option.isSome_iff_exists.mp (List.isSome_maxOn?_of_mem (f := key) hmem)
    obtain ⟨hd, hdmax⟩ := maxOn?_spec key hfound
    have heq : key d = key c := le_antisymm (hmax d hd).1 (hdmax c hmem).1
    have hle := (hmax d hd).2 heq
    have hge := (hdmax c hmem).2 heq.symm
    rw [hfound, (List.idxOf_inj hd).mp (le_antisymm hge hle)]

/-- Keys that order the elements alike choose alike. -/
theorem maxOn?_congr (key' : α → μ) {l : List α}
    (h : ∀ a ∈ l, ∀ b ∈ l, key a ≤ key b ↔ key' a ≤ key' b) :
    l.maxOn? key = l.maxOn? key' := by
  apply Option.ext
  intro c
  rw [maxOn?_eq_some, maxOn?_eq_some]
  refine and_congr_right ?_
  intro hc
  refine forall_congr' ?_
  intro d
  refine imp_congr_right ?_
  intro hd
  rw [h d hd c hc]
  refine and_congr_right ?_
  intro hle
  have heq : key d = key c ↔ key' d = key' c := by
    rw [le_antisymm_iff, le_antisymm_iff, h d hd c hc, h c hc d hd]
  rw [heq]

/-- The choice is made among elements that beat all the others. -/
theorem maxOn?_filter (p : α → Bool) {l : List α} (hne : l.filter p ≠ [])
    (h : ∀ a ∈ l, p a = true → ∀ b ∈ l, p b = false → key b < key a) :
    (l.filter p).maxOn? key = l.maxOn? key := by
  obtain ⟨c, hfound⟩ := Option.isSome_iff_exists.mp
    (List.isSome_maxOn?_iff.mpr hne : ((l.filter p).maxOn? key).isSome)
  obtain ⟨hmem, hmax⟩ := (maxOn?_eq_some key).mp hfound
  obtain ⟨hc, hpc⟩ := List.mem_filter.mp hmem
  rw [hfound]
  symm
  rw [maxOn?_eq_some]
  refine ⟨hc, ?_⟩
  intro d hd
  cases hpd : p d with
  | false =>
    have hlt := h c hc hpc d hd hpd
    exact ⟨hlt.le, fun heq => absurd heq hlt.ne⟩
  | true =>
    obtain ⟨hle, hfirst⟩ := hmax d (List.mem_filter.mpr ⟨hd, hpd⟩)
    refine ⟨hle, ?_⟩
    intro heq
    exact (idxOf_filter_le_iff p hpc hpd l).mp (hfirst heq)

/-- Among ranked elements the rank breaks the ties. -/
theorem maxOn?_sortDown (rank : α → κ) (key : α → μ) (l : List α) :
    (sortDown rank l).maxOn? key = l.maxOn? (fun a => toLex (key a, rank a)) := by
  symm
  cases hfound : (sortDown rank l).maxOn? key with
  | none =>
    rw [maxOn?_eq_none, ← List.length_eq_zero_iff, length_sortDown,
      List.length_eq_zero_iff] at hfound
    rw [hfound, List.maxOn?_nil]
  | some c =>
    rw [maxOn?_eq_some] at hfound ⊢
    obtain ⟨hmem, hmax⟩ := hfound
    rw [mem_sortDown] at hmem
    refine ⟨hmem, ?_⟩
    intro d hd
    obtain ⟨hle, hfirst⟩ := hmax d ((mem_sortDown rank).mpr hd)
    constructor
    · rw [Prod.Lex.toLex_le_toLex]
      rcases lt_or_eq_of_le hle with hlt | heq
      · exact Or.inl hlt
      · exact Or.inr ⟨heq, key_le_of_idxOf_le rank hd (hfirst heq)⟩
    · intro heq
      obtain ⟨hkey, hrank⟩ := Prod.mk.inj (toLex.injective heq)
      exact (idxOf_sortDown_le_iff rank hrank.symm l).mp (hfirst hkey)

end Choice

/-! The cap. -/

section Cap

variable [DecidableEq α] (rank : α → κ) (key : α → μ) (saves : μ → Bool) (m : ℕ)

/-- The first elements of the ranking. When that cuts something off, the element of
the greatest key is kept too, if its key saves it. -/
def capped (l : List α) : List α :=
  let ranked := sortDown rank l
  let top := ranked.take m
  if top.length < ranked.length then
    match ranked.maxOn? key with
    | some candidate =>
        if saves (key candidate) && !top.contains candidate then top ++ [candidate] else top
    | none => top
  else top

/-- The element that the cap keeps whatever its place. -/
def IsSaved (l : List α) (c : α) : Prop :=
  saves (key c) = true ∧ l.maxOn? (fun a => toLex (key a, rank a)) = some c

variable {rank key saves} in
/-- A saved element is one of the greatest in key and rank. -/
theorem IsSaved.greatest {l : List α} {c : α} (h : IsSaved rank key saves l c) :
    ∀ d ∈ l, toLex (key d, rank d) ≤ toLex (key c, rank c) :=
  fun d hd => (((maxOn?_eq_some _).mp h.2).2 d hd).1

/-- What the cap keeps: the elements that fewer than `m` go ahead of, and the saved one. -/
def IsKept (l : List α) (c : α) : Prop :=
  c ∈ l ∧ (place rank l c < m ∨ IsSaved rank key saves l c)

theorem mem_take_sortDown {l : List α} {c : α} :
    c ∈ (sortDown rank l).take m ↔ c ∈ l ∧ place rank l c < m := by
  rw [mem_take_iff_idxOf, mem_sortDown]
  refine and_congr_right ?_
  intro hc
  rw [idxOf_sortDown rank hc]

/-- Either the ranking is cut and its saved element appended, or its head is kept. -/
theorem capped_cases (l : List α) :
    (∃ c, IsSaved rank key saves l c ∧ c ∈ l ∧ c ∉ (sortDown rank l).take m ∧
      capped rank key saves m l = (sortDown rank l).take m ++ [c]) ∨
    (capped rank key saves m l = (sortDown rank l).take m ∧
      ∀ c ∈ l, IsSaved rank key saves l c → c ∈ (sortDown rank l).take m) := by
  unfold capped
  by_cases hcut : ((sortDown rank l).take m).length < (sortDown rank l).length
  · simp only [if_pos hcut]
    rw [maxOn?_sortDown]
    cases hfound : l.maxOn? (fun a => toLex (key a, rank a)) with
    | none =>
      refine Or.inr ⟨rfl, ?_⟩
      intro c _ hsaved
      exact absurd (hfound.symm.trans hsaved.2) (by simp)
    | some candidate =>
      simp only
      by_cases happend : saves (key candidate) && !((sortDown rank l).take m).contains candidate
      · simp only [if_pos happend]
        rw [Bool.and_eq_true, Bool.not_eq_true', List.contains_eq_mem, decide_eq_false_iff_not]
          at happend
        exact Or.inl ⟨candidate, ⟨happend.1, hfound⟩, ((maxOn?_eq_some _).mp hfound).1,
          happend.2, rfl⟩
      · simp only [if_neg happend]
        refine Or.inr ⟨trivial, ?_⟩
        rintro c _ ⟨hsaves, hc⟩
        obtain rfl : candidate = c := Option.some.inj (hfound.symm.trans hc)
        by_contra hout
        exact happend (by simp [hsaves, hout])
  · simp only [if_neg hcut]
    refine Or.inr ⟨trivial, ?_⟩
    intro c hc _
    rw [List.take_of_length_le (by rw [List.length_take] at hcut; omega), mem_sortDown]
    exact hc

theorem mem_capped {l : List α} {c : α} :
    c ∈ capped rank key saves m l ↔ IsKept rank key saves m l c := by
  unfold IsKept
  rcases capped_cases rank key saves m l with ⟨s, hsaved, hs, _, heq⟩ | ⟨heq, hall⟩
  · rw [heq, List.mem_append, List.mem_singleton, mem_take_sortDown]
    constructor
    · rintro (⟨hc, hplace⟩ | rfl)
      · exact ⟨hc, Or.inl hplace⟩
      · exact ⟨hs, Or.inr hsaved⟩
    · rintro ⟨hc, hplace | hsaved'⟩
      · exact Or.inl ⟨hc, hplace⟩
      · exact Or.inr (Option.some.inj (hsaved'.2.symm.trans hsaved.2))
  · rw [heq]
    constructor
    · intro hc
      obtain ⟨hc, hplace⟩ := (mem_take_sortDown rank m).mp hc
      exact ⟨hc, Or.inl hplace⟩
    · rintro ⟨hc, hplace | hsaved⟩
      · exact (mem_take_sortDown rank m).mpr ⟨hc, hplace⟩
      · exact hall c hc hsaved

/-- The cap looks at the keys of the elements only. -/
theorem capped_map [DecidableEq β] (rank' : β → κ) (key' : β → μ) (f : α → β)
    (hrank : ∀ a, rank' (f a) = rank a) (hkey : ∀ a, key' (f a) = key a) {l : List α}
    (hinj : ∀ a ∈ l, ∀ b ∈ l, f a = f b → a = b) :
    capped rank' key' saves m (l.map f) = (capped rank key saves m l).map f := by
  unfold capped
  simp only [sortDown_map rank rank' f hrank, ← List.map_take, List.length_map,
    maxOn?_map key key' f hkey]
  split
  · cases hfound : (sortDown rank l).maxOn? key with
    | none => rfl
    | some c =>
      have hc := (mem_sortDown rank).mp ((maxOn?_eq_some key).mp hfound).1
      have hcontains : (((sortDown rank l).take m).map f).contains (f c) =
          ((sortDown rank l).take m).contains c := by
        rw [Bool.eq_iff_iff, List.contains_iff_mem, List.contains_iff_mem, List.mem_map]
        constructor
        · rintro ⟨a, ha, heq⟩
          exact hinj a ((mem_sortDown rank).mp (List.mem_of_mem_take ha)) c hc heq ▸ ha
        · exact fun hmem => ⟨c, hmem, rfl⟩
      simp only [Option.map_some, hkey, hcontains]
      split
      · simp
      · rfl
  · rfl

/-- The cap keeps the images of what it keeps, where the keys are those of the images. -/
theorem mem_capped_map [DecidableEq β] (rank' : β → κ) (key' : β → μ) (f : α → β) {l : List α}
    (hrank : ∀ a ∈ l, rank' (f a) = rank a) (hkey : ∀ a ∈ l, key' (f a) = key a)
    (hinj : ∀ a ∈ l, ∀ b ∈ l, f a = f b → a = b) {b : β} :
    b ∈ capped rank' key' saves m (l.map f) ↔
      ∃ a, IsKept rank key saves m l a ∧ f a = b := by
  have himages := capped_map (fun x : {a // a ∈ l} => rank x.1) (fun x => key x.1) saves m rank'
    key' (fun x => f x.1) (fun x => hrank x.1 x.2) (fun x => hkey x.1 x.2) (l := l.attach)
    (fun x _ y _ h => Subtype.ext (hinj x.1 x.2 y.1 y.2 h))
  have hmembers := capped_map (fun x : {a // a ∈ l} => rank x.1) (fun x => key x.1) saves m rank key
    Subtype.val (fun _ => rfl) (fun _ => rfl) (l := l.attach) (fun _ _ _ _ h => Subtype.ext h)
  have hlist : l.attach.map (fun x => f x.1) = l.map f := List.attach_map_val
  rw [hlist] at himages
  rw [List.attach_map_subtype_val] at hmembers
  simp only [← mem_capped]
  rw [himages, hmembers, List.mem_map]
  simp only [List.mem_map]
  constructor
  · rintro ⟨x, hx, rfl⟩
    exact ⟨x.1, ⟨x, hx, rfl⟩, rfl⟩
  · rintro ⟨a, ⟨x, hx, rfl⟩, rfl⟩
    exact ⟨x, hx, rfl⟩

/-- The cap keeps the order of the ranking. -/
theorem idxOf_capped_le_iff {l : List α} {a b : α} (ha : a ∈ capped rank key saves m l)
    (hb : b ∈ capped rank key saves m l) :
    (capped rank key saves m l).idxOf a ≤ (capped rank key saves m l).idxOf b ↔
      (sortDown rank l).idxOf a ≤ (sortDown rank l).idxOf b := by
  rcases capped_cases rank key saves m l with ⟨s, _, hs, hout, heq⟩ | ⟨heq, -⟩
  · rw [heq, List.mem_append, List.mem_singleton] at ha hb
    rw [heq]
    have hbehind : m ≤ (sortDown rank l).idxOf s := by
      by_contra hlt
      exact hout (mem_take_iff_idxOf.mpr ⟨(mem_sortDown rank).mpr hs, by omega⟩)
    have hlast : ((sortDown rank l).take m ++ [s]).idxOf s = ((sortDown rank l).take m).length := by
      rw [List.idxOf_append_of_notMem hout]
      simp
    have htop : ∀ c ∈ (sortDown rank l).take m,
        ((sortDown rank l).take m ++ [s]).idxOf c = (sortDown rank l).idxOf c ∧
        (sortDown rank l).idxOf c < m ∧
        (sortDown rank l).idxOf c < ((sortDown rank l).take m).length := by
      intro c hc
      have htake := idxOf_take_of_mem hc
      refine ⟨by rw [List.idxOf_append_of_mem hc, htake], (mem_take_iff_idxOf.mp hc).2, ?_⟩
      rw [← htake]
      exact List.idxOf_lt_length_iff.mpr hc
    rcases ha with ha | rfl <;> rcases hb with hb | rfl
    · rw [(htop a ha).1, (htop b hb).1]
    · have h := htop a ha
      omega
    · have h := htop b hb
      omega
    · exact iff_of_true (le_refl _) (le_refl _)
  · rw [heq] at ha hb ⊢
    rw [idxOf_take_of_mem ha, idxOf_take_of_mem hb]

/-- A choice among the kept elements, by a key that settles the rank. -/
theorem maxOn?_capped (choice : α → ν) (hrank : ∀ a b, choice a = choice b → rank a = rank b)
    {l : List α} {c : α} :
    (capped rank key saves m l).maxOn? choice = some c ↔
      IsKept rank key saves m l c ∧ ∀ d, IsKept rank key saves m l d →
        choice d ≤ choice c ∧ (choice d = choice c → l.idxOf c ≤ l.idxOf d) := by
  rw [maxOn?_eq_some, mem_capped]
  refine and_congr_right ?_
  intro hc
  have hc' := (mem_capped rank key saves m).mpr hc
  refine forall_congr' ?_
  intro d
  rw [mem_capped]
  refine imp_congr_right ?_
  intro hd
  have hd' := (mem_capped rank key saves m).mpr hd
  refine and_congr_right ?_
  intro _
  refine imp_congr_right ?_
  intro heq
  rw [idxOf_capped_le_iff rank key saves m hc' hd',
    idxOf_sortDown_le_iff rank (hrank d c heq).symm]

/-- The cap leaves the choice as it was, as long as every element it drops is beaten by
one that it keeps. -/
theorem maxOn?_capped_eq_iff (choice : α → ν)
    (hrank : ∀ a b, choice a = choice b → rank a = rank b) (l : List α) :
    (capped rank key saves m l).maxOn? choice = l.maxOn? choice ↔
      ∀ d ∈ l, ¬IsKept rank key saves m l d → ∃ c, IsKept rank key saves m l c ∧
        (choice d < choice c ∨ choice d = choice c ∧ l.idxOf c < l.idxOf d) := by
  constructor
  · intro h d hd hdropped
    obtain ⟨w, hw⟩ := Option.isSome_iff_exists.mp (List.isSome_maxOn?_of_mem (f := choice) hd)
    have hkept := ((maxOn?_capped rank key saves m choice hrank).mp (h.trans hw)).1
    obtain ⟨-, hmax⟩ := (maxOn?_eq_some choice).mp hw
    obtain ⟨hle, hfirst⟩ := hmax d hd
    refine ⟨w, hkept, ?_⟩
    rcases lt_or_eq_of_le hle with hlt | heq
    · exact Or.inl hlt
    · refine Or.inr ⟨heq, lt_of_le_of_ne (hfirst heq) ?_⟩
      intro hidx
      rw [List.idxOf_inj hkept.1] at hidx
      exact hdropped (hidx ▸ hkept)
  · intro h
    cases hw : l.maxOn? choice with
    | none =>
      rw [maxOn?_eq_none] at hw
      rw [hw, maxOn?_eq_none]
      simp [capped, sortDown, sortOn]
    | some w =>
      obtain ⟨hmem, hmax⟩ := (maxOn?_eq_some choice).mp hw
      rw [maxOn?_capped rank key saves m choice hrank]
      refine ⟨?_, fun d hd => hmax d hd.1⟩
      by_contra hdropped
      obtain ⟨c, hc, hbeats⟩ := h w hmem hdropped
      obtain ⟨hle, hfirst⟩ := hmax c hc.1
      rcases hbeats with hlt | ⟨heq, hbefore⟩
      · exact absurd hle (not_le.mpr hlt)
      · have hle' := hfirst heq.symm
        omega

end Cap

end Raglogs.Ranking

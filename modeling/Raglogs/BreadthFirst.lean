import Mathlib.Data.Finset.Card
import Mathlib.Logic.Relation
import Raglogs.BoundedScans

/-!
Breadth-first searches over a graph given by the neighbours of each node. One search
records how far a node is, out to a limit; the other stops when it meets a node. Both come
to an end in a finite set of nodes that the neighbours do not leave.
-/

namespace Raglogs.BreadthFirst

open BoundedScans

variable {α : Type*} (next : α → List α)

/-! The search that records distances. -/

/-- What a search has seen, how far off what it found is, and what it has yet to look at. -/
structure State (α : Type*) where
  seen : List α
  found : List (α × ℕ)
  queue : List (α × ℕ)

def start (src : α) : State α := ⟨[src], [], [(src, 0)]⟩

/-- A path of so many steps. -/
inductive Steps (R : α → α → Prop) : ℕ → α → α → Prop
  | refl (a : α) : Steps R 0 a a
  | tail {n : ℕ} {a b c : α} : Steps R n a b → R b c → Steps R (n + 1) a c

/-- The length of the shortest paths. -/
def IsDistance (R : α → α → Prop) (n : ℕ) (a b : α) : Prop :=
  Steps R n a b ∧ ∀ m, Steps R m a b → n ≤ m

/-- One step of a path. -/
def Linked (next : α → List α) (a b : α) : Prop := b ∈ next a

def Recorded (src : α) (st : State α) (x : α × ℕ) : Prop := x = (src, 0) ∨ x ∈ st.found

/-- What holds in each round. Of the nodes that were found, those still queued are sorted by
their distance, none is two steps further than one of them, and the neighbours of the others
within the limit were found no later than they should. -/
structure Inv (limit : ℤ) (src : α) (st : State α) : Prop where
  seen_iff : ∀ a, a ∈ st.seen ↔ ∃ d, Recorded src st (a, d)
  path : ∀ x ∈ st.found, Steps (Linked next) x.2 src x.1 ∧ (x.2 : ℤ) ≤ limit ∧ x.1 ≠ src
  keys : (st.found.map Prod.fst).Nodup
  queued : ∀ x ∈ st.queue, Recorded src st x
  sorted : st.queue.Pairwise fun x y => x.2 ≤ y.2
  near : ∀ y, Recorded src st y → ∀ x ∈ st.queue, y.2 ≤ x.2 + 1
  done : ∀ x, Recorded src st x → x ∈ st.queue ∨
    ((x.2 : ℤ) < limit → ∀ b ∈ next x.1, ∃ d, d ≤ x.2 + 1 ∧ Recorded src st (b, d))

variable {next} {limit : ℤ} {src : α}

theorem Inv.start : Inv next limit src (start src) where
  seen_iff a := by simp [BreadthFirst.start, Recorded]
  path x hx := absurd hx List.not_mem_nil
  keys := List.nodup_nil
  queued x hx := .inl (List.mem_singleton.mp hx)
  sorted := List.pairwise_singleton _ _
  near y hy x hx := by
    rcases hy with rfl | hy
    · exact Nat.zero_le _
    · exact absurd hy List.not_mem_nil
  done x hx := by
    rcases hx with rfl | hx
    · exact .inl List.mem_cons_self
    · exact absurd hx List.not_mem_nil

theorem Inv.recorded_path {st : State α} (h : Inv next limit src st) {x : α × ℕ}
    (hx : Recorded src st x) : Steps (Linked next) x.2 src x.1 := by
  rcases hx with rfl | hx
  · exact .refl src
  · exact (h.path x hx).1

/-- A node beyond the limit is only taken off the queue. -/
theorem Inv.skip {st : State α} (h : Inv next limit src st) {a : α} {d : ℕ}
    {rest : List (α × ℕ)} (hqueue : st.queue = (a, d) :: rest) (hd : limit ≤ d) :
    Inv next limit src { st with queue := rest } where
  seen_iff := h.seen_iff
  path := h.path
  keys := h.keys
  queued x hx := h.queued x (hqueue ▸ List.mem_cons_of_mem _ hx)
  sorted := (List.pairwise_cons.mp (hqueue ▸ h.sorted)).2
  near y hy x hx := h.near y hy x (hqueue ▸ List.mem_cons_of_mem _ hx)
  done x hx := by
    rcases h.done x hx with hx | hx
    · rcases List.mem_cons.mp (hqueue ▸ hx) with rfl | hx
      · exact .inr fun hlt => absurd hlt (not_lt_of_ge hd)
      · exact .inl hx
    · exact .inr hx

/-- Behind the last round every path within the limit leads to a node that was found. -/
theorem Inv.covers {st : State α} (h : Inv next limit src st) (hqueue : st.queue = []) {n : ℕ}
    {a : α} (hpath : Steps (Linked next) n src a) (hn : (n : ℤ) ≤ limit) :
    ∃ d, d ≤ n ∧ Recorded src st (a, d) := by
  induction n generalizing a with
  | zero =>
    cases hpath
    exact ⟨0, le_refl 0, .inl rfl⟩
  | succ n ih =>
    obtain _ | ⟨hpath, hstep⟩ := hpath
    obtain ⟨d, hd, hrec⟩ := ih hpath (by omega)
    rcases h.done _ hrec with hmem | hdone
    · rw [hqueue] at hmem
      cases hmem
    · obtain ⟨e, he, hrec'⟩ := hdone (by dsimp only; omega) _ hstep
      exact ⟨e, by dsimp only at he; omega, hrec'⟩

/-! The search that stops when it meets a node. -/

/-- What holds while the node is not met. -/
structure Unmet (next : α → List α) (src dst : α) (seen queue : List α) : Prop where
  src_mem : src ∈ seen
  reached : ∀ a ∈ seen, Relation.ReflTransGen (Linked next) src a
  dst_notMem : dst ∉ seen
  queued : ∀ a ∈ queue, a ∈ seen
  done : ∀ a ∈ seen, a ∈ queue ∨ ∀ b ∈ next a, b ∈ seen

theorem Unmet.start {dst : α} (hne : src ≠ dst) : Unmet next src dst [src] [src] where
  src_mem := List.mem_singleton_self src
  reached _ ha := List.mem_singleton.mp ha ▸ .refl
  dst_notMem hdst := hne (List.mem_singleton.mp hdst).symm
  queued _ ha := ha
  done _ ha := .inl ha

/-- With nothing left to look at, the node is not to be reached. -/
theorem Unmet.not_reached {dst : α} {seen : List α} (h : Unmet next src dst seen []) :
    ¬ Relation.ReflTransGen (Linked next) src dst := by
  intro hreach
  have hseen : ∀ a, Relation.ReflTransGen (Linked next) src a → a ∈ seen := by
    intro a ha
    induction ha with
    | refl => exact h.src_mem
    | tail _ hstep ih =>
      rcases h.done _ ih with hqueued | hdone
      · cases hqueued
      · exact hdone _ hstep
  exact h.dst_notMem (hseen dst hreach)

variable [DecidableEq α]

/-! What is new among some nodes. -/

theorem mem_firsts_id {seen l : List α} {a : α} : a ∈ firsts id seen l ↔ a ∈ l ∧ a ∉ seen := by
  induction l generalizing seen with
  | nil => simp [firsts]
  | cons b l ih =>
    rw [firsts, id_eq]
    by_cases hb : b ∈ seen
    · rw [if_pos hb, ih, List.mem_cons]
      constructor
      · exact fun h => ⟨.inr h.1, h.2⟩
      · rintro ⟨rfl | h, hseen⟩
        · exact absurd hb hseen
        · exact ⟨h, hseen⟩
    · rw [if_neg hb, List.mem_cons, ih, List.mem_cons, List.mem_cons, not_or]
      constructor
      · rintro (rfl | ⟨h, -, hseen⟩)
        · exact ⟨.inl rfl, hb⟩
        · exact ⟨.inr h, hseen⟩
      · rintro ⟨rfl | h, hseen⟩
        · exact .inl rfl
        · by_cases hab : a = b
          · exact .inl hab
          · exact .inr ⟨h, hab, hseen⟩

theorem nodup_firsts_id (seen l : List α) : (firsts id seen l).Nodup := by
  induction l generalizing seen with
  | nil => exact List.nodup_nil
  | cons b l ih =>
    rw [firsts, id_eq]
    split
    · exact ih seen
    · refine List.nodup_cons.mpr ⟨?_, ih _⟩
      intro hb
      exact (mem_firsts_id.mp hb).2 List.mem_cons_self

theorem nodup_seen {seen l : List α} (h : seen.Nodup) :
    ((firsts id seen l).reverse ++ seen).Nodup := by
  rw [List.nodup_append]
  refine ⟨List.nodup_reverse.mpr (nodup_firsts_id seen l), h, ?_⟩
  intro a ha b hb hab
  exact (mem_firsts_id.mp (List.mem_reverse.mp ha)).2 (hab ▸ hb)

/-! The rounds of the search. -/

/-- Record and queue the nodes that were not seen before. -/
def explore (d : ℕ) : List α → State α → State α
  | [], st => st
  | b :: rest, st =>
      if b ∈ st.seen then explore d rest st
      else explore d rest ⟨b :: st.seen, st.found ++ [(b, d)], st.queue ++ [(b, d)]⟩

variable (next) in
/-- The search; there is no result if it takes more rounds than it is given. -/
def search (limit : ℤ) : ℕ → State α → Option (State α)
  | 0, st => if st.queue.isEmpty then some st else none
  | fuel + 1, st =>
      match st.queue with
      | [] => some st
      | (a, d) :: rest =>
          if limit ≤ d then search limit fuel { st with queue := rest }
          else search limit fuel (explore (d + 1) (next a) { st with queue := rest })

theorem explore_eq (d : ℕ) (l : List α) (st : State α) :
    explore d l st = ⟨(firsts id st.seen l).reverse ++ st.seen,
      st.found ++ (firsts id st.seen l).map fun b => (b, d),
      st.queue ++ (firsts id st.seen l).map fun b => (b, d)⟩ := by
  induction l generalizing st with
  | nil => simp [explore, firsts]
  | cons b l ih =>
    rw [explore, firsts, id_eq]
    by_cases hb : b ∈ st.seen
    · rw [if_pos hb, if_pos hb, ih]
    · rw [if_neg hb, if_neg hb, ih]
      simp

/-- A node within the limit is taken off the queue, and its new neighbours go behind. -/
theorem Inv.explore {st : State α} (h : Inv next limit src st) {a : α} {d : ℕ}
    {rest : List (α × ℕ)} (hqueue : st.queue = (a, d) :: rest) (hd : ¬ limit ≤ d) :
    Inv next limit src (explore (d + 1) (next a) { st with queue := rest }) := by
  have ha : Recorded src st (a, d) := h.queued _ (hqueue ▸ List.mem_cons_self)
  have hfront := List.pairwise_cons.mp (hqueue ▸ h.sorted)
  have hhigh : ∀ y, Recorded src st y → y.2 ≤ d + 1 := fun y hy =>
    h.near y hy (a, d) (hqueue ▸ List.mem_cons_self)
  have hlow : ∀ x ∈ rest, d ≤ x.2 := hfront.1
  have hsrc : src ∈ st.seen := (h.seen_iff src).mpr ⟨0, .inl rfl⟩
  have hfound : ∀ x ∈ st.found, x.1 ∈ st.seen := fun x hx =>
    (h.seen_iff x.1).mpr ⟨x.2, .inr hx⟩
  rw [explore_eq]
  generalize hfresh : firsts id st.seen (next a) = fresh
  have hmem : ∀ b, b ∈ fresh ↔ b ∈ next a ∧ b ∉ st.seen := fun b => hfresh ▸ mem_firsts_id
  have hnew : ∀ x, x ∈ fresh.map (fun b => (b, d + 1)) ↔ x.1 ∈ fresh ∧ x.2 = d + 1 := by
    intro x
    rw [List.mem_map]
    constructor
    · rintro ⟨b, hb, rfl⟩
      exact ⟨hb, rfl⟩
    · intro ⟨hx, hd⟩
      exact ⟨x.1, hx, by rw [← hd]⟩
  have hrecorded : ∀ x, Recorded src (⟨fresh.reverse ++ st.seen,
      st.found ++ fresh.map fun b => (b, d + 1), rest ++ fresh.map fun b => (b, d + 1)⟩ : State α)
        x ↔ Recorded src st x ∨ (x.1 ∈ fresh ∧ x.2 = d + 1) := by
    intro x
    rw [Recorded, Recorded, List.mem_append, hnew, or_assoc]
  refine ⟨?_, ?_, ?_, ?_, ?_, ?_, ?_⟩
  · intro b
    simp only [hrecorded, List.mem_append, List.mem_reverse, h.seen_iff]
    constructor
    · rintro (hb | ⟨e, he⟩)
      · exact ⟨d + 1, .inr ⟨hb, rfl⟩⟩
      · exact ⟨e, .inl he⟩
    · rintro ⟨e, he | he⟩
      · exact .inr ⟨e, he⟩
      · exact .inl he.1
  · intro x hx
    rcases List.mem_append.mp hx with hx | hx
    · exact h.path x hx
    · obtain ⟨hx, hdepth⟩ := (hnew x).mp hx
      obtain ⟨hnext, hseen⟩ := (hmem x.1).mp hx
      refine ⟨hdepth ▸ (h.recorded_path ha).tail hnext, ?_, ?_⟩
      · rw [hdepth]
        push_cast
        omega
      · rintro rfl
        exact hseen hsrc
  · have hfst : (fresh.map fun b => (b, d + 1)).map Prod.fst = fresh := by
      rw [List.map_map]
      exact List.map_id fresh
    rw [List.map_append, hfst, List.nodup_append]
    refine ⟨h.keys, hfresh ▸ nodup_firsts_id _ _, ?_⟩
    intro b hb c hc hbc
    obtain ⟨x, hx, rfl⟩ := List.mem_map.mp hb
    exact ((hmem c).mp hc).2 (hbc ▸ hfound x hx)
  · intro x hx
    rw [hrecorded]
    rcases List.mem_append.mp hx with hx | hx
    · exact .inl (h.queued x (hqueue ▸ List.mem_cons_of_mem _ hx))
    · exact .inr ((hnew x).mp hx)
  · rw [List.pairwise_append]
    refine ⟨hfront.2, ?_, ?_⟩
    · refine List.pairwise_map.mpr (List.pairwise_of_forall fun b c => le_refl _)
    · intro x hx y hy
      rw [((hnew y).mp hy).2]
      exact hhigh x (h.queued x (hqueue ▸ List.mem_cons_of_mem _ hx))
  · intro y hy x hx
    have hy' : y.2 ≤ d + 1 := by
      rcases (hrecorded y).mp hy with hy | hy
      · exact hhigh y hy
      · exact le_of_eq hy.2
    rcases List.mem_append.mp hx with hx | hx
    · exact le_trans hy' (Nat.add_le_add_right (hlow x hx) 1)
    · rw [((hnew x).mp hx).2]
      omega
  · intro x hx
    rcases (hrecorded x).mp hx with hold | hx
    · rcases h.done x hold with hx | hx
      · rcases List.mem_cons.mp (hqueue ▸ hx) with rfl | hx
        · -- the neighbours of the node itself
          refine .inr fun _ b hb => ?_
          by_cases hseen : b ∈ st.seen
          · obtain ⟨e, he⟩ := (h.seen_iff b).mp hseen
            exact ⟨e, hhigh _ he, (hrecorded _).mpr (.inl he)⟩
          · exact ⟨d + 1, le_refl _, (hrecorded _).mpr (.inr ⟨(hmem b).mpr ⟨hb, hseen⟩, rfl⟩)⟩
        · exact .inl (List.mem_append_left _ hx)
      · refine .inr fun hlt b hb => ?_
        obtain ⟨e, he, hrec⟩ := hx hlt b hb
        exact ⟨e, he, (hrecorded _).mpr (.inl hrec)⟩
    · exact .inl (List.mem_append_right _ ((hnew x).mpr hx))

theorem Inv.search {fuel : ℕ} {st st' : State α} (h : Inv next limit src st)
    (hsearch : search next limit fuel st = some st') :
    Inv next limit src st' ∧ st'.queue = [] := by
  induction fuel generalizing st with
  | zero =>
    rw [BreadthFirst.search] at hsearch
    split at hsearch
    case isTrue hempty =>
      obtain rfl := Option.some.inj hsearch
      exact ⟨h, List.isEmpty_iff.mp hempty⟩
    case isFalse => cases hsearch
  | succ fuel ih =>
    rw [BreadthFirst.search] at hsearch
    split at hsearch
    case h_1 hqueue =>
      obtain rfl := Option.some.inj hsearch
      exact ⟨h, hqueue⟩
    case h_2 a d rest hqueue =>
      split at hsearch
      case isTrue hd => exact ih (h.skip hqueue hd) hsearch
      case isFalse hd => exact ih (h.explore hqueue hd) hsearch

/-- The search finds exactly the other nodes within the limit, with their distances. -/
theorem mem_found_iff {fuel : ℕ} {st : State α}
    (hsearch : search next limit fuel (start src) = some st) {a : α} {n : ℕ} :
    (a, n) ∈ st.found ↔ a ≠ src ∧ IsDistance (Linked next) n src a ∧ (n : ℤ) ≤ limit := by
  obtain ⟨h, hqueue⟩ := Inv.start.search hsearch
  have hother : ∀ {b d}, b ≠ src → Recorded src st (b, d) → (b, d) ∈ st.found := by
    rintro b d hb (heq | hmem)
    · exact absurd (Prod.mk.inj heq).1 hb
    · exact hmem
  constructor
  · intro hmem
    obtain ⟨hpath, hlimit, hne⟩ := h.path _ hmem
    refine ⟨hne, ⟨hpath, ?_⟩, hlimit⟩
    intro m hm
    by_contra hlt
    obtain ⟨d, hd, hrec⟩ := h.covers hqueue hm (by dsimp only at hlimit; omega)
    -- a node is found once
    have hsame := List.inj_on_of_nodup_map h.keys hmem (hother hne hrec) rfl
    have hdn := (Prod.mk.inj hsame).2
    omega
  · intro ⟨hne, ⟨hpath, hleast⟩, hlimit⟩
    obtain ⟨d, hd, hrec⟩ := h.covers hqueue hpath hlimit
    have hge := hleast d (h.recorded_path hrec)
    obtain rfl : d = n := le_antisymm hd hge
    exact hother hne hrec

theorem keys_nodup {fuel : ℕ} {st : State α}
    (hsearch : search next limit fuel (start src) = some st) :
    (st.found.map Prod.fst).Nodup :=
  (Inv.start.search hsearch).1.keys

/-! The rounds of the search that stops. -/

/-- See and queue the nodes that were not seen before; there is nothing left to do when the
node is among them. -/
def push (dst : α) : List α → List α → List α → Option (List α × List α)
  | seen, queue, [] => some (seen, queue)
  | seen, queue, b :: rest =>
      if b = dst then none
      else if b ∈ seen then push dst seen queue rest
      else push dst (b :: seen) (queue ++ [b]) rest

variable (next) in
/-- Whether the node is met; there is no answer if that takes more rounds than are given. -/
def meets (dst : α) : ℕ → List α → List α → Option Bool
  | _, _, [] => some false
  | 0, _, _ :: _ => none
  | fuel + 1, seen, a :: rest =>
      match push dst seen rest (next a) with
      | none => some true
      | some (seen, queue) => meets dst fuel seen queue

theorem push_eq (dst : α) (seen queue l : List α) : push dst seen queue l =
    if dst ∈ l then none
    else some ((firsts id seen l).reverse ++ seen, queue ++ firsts id seen l) := by
  induction l generalizing seen queue with
  | nil => simp [push, firsts]
  | cons b l ih =>
    rw [push, firsts, id_eq]
    by_cases hb : b = dst
    · rw [if_pos hb, if_pos (hb ▸ List.mem_cons_self)]
    · have hmem : dst ∈ b :: l ↔ dst ∈ l := by
        rw [List.mem_cons]
        exact or_iff_right (Ne.symm hb)
      rw [if_neg hb, ih, ih]
      simp only [hmem]
      by_cases hseen : b ∈ seen
      · simp [hseen]
      · simp [hseen]

theorem Unmet.step {dst a : α} {seen rest : List α} (h : Unmet next src dst seen (a :: rest))
    (hdst : dst ∉ next a) : Unmet next src dst ((firsts id seen (next a)).reverse ++ seen)
      (rest ++ firsts id seen (next a)) := by
  have ha : a ∈ seen := h.queued a List.mem_cons_self
  refine ⟨List.mem_append_right _ h.src_mem, ?_, ?_, ?_, ?_⟩
  · intro b hb
    rcases List.mem_append.mp hb with hb | hb
    · exact (h.reached a ha).tail (mem_firsts_id.mp (List.mem_reverse.mp hb)).1
    · exact h.reached b hb
  · intro hmem
    rcases List.mem_append.mp hmem with hmem | hmem
    · exact hdst (mem_firsts_id.mp (List.mem_reverse.mp hmem)).1
    · exact h.dst_notMem hmem
  · intro b hb
    rcases List.mem_append.mp hb with hb | hb
    · exact List.mem_append_right _ (h.queued b (List.mem_cons_of_mem a hb))
    · exact List.mem_append_left _ (List.mem_reverse.mpr hb)
  · intro b hb
    rcases List.mem_append.mp hb with hb | hb
    · exact .inl (List.mem_append_right _ (List.mem_reverse.mp hb))
    · rcases h.done b hb with hqueued | hdone
      · rcases List.mem_cons.mp hqueued with rfl | hqueued
        · refine .inr fun c hc => ?_
          by_cases hseen : c ∈ seen
          · exact List.mem_append_right _ hseen
          · exact List.mem_append_left _ (List.mem_reverse.mpr (mem_firsts_id.mpr ⟨hc, hseen⟩))
        · exact .inl (List.mem_append_left _ hqueued)
      · exact .inr fun c hc => List.mem_append_right _ (hdone c hc)

/-- The answer of a search is right. -/
theorem meets_iff {dst : α} {fuel : ℕ} {seen queue : List α} {answer : Bool}
    (h : Unmet next src dst seen queue) (hmeets : meets next dst fuel seen queue = some answer) :
    answer = true ↔ Relation.ReflTransGen (Linked next) src dst := by
  induction fuel generalizing seen queue with
  | zero =>
    cases queue with
    | cons a rest => cases hmeets
    | nil =>
      rw [meets] at hmeets
      obtain rfl := Option.some.inj hmeets
      exact iff_of_false Bool.false_ne_true h.not_reached
  | succ fuel ih =>
    cases queue with
    | nil =>
      rw [meets] at hmeets
      obtain rfl := Option.some.inj hmeets
      exact iff_of_false Bool.false_ne_true h.not_reached
    | cons a rest =>
      rw [meets, push_eq] at hmeets
      by_cases hdst : dst ∈ next a
      · rw [if_pos hdst] at hmeets
        obtain rfl := Option.some.inj hmeets
        exact ⟨fun _ => (h.reached a (h.queued a List.mem_cons_self)).tail hdst, fun _ => rfl⟩
      · rw [if_neg hdst] at hmeets
        exact ih (h.step hdst) hmeets

/-! Both searches come to an end. -/

section Termination

variable {V : Finset α}

theorem length_le_card {seen : List α} (hnodup : seen.Nodup) (hseen : ∀ a ∈ seen, a ∈ V) :
    seen.length ≤ V.card := by
  rw [← List.toFinset_card_of_nodup hnodup]
  exact Finset.card_le_card fun a ha => hseen a (List.mem_toFinset.mp ha)

theorem firsts_subset (hclosed : ∀ a ∈ V, ∀ b ∈ next a, b ∈ V) {seen : List α} {a : α}
    (ha : a ∈ V) : ∀ b ∈ firsts id seen (next a), b ∈ V :=
  fun b hb => hclosed a ha b (mem_firsts_id.mp hb).1

theorem seen_subset (hclosed : ∀ a ∈ V, ∀ b ∈ next a, b ∈ V) {seen : List α} {a : α}
    (ha : a ∈ V) (hseen : ∀ b ∈ seen, b ∈ V) :
    ∀ b ∈ (firsts id seen (next a)).reverse ++ seen, b ∈ V := by
  intro b hb
  rcases List.mem_append.mp hb with hb | hb
  · exact firsts_subset hclosed ha b (List.mem_reverse.mp hb)
  · exact hseen b hb

/-- Each round takes one node off the queue, and each node is queued once. -/
theorem exists_search (limit : ℤ) (hclosed : ∀ a ∈ V, ∀ b ∈ next a, b ∈ V) {fuel : ℕ}
    {st : State α} (hnodup : st.seen.Nodup) (hseen : ∀ a ∈ st.seen, a ∈ V)
    (hqueue : ∀ x ∈ st.queue, x.1 ∈ V)
    (hfuel : st.queue.length + V.card ≤ fuel + st.seen.length) :
    ∃ st', search next limit fuel st = some st' := by
  induction fuel generalizing st with
  | zero =>
    have hle := length_le_card hnodup hseen
    have hempty : st.queue = [] := List.length_eq_zero_iff.mp (by omega)
    exact ⟨st, by rw [search, hempty]; rfl⟩
  | succ fuel ih =>
    rw [search]
    split
    case h_1 => exact ⟨st, rfl⟩
    case h_2 a d rest hq =>
      rw [hq, List.length_cons] at hfuel
      have ha : a ∈ V := hqueue (a, d) (hq ▸ List.mem_cons_self)
      have hrest : ∀ x ∈ rest, x.1 ∈ V := fun x hx =>
        hqueue x (hq ▸ List.mem_cons_of_mem _ hx)
      split
      case isTrue => exact ih hnodup hseen hrest (by dsimp only; omega)
      case isFalse =>
        rw [explore_eq]
        refine ih (nodup_seen hnodup) (seen_subset hclosed ha hseen) ?_ ?_
        · intro x hx
          rcases List.mem_append.mp hx with hx | hx
          · exact hrest x hx
          · obtain ⟨b, hb, rfl⟩ := List.mem_map.mp hx
            exact firsts_subset hclosed ha b hb
        · simp only [List.length_append, List.length_map, List.length_reverse]
          omega

theorem exists_meets (dst : α) (hclosed : ∀ a ∈ V, ∀ b ∈ next a, b ∈ V) {fuel : ℕ}
    {seen queue : List α} (hnodup : seen.Nodup) (hseen : ∀ a ∈ seen, a ∈ V)
    (hqueue : ∀ a ∈ queue, a ∈ V) (hfuel : queue.length + V.card ≤ fuel + seen.length) :
    ∃ answer, meets next dst fuel seen queue = some answer := by
  induction fuel generalizing seen queue with
  | zero =>
    have hle := length_le_card hnodup hseen
    obtain rfl : queue = [] := List.length_eq_zero_iff.mp (by omega)
    exact ⟨false, by rw [meets]⟩
  | succ fuel ih =>
    cases queue with
    | nil => exact ⟨false, by rw [meets]⟩
    | cons a rest =>
      rw [List.length_cons] at hfuel
      have ha : a ∈ V := hqueue a List.mem_cons_self
      rw [meets, push_eq]
      by_cases hdst : dst ∈ next a
      · rw [if_pos hdst]
        exact ⟨true, rfl⟩
      · rw [if_neg hdst]
        refine ih (nodup_seen hnodup) (seen_subset hclosed ha hseen) ?_ ?_
        · intro b hb
          rcases List.mem_append.mp hb with hb | hb
          · exact hqueue b (List.mem_cons_of_mem a hb)
          · exact firsts_subset hclosed ha b hb
        · simp only [List.length_append, List.length_reverse]
          omega

/-- A round for each node is enough. -/
theorem exists_search_start (limit : ℤ) (hclosed : ∀ a ∈ V, ∀ b ∈ next a, b ∈ V) {fuel : ℕ}
    (hsrc : src ∈ V) (hfuel : V.card ≤ fuel) :
    ∃ st, search next limit fuel (start src) = some st := by
  refine exists_search limit hclosed (List.nodup_singleton src) ?_ ?_ ?_
  · exact fun a ha => List.mem_singleton.mp ha ▸ hsrc
  · exact fun x hx => List.mem_singleton.mp hx ▸ hsrc
  · simp only [start, List.length_singleton]
    omega

theorem exists_meets_start (dst : α) (hclosed : ∀ a ∈ V, ∀ b ∈ next a, b ∈ V) {fuel : ℕ}
    (hsrc : src ∈ V) (hfuel : V.card ≤ fuel) :
    ∃ answer, meets next dst fuel [src] [src] = some answer := by
  have hmem : ∀ a ∈ [src], a ∈ V := fun a ha => List.mem_singleton.mp ha ▸ hsrc
  refine exists_meets dst hclosed (List.nodup_singleton src) hmem hmem ?_
  rw [List.length_singleton]
  omega

end Termination

end Raglogs.BreadthFirst

import Raglogs.Collections

/-!
Caches that keep the encoded results of requests, over arbitrary requests, keys, values and
stored forms, newest first. A request that may read the cache is answered from the newest entry
of its key; any other is computed, and its value may be kept. If what is kept comes back, every
answer is a computed one, or that of the last request of the same key which was kept.
-/

namespace Raglogs.Memos

variable {κ R V P A E : Type*} [DecidableEq κ]

structure Cache (κ R V P A E : Type*) where
  key : R → κ
  /-- Whether a request may be answered from the cache. -/
  reads : R → Bool
  /-- Whether a stored form is one to answer from. -/
  usable : P → Bool
  replay : R → P → Except E A
  compute : R → Except E V
  answer : R → V → A
  keeps : R → V → Bool
  encode : V → P

namespace Cache

variable (c : Cache κ R V P A E)

/-- The entry that a request is answered from. -/
def hit (table : List (κ × P)) (r : R) : Option P :=
  if c.reads r then (table.lookup (c.key r)).filter c.usable else none

/-- The entries after a request that was computed. -/
def keep (table : List (κ × P)) (r : R) (v : V) : List (κ × P) :=
  if c.keeps r v then (c.key r, c.encode v) :: table else table

def serve (table : List (κ × P)) (r : R) : Except E A × List (κ × P) :=
  match c.hit table r with
  | some p => (c.replay r p, table)
  | none =>
      match c.compute r with
      | .error e => (.error e, table)
      | .ok v => (.ok (c.answer r v), c.keep table r v)

/-- The entries after some requests. -/
def after : List (κ × P) → List R → List (κ × P)
  | table, [] => table
  | table, r :: rest => after (c.serve table r).2 rest

theorem after_append (table : List (κ × P)) (l l' : List R) :
    c.after table (l ++ l') = c.after (c.after table l) l' := by
  induction l generalizing table with
  | nil => rfl
  | cons r rest ih => exact ih _

/-- A request whose value is kept, if it is computed. -/
def Kept (r : R) (v : V) : Prop := c.compute r = .ok v ∧ c.keeps r v = true

/-- What some requests keep comes back for another one of their key. -/
def Faithful (l : List R) (r : R) (readBack : V → A) : Prop :=
  ∀ q ∈ l, ∀ v, c.Kept q v → c.key q = c.key r →
    c.usable (c.encode v) = true ∧ c.replay r (c.encode v) = .ok (readBack v)

/-- No request of a key was computed and kept. -/
def Unkept (k : κ) (l : List R) : Prop :=
  ∀ q ∈ l, c.key q = k → c.reads q = true ∨ ∀ v, ¬c.Kept q v

/-- The value of a key is that of the last request which missed the cache and was kept. -/
def LastKept (k : κ) (v : V) (l : List R) : Prop :=
  ∃ older r newer, l = older ++ r :: newer ∧ c.key r = k ∧ c.Kept r v ∧
    c.hit (c.after [] older) r = none ∧ c.Unkept k newer

/-- A request skips the cache, or no request of its key was kept before. -/
def New (l : List R) (r : R) : Prop :=
  c.reads r = false ∨ ∀ q ∈ l, c.key q = c.key r → ∀ v, ¬c.Kept q v

/-- The last request of a key that was new and kept. -/
def LastNew (k : κ) (v : V) (l : List R) : Prop :=
  ∃ older r newer, l = older ++ r :: newer ∧ c.key r = k ∧ c.Kept r v ∧ c.New older r ∧
    c.Unkept k newer

/-- What an entry of a key stands for. -/
def Stands (l : List R) (k : κ) : Option P → Prop
  | some p => ∃ v, p = c.encode v ∧ c.LastKept k v l
  | none => ∀ q ∈ l, c.key q = k → ∀ v, ¬c.Kept q v

variable {c}

theorem lastKept_append {k : κ} {v : V} {l : List R} {q : R} (h : c.LastKept k v l)
    (hq : c.key q = k → c.reads q = true ∨ ∀ v, ¬c.Kept q v) : c.LastKept k v (l ++ [q]) := by
  obtain ⟨older, r, newer, rfl, hk, hkept, hmiss, hnewer⟩ := h
  refine ⟨older, r, newer ++ [q], by simp, hk, hkept, hmiss, ?_⟩
  intro q' hq'
  rcases List.mem_append.mp hq' with hmem | hmem
  · exact hnewer q' hmem
  · obtain rfl := List.mem_singleton.mp hmem
    exact hq

/-- An entry that was not touched. -/
theorem stands_append {k : κ} {l : List R} {q : R} {entry : Option P} (h : c.Stands l k entry)
    (hq : c.key q = k → (entry.isSome = true ∧ c.reads q = true) ∨ ∀ v, ¬c.Kept q v) :
    c.Stands (l ++ [q]) k entry := by
  cases entry with
  | some p =>
    obtain ⟨v, hp, hlast⟩ := h
    exact ⟨v, hp, lastKept_append hlast fun hk => (hq hk).imp And.right id⟩
  | none =>
    intro q' hq' hk
    rcases List.mem_append.mp hq' with hmem | hmem
    · exact h q' hmem hk
    · obtain rfl := List.mem_singleton.mp hmem
      exact (hq hk).resolve_left fun hsome => Bool.false_ne_true hsome.1

theorem hit_eq_some {table : List (κ × P)} {r : R} {p : P} :
    c.hit table r = some p ↔
      c.reads r = true ∧ table.lookup (c.key r) = some p ∧ c.usable p = true := by
  unfold hit
  split
  · rename_i hreads
    rw [Option.filter_eq_some_iff]
    exact ⟨fun h => ⟨hreads, h⟩, And.right⟩
  · rename_i hreads
    exact iff_of_false (Option.some_ne_none p).symm fun h => hreads h.1

/-- One step of the entries. -/
theorem stands_serve {l : List R} (h : ∀ k, c.Stands l k ((c.after [] l).lookup k)) (q : R)
    (k : κ) : c.Stands (l ++ [q]) k ((c.serve (c.after [] l) q).2.lookup k) := by
  cases hhit : c.hit (c.after [] l) q with
  | some p =>
    obtain ⟨hreads, hlookup, -⟩ := hit_eq_some.mp hhit
    rw [serve, hhit]
    refine stands_append (h k) fun hk => Or.inl ⟨?_, hreads⟩
    rw [← hk, hlookup]
    rfl
  | none =>
    cases hv : c.compute q with
    | error e =>
      rw [serve, hhit, hv]
      refine stands_append (h k) fun _ => Or.inr fun v hkept => ?_
      rw [Kept, hv] at hkept
      cases hkept.1
    | ok v =>
      rw [serve, hhit, hv]
      show c.Stands (l ++ [q]) k ((c.keep (c.after [] l) q v).lookup k)
      by_cases hkeeps : c.keeps q v = true
      · rw [keep, if_pos hkeeps]
        by_cases hk : k = c.key q
        · subst hk
          rw [List.lookup_cons_self]
          exact ⟨v, rfl, l, q, [], by simp, rfl, ⟨hv, hkeeps⟩, hhit, by simp [Unkept]⟩
        · rw [List.lookup_cons, beq_false_of_ne hk]
          exact stands_append (h k) fun hk' => absurd hk'.symm hk
      · rw [keep, if_neg hkeeps]
        refine stands_append (h k) fun _ => Or.inr fun v' hkept => hkeeps ?_
        obtain rfl : v = v' := Except.ok.inj (hv.symm.trans hkept.1)
        exact hkept.2

theorem stands_after (l : List R) (k : κ) :
    c.Stands l k ((c.after [] l).lookup k) := by
  induction l using List.reverseRecOn generalizing k with
  | nil => exact fun q hq => absurd hq (List.not_mem_nil)
  | append_singleton l q ih =>
    rw [after_append]
    exact stands_serve ih q k

/-- If what is kept for a key comes back, a request of the key misses the cache when it is new. -/
theorem new_of_miss {l : List R} {r q : R} {readBack : V → A} (hf : c.Faithful l r readBack)
    (hkey : c.key q = c.key r) (hmiss : c.hit (c.after [] l) q = none) : c.New l q := by
  have hstands := stands_after (c := c) l (c.key q)
  by_cases hreads : c.reads q = true
  · cases hentry : (c.after [] l).lookup (c.key q) with
    | some p =>
      rw [hentry] at hstands
      obtain ⟨v, rfl, older, q', newer, hl, hk, hkept, -⟩ := hstands
      have husable := (hf q' (by simp [hl]) v hkept (hk.trans hkey)).1
      rw [hit_eq_some.mpr ⟨hreads, hentry, husable⟩] at hmiss
      cases hmiss
    | none =>
      rw [hentry] at hstands
      exact Or.inr hstands
  · exact Or.inl (by simpa using hreads)

theorem lastNew_of_lastKept {l : List R} {r : R} {readBack : V → A} (hf : c.Faithful l r readBack)
    {v : V} (h : c.LastKept (c.key r) v l) : c.LastNew (c.key r) v l := by
  obtain ⟨older, q, newer, rfl, hk, hkept, hmiss, hnewer⟩ := h
  have holder : c.Faithful older r readBack := fun q' hq' => hf q' (List.mem_append_left _ hq')
  exact ⟨older, q, newer, rfl, hk, hkept, new_of_miss holder hk hmiss, hnewer⟩

/-- In every run from the empty cache: a request is answered from the last one of its key that
was new and kept, or it is computed. -/
theorem serve_after {l : List R} {r : R} {readBack : V → A} (hf : c.Faithful l r readBack) :
    (∃ v, c.reads r = true ∧ c.LastNew (c.key r) v l ∧
        (c.serve (c.after [] l) r).1 = .ok (readBack v)) ∨
      (c.New l r ∧ (c.serve (c.after [] l) r).1 = (c.compute r).map (c.answer r)) := by
  have hstands := stands_after (c := c) l (c.key r)
  have hcomputed : c.hit (c.after [] l) r = none →
      (c.serve (c.after [] l) r).1 = (c.compute r).map (c.answer r) := by
    intro hhit
    rw [serve, hhit]
    cases c.compute r <;> rfl
  by_cases hreads : c.reads r = true
  · cases hentry : (c.after [] l).lookup (c.key r) with
    | some p =>
      rw [hentry] at hstands
      obtain ⟨v, rfl, hlast⟩ := hstands
      obtain ⟨_, q, _, hl, hkey, hkept, -⟩ := id hlast
      obtain ⟨husable, hreplay⟩ := hf q (by simp [hl]) v hkept hkey
      refine Or.inl ⟨v, hreads, lastNew_of_lastKept hf hlast, ?_⟩
      rw [serve, hit_eq_some.mpr ⟨hreads, hentry, husable⟩]
      exact hreplay
    | none =>
      rw [hentry] at hstands
      refine Or.inr ⟨Or.inr hstands, hcomputed ?_⟩
      rw [hit, if_pos hreads, hentry]
      rfl
  · refine Or.inr ⟨Or.inl (by simpa using hreads), hcomputed ?_⟩
    rw [hit, if_neg hreads]

/-! What the requests of other keys do not matter for. -/

variable (c) in
/-- The entry of its key after a request. -/
def put (entry : Option P) (r : R) : Option P :=
  match if c.reads r then entry.filter c.usable else none with
  | some _ => entry
  | none =>
      match c.compute r with
      | .error _ => entry
      | .ok v => if c.keeps r v then some (c.encode v) else entry

theorem lookup_serve (table : List (κ × P)) (r : R) (k : κ) :
    (c.serve table r).2.lookup k =
      if c.key r = k then c.put (table.lookup k) r else table.lookup k := by
  by_cases hk : c.key r = k
  · subst hk
    rw [if_pos rfl, serve, put, hit]
    cases if c.reads r then (table.lookup (c.key r)).filter c.usable else none with
    | some p => rfl
    | none =>
      cases c.compute r with
      | error e => rfl
      | ok v =>
        show (c.keep table r v).lookup (c.key r) =
          if c.keeps r v then some (c.encode v) else table.lookup (c.key r)
        unfold keep
        split
        · rw [List.lookup_cons_self]
        · rfl
  · rw [if_neg hk, serve]
    cases c.hit table r with
    | some p => rfl
    | none =>
      cases c.compute r with
      | error e => rfl
      | ok v =>
        show (c.keep table r v).lookup k = _
        unfold keep
        split
        · rw [List.lookup_cons, beq_false_of_ne (Ne.symm hk)]
        · rfl

/-- An entry is what the requests of its key make of it. -/
theorem lookup_after (table : List (κ × P)) (l : List R) (k : κ) :
    (c.after table l).lookup k =
      (l.filter fun r => c.key r = k).foldl c.put (table.lookup k) := by
  induction l generalizing table with
  | nil => rfl
  | cons r rest ih =>
    rw [after, ih, lookup_serve]
    by_cases hk : c.key r = k
    · rw [if_pos hk, List.filter_cons_of_pos (by simpa using hk)]
      rfl
    · rw [if_neg hk, List.filter_cons_of_neg (by simpa using hk)]

/-- Two requests that nobody can tell apart. -/
structure Alike (c : Cache κ R V P A E) (r r' : R) : Prop where
  key : c.key r = c.key r'
  reads : c.reads r = c.reads r'
  compute : c.compute r = c.compute r'
  keeps : c.keeps r = c.keeps r'
  replay : c.replay r = c.replay r'
  answer : c.answer r = c.answer r'

omit [DecidableEq κ] in
theorem put_congr {r r' : R} (h : c.Alike r r') (entry : Option P) :
    c.put entry r = c.put entry r' := by
  unfold put
  rw [h.reads, h.compute, h.keeps]

/-- Runs that are alike in the requests of one key answer a request of that key alike. -/
theorem serve_after_congr {l l' : List R} {r r' : R} (h : c.Alike r r')
    (hl : List.Forall₂ c.Alike (l.filter fun q => c.key q = c.key r)
      (l'.filter fun q => c.key q = c.key r)) :
    (c.serve (c.after [] l) r).1 = (c.serve (c.after [] l') r').1 := by
  have hfold : ∀ {m m' : List R}, List.Forall₂ c.Alike m m' → ∀ entry,
      m.foldl c.put entry = m'.foldl c.put entry := by
    intro m m' hm
    induction hm with
    | nil => exact fun _ => rfl
    | cons hq _ ih =>
      intro entry
      rw [List.foldl_cons, List.foldl_cons, put_congr hq, ih]
  have hentry : (c.after [] l).lookup (c.key r) = (c.after [] l').lookup (c.key r') := by
    rw [← h.key, lookup_after, lookup_after, hfold hl]
  have hhit : c.hit (c.after [] l) r = c.hit (c.after [] l') r' := by
    rw [hit, hit, h.reads, hentry]
  rw [serve, serve, hhit, h.compute, h.replay, h.answer]
  cases c.hit (c.after [] l') r' with
  | some p => rfl
  | none => cases c.compute r' <;> rfl

end Cache

end Raglogs.Memos

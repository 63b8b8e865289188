import Mathlib.Algebra.Order.BigOperators.Group.List
import Mathlib.Algebra.Order.Ring.Nat
import Mathlib.Data.Int.Order.Basic
import Mathlib.Data.List.Basic
import Mathlib.Logic.Function.Basic
import Mathlib.Tactic.Common

/-!
Evidence packets cut down to a token budget. A packet is copied, its lists are capped, and
then the last element of the first list that still has one goes, until the packet fits. The
dicts lie in a heap, so that what the caller holds can be told from the copy.
-/

namespace Raglogs.PacketTrimming

/-- A value of a packet: a list of items, or anything else. -/
inductive Field (α β : Type)
  | items (l : List α)
  | other (b : β)

/-- A dict: its keys in the order of their insertion, and the value of each. -/
@[ext]
structure Packet (α β : Type) where
  order : List String
  get : String → Option (Field α β)
  nodup : order.Nodup
  mem_order : ∀ key, key ∈ order ↔ (get key).isSome

variable {α β : Type}

/-- Assign a key that the dict has. -/
def Packet.set (p : Packet α β) (key : String) (v : Field α β) : Packet α β where
  order := p.order
  get k := if k = key then (p.get key).map fun _ => v else p.get k
  nodup := p.nodup
  mem_order k := by
    rw [p.mem_order]
    split
    · rename_i hk
      rw [hk, Option.isSome_map]
    · rfl

/-- The list under a key, or no list. -/
def Packet.listAt (p : Packet α β) (key : String) : List α :=
  match p.get key with
  | some (.items l) => l
  | _ => []

/-- Dicts by their address. -/
structure Heap (α β : Type) where
  next : ℕ
  dict : ℕ → Packet α β

def Heap.copyDict (h : Heap α β) (r : ℕ) : Heap α β × ℕ :=
  (⟨h.next + 1, Function.update h.dict h.next (h.dict r)⟩, h.next)

def Heap.setItem (h : Heap α β) (r : ℕ) (key : String) (v : Field α β) : Heap α β :=
  ⟨h.next, Function.update h.dict r ((h.dict r).set key v)⟩

/-- The keys whose lists are cut, the first to go first. -/
def listKeys : List String := ["evidence", "clusters", "secondary_clusters", "trigger_candidates"]

structure Settings where
  maxEvidenceItems : ℤ
  llmMaxInputTokens : ℤ
  llmMaxTokens : ℤ

structure LLMBudgetExceeded where
  message : String

/-- A token for every four characters of the text, at least one. -/
def estimateTokens (dumps : Packet α β → String) (payload : Packet α β) : ℕ :=
  max 1 (((dumps payload).length + 3) / 4)

def inputTokenBudget (s : Settings) : ℤ :=
  if 0 < s.llmMaxInputTokens then s.llmMaxInputTokens else max 512 (s.llmMaxTokens * 8)

def capOf (maxItems : ℤ) : ℕ := (max 0 maxItems).toNat

/-- Cap the list under one key. -/
def capItem (cap : ℕ) (t : ℕ) (h : Heap α β) (key : String) : Heap α β :=
  match (h.dict t).get key with
  | some (.items l) => if cap < l.length then h.setItem t key (.items (l.take cap)) else h
  | _ => h

def trimEvidencePacket (h : Heap α β) (packet : ℕ) (maxItems : ℤ) : Heap α β × ℕ :=
  let (h, trimmed) := h.copyDict packet
  (listKeys.foldl (capItem (capOf maxItems) trimmed) h, trimmed)

/-- The first key with a list that is not empty. -/
def firstNonempty (p : Packet α β) : Option String :=
  listKeys.find? fun key => !(p.listAt key).isEmpty

/-- The number of elements that can still go. -/
def remaining (p : Packet α β) : ℕ := (listKeys.map fun key => (p.listAt key).length).sum

/-! Packets under assignment. -/

@[simp]
theorem dict_setItem_self (h : Heap α β) (r : ℕ) (key : String) (v : Field α β) :
    (h.setItem r key v).dict r = (h.dict r).set key v := Function.update_self ..

theorem dict_setItem_of_ne (h : Heap α β) {r r' : ℕ} (key : String) (v : Field α β) (hr : r' ≠ r) :
    (h.setItem r key v).dict r' = h.dict r' := Function.update_of_ne hr ..

@[simp]
theorem order_set (p : Packet α β) (key : String) (v : Field α β) : (p.set key v).order = p.order :=
  rfl

theorem get_set (p : Packet α β) (key k : String) (v : Field α β) :
    (p.set key v).get k = if k = key then (p.get key).map fun _ => v else p.get k := rfl

theorem get_set_of_ne (p : Packet α β) {key k : String} (v : Field α β) (h : k ≠ key) :
    (p.set key v).get k = p.get k := if_neg h

theorem get_set_self {p : Packet α β} {key : String} {l : List α} (v : Field α β)
    (h : p.get key = some (.items l)) : (p.set key v).get key = some v := by
  rw [get_set, if_pos rfl, h]
  rfl

theorem get_of_listAt_ne {p : Packet α β} {key : String} (h : p.listAt key ≠ []) :
    p.get key = some (.items (p.listAt key)) := by
  rw [Packet.listAt] at h ⊢
  cases hget : p.get key with
  | none => rw [hget] at h; exact absurd rfl h
  | some v =>
    cases v with
    | items l => rfl
    | other b => rw [hget] at h; exact absurd rfl h

theorem listAt_set_of_ne (p : Packet α β) {key k : String} (v : Field α β) (h : k ≠ key) :
    (p.set key v).listAt k = p.listAt k := by
  rw [Packet.listAt, Packet.listAt, get_set_of_ne p v h]

theorem listAt_set_self {p : Packet α β} {key : String} {l l' : List α}
    (h : p.get key = some (.items l)) : (p.set key (.items l')).listAt key = l' := by
  rw [Packet.listAt, get_set_self _ h]

/-- Of two assignments to a key the last one counts, and a value may be assigned again. -/
theorem set_set_self {p : Packet α β} {key : String} {l l' : List α}
    (h : p.get key = some (.items l)) : (p.set key (.items l')).set key (.items l) = p := by
  refine Packet.ext rfl (funext fun k => ?_)
  rw [get_set, get_set_self _ h]
  split
  · rename_i hk
    rw [hk, h]
    rfl
  · rename_i hk
    exact get_set_of_ne p _ hk

theorem firstNonempty_eq_some {p : Packet α β} {key : String} (h : firstNonempty p = some key) :
    key ∈ listKeys ∧ p.listAt key ≠ [] ∧
      ∀ k ∈ listKeys.takeWhile (· ≠ key), p.listAt k = [] := by
  obtain ⟨hkey, before, after, hsplit, hbefore⟩ := List.find?_eq_some_iff_append.mp h
  refine ⟨List.mem_of_find?_eq_some h, by simpa using hkey, fun k hk => ?_⟩
  have hmem : ∀ before : List String, k ∈ (before ++ key :: after).takeWhile (· ≠ key) →
      k ∈ before := by
    intro before
    induction before with
    | nil => simp
    | cons b before ih =>
      intro hk
      rw [List.cons_append, List.takeWhile_cons] at hk
      split at hk
      · rcases List.mem_cons.mp hk with rfl | hk
        · exact List.mem_cons_self
        · exact List.mem_cons_of_mem _ (ih hk)
      · cases hk
  rw [hsplit] at hk
  simpa using hbefore k (hmem before hk)

theorem firstNonempty_eq_none {p : Packet α β} (h : firstNonempty p = none) :
    ∀ key ∈ listKeys, p.listAt key = [] := by
  intro key hkey
  simpa using List.find?_eq_none.mp h key hkey

/-- One element goes. -/
def dropLast (p : Packet α β) (key : String) : Packet α β :=
  p.set key (.items (p.listAt key).dropLast)

theorem listAt_dropLast {p : Packet α β} {key : String} (h : p.listAt key ≠ []) :
    (dropLast p key).listAt key = (p.listAt key).dropLast :=
  listAt_set_self (get_of_listAt_ne h)

theorem remaining_dropLast {p : Packet α β} {key : String} (hkey : key ∈ listKeys)
    (h : p.listAt key ≠ []) : remaining (dropLast p key) < remaining p := by
  have hself := congrArg List.length (listAt_dropLast h)
  rw [List.length_dropLast] at hself
  have hpos := List.length_pos_iff.mpr h
  refine List.sum_lt_sum _ _ (fun k _ => ?_) ⟨key, hkey, by omega⟩
  by_cases hk : k = key
  · rw [hk]
    omega
  · exact le_of_eq (congrArg List.length (listAt_set_of_ne p _ hk))

/-! The loop. -/

section Loop

variable (dumps : Packet α β → String) (budget : ℤ)

/-- A packet that is too large. -/
def Exceeds (p : Packet α β) : Prop := budget < (estimateTokens dumps p : ℤ)

instance (p : Packet α β) : Decidable (Exceeds dumps budget p) :=
  inferInstanceAs (Decidable (_ < _))

/-- Remove elements of one packet until it fits. -/
def shrinkLoop (h : Heap α β) (trimmed : ℕ) : Heap α β × Except LLMBudgetExceeded ℕ :=
  if Exceeds dumps budget (h.dict trimmed) then
    match _hkey : firstNonempty (h.dict trimmed) with
    | some key =>
        shrinkLoop (h.setItem trimmed key (.items ((h.dict trimmed).listAt key).dropLast)) trimmed
    | none =>
        (h, .error ⟨"evidence payload ~" ++ toString (estimateTokens dumps (h.dict trimmed)) ++
          " tokens exceeds budget " ++ toString budget⟩)
  else (h, .ok trimmed)
termination_by remaining (h.dict trimmed)
decreasing_by
  have hfirst := firstNonempty_eq_some _hkey
  rw [dict_setItem_self]
  exact remaining_dropLast hfirst.1 hfirst.2.1

/-- Trim a packet, then shrink it until it is under the budget. -/
def prepareLlmPacket (s : Settings) (h : Heap α β) (packet : ℕ) :
    Heap α β × Except LLMBudgetExceeded ℕ :=
  let (h, trimmed) := trimEvidencePacket h packet s.maxEvidenceItems
  let budget := inputTokenBudget s
  if Exceeds dumps budget (h.dict trimmed) then shrinkLoop dumps budget h trimmed
  else (h, .ok trimmed)

/-- What holds after the loop: only the packet was touched, and it fits, or has nothing left. -/
theorem shrinkLoop_spec (Inv : Packet α β → Prop)
    (hstep : ∀ p key, Inv p → Exceeds dumps budget p → firstNonempty p = some key →
      Inv (dropLast p key)) (h : Heap α β) (trimmed : ℕ) (hinv : Inv (h.dict trimmed)) :
    (∀ r, r ≠ trimmed → (shrinkLoop dumps budget h trimmed).1.dict r = h.dict r) ∧
      Inv ((shrinkLoop dumps budget h trimmed).1.dict trimmed) ∧
      (((shrinkLoop dumps budget h trimmed).2 = .ok trimmed ∧
          ¬ Exceeds dumps budget ((shrinkLoop dumps budget h trimmed).1.dict trimmed)) ∨
        ((∃ e, (shrinkLoop dumps budget h trimmed).2 = .error e) ∧
          Exceeds dumps budget ((shrinkLoop dumps budget h trimmed).1.dict trimmed) ∧
          firstNonempty ((shrinkLoop dumps budget h trimmed).1.dict trimmed) = none)) := by
  induction h using shrinkLoop.induct dumps budget trimmed with
  | case1 h hover key hkey ih =>
    have hnext : (h.setItem trimmed key (.items ((h.dict trimmed).listAt key).dropLast)).dict
        trimmed = dropLast (h.dict trimmed) key := dict_setItem_self ..
    have hstep' := ih (by rw [hnext]; exact hstep _ key hinv hover hkey)
    rw [shrinkLoop, if_pos hover]
    split
    · rename_i key' hkey'
      obtain rfl := Option.some.inj (hkey.symm.trans hkey')
      refine ⟨fun r hr => ?_, hstep'.2⟩
      rw [hstep'.1 r hr, dict_setItem_of_ne h key _ hr]
    · rename_i hnone
      cases hkey.symm.trans hnone
  | case2 h hover hnone =>
    rw [shrinkLoop, if_pos hover]
    split
    · rename_i key hkey
      cases hkey.symm.trans hnone
    · exact ⟨fun _ _ => rfl, hinv, .inr ⟨⟨_, rfl⟩, hover, hnone⟩⟩
  | case3 h hfits =>
    rw [shrinkLoop, if_neg hfits]
    exact ⟨fun _ _ => rfl, hinv, .inl ⟨rfl, hfits⟩⟩

theorem prepareLlmPacket_eq (s : Settings) (h : Heap α β) (packet : ℕ) :
    prepareLlmPacket dumps s h packet =
      shrinkLoop dumps (inputTokenBudget s) (trimEvidencePacket h packet s.maxEvidenceItems).1
        (trimEvidencePacket h packet s.maxEvidenceItems).2 := by
  rw [prepareLlmPacket]
  by_cases hover : Exceeds dumps (inputTokenBudget s)
      ((trimEvidencePacket h packet s.maxEvidenceItems).1.dict
        (trimEvidencePacket h packet s.maxEvidenceItems).2)
  · exact if_pos hover
  · rw [shrinkLoop, if_neg hover]
    exact if_neg hover

end Loop

/-! The copy with capped lists. -/

/-- A value with at most so many items. -/
def capField (cap : ℕ) : Field α β → Field α β
  | .items l => .items (l.take cap)
  | .other b => .other b

theorem capItem_spec (cap t : ℕ) (h : Heap α β) (key : String) :
    (∀ r, r ≠ t → (capItem cap t h key).dict r = h.dict r) ∧
      ((capItem cap t h key).dict t).order = (h.dict t).order ∧
      ∀ k, ((capItem cap t h key).dict t).get k =
        if k = key then ((h.dict t).get k).map (capField cap) else (h.dict t).get k := by
  rw [capItem]
  split
  · rename_i l hl
    split
    · refine ⟨fun r hr => dict_setItem_of_ne h key _ hr, by rw [dict_setItem_self, order_set],
        fun k => ?_⟩
      rw [dict_setItem_self, get_set]
      split
      · rename_i hk
        rw [hk, hl]
        rfl
      · rfl
    · rename_i hshort
      refine ⟨fun _ _ => rfl, rfl, fun k => ?_⟩
      split
      · rename_i hk
        rw [hk, hl, Option.map_some, capField, List.take_of_length_le (not_lt.mp hshort)]
      · rfl
  · rename_i hother
    refine ⟨fun _ _ => rfl, rfl, fun k => ?_⟩
    split
    · rename_i hk
      subst hk
      cases hget : (h.dict t).get k with
      | none => rfl
      | some v =>
        cases v with
        | items l => exact absurd hget (hother l)
        | other b => rfl
    · rfl

theorem foldl_capItem_spec (cap t : ℕ) (keys : List String) (h : Heap α β) :
    (∀ r, r ≠ t → (keys.foldl (capItem cap t) h).dict r = h.dict r) ∧
      ((keys.foldl (capItem cap t) h).dict t).order = (h.dict t).order ∧
      ∀ k, ((keys.foldl (capItem cap t) h).dict t).get k =
        if k ∈ keys then ((h.dict t).get k).map (capField cap) else (h.dict t).get k := by
  have htwice : ∀ v : Field α β, capField cap (capField cap v) = capField cap v := by
    intro v
    cases v with
    | items l => rw [capField, capField, List.take_take, Nat.min_self]
    | other b => rfl
  induction keys generalizing h with
  | nil => exact ⟨fun _ _ => rfl, rfl, fun k => by simp⟩
  | cons key keys ih =>
    obtain ⟨hrest, horder, hget⟩ := ih (capItem cap t h key)
    obtain ⟨hrest', horder', hget'⟩ := capItem_spec cap t h key
    refine ⟨fun r hr => (hrest r hr).trans (hrest' r hr), horder.trans horder', fun k => ?_⟩
    rw [List.foldl_cons, hget, hget']
    by_cases hk : k = key
    · by_cases hkeys : k ∈ keys
      · simp [hk, hk ▸ hkeys, Function.comp_def, htwice]
      · simp [hk, hk ▸ hkeys]
    · simp [hk]

/-- What is trimmed is a new dict with the fields of the old one, capped under the list keys. -/
theorem trimEvidencePacket_spec (h : Heap α β) (packet : ℕ) (maxItems : ℤ) :
    (trimEvidencePacket h packet maxItems).2 = h.next ∧
      (∀ r, r ≠ h.next → (trimEvidencePacket h packet maxItems).1.dict r = h.dict r) ∧
      ((trimEvidencePacket h packet maxItems).1.dict h.next).order = (h.dict packet).order ∧
      ∀ k, ((trimEvidencePacket h packet maxItems).1.dict h.next).get k =
        if k ∈ listKeys then ((h.dict packet).get k).map (capField (capOf maxItems))
        else (h.dict packet).get k := by
  obtain ⟨hrest, horder, hget⟩ := foldl_capItem_spec (capOf maxItems) h.next listKeys
    (h.copyDict packet).1
  have hcopy : (h.copyDict packet).1.dict h.next = h.dict packet := Function.update_self ..
  rw [hcopy] at horder hget
  refine ⟨rfl, fun r hr => ?_, horder, hget⟩
  exact (hrest r hr).trans (Function.update_of_ne hr ..)

/-! What a prepared packet is. -/

/-- The keys that are cut before a key. -/
def earlier (key : String) : List String := listKeys.takeWhile (· ≠ key)

theorem earlier_or_earlier {key k : String} (hkey : key ∈ listKeys) (hk : k ∈ listKeys)
    (hne : k ≠ key) : k ∈ earlier key ∨ key ∈ earlier k := by
  have hall : ∀ key ∈ listKeys, ∀ k ∈ listKeys, k ≠ key → k ∈ earlier key ∨ key ∈ earlier k := by
    decide
  exact hall key hkey k hk hne

theorem ne_of_mem_earlier {key k : String} (h : k ∈ earlier key) : k ≠ key := by
  simpa using List.all_eq_true.mp List.all_takeWhile k h

section Prepared

variable (dumps : Packet α β → String) (budget : ℤ) (cap : ℕ) (original : Packet α β)

/-- A list that lost more elements than the cap takes. -/
def Shortened (p : Packet α β) (key : String) : Prop :=
  (p.listAt key).length < min cap (original.listAt key).length

/-- A packet on its way to fit: the original with its lists cut, the first ones first, and
with the last element that was removed it would be too large. -/
structure Cut (p : Packet α β) : Prop where
  order : p.order = original.order
  others : ∀ key, (key ∉ listKeys ∨ ∀ l, original.get key ≠ some (.items l)) →
    p.get key = original.get key
  isList : ∀ key l, original.get key = some (.items l) → ∃ l', p.get key = some (.items l')
  isPrefix : ∀ key ∈ listKeys, p.listAt key <+: original.listAt key
  capped : ∀ key ∈ listKeys, (p.listAt key).length ≤ cap
  priority : ∀ key ∈ listKeys, Shortened cap original p key →
    ∀ k ∈ earlier key, p.listAt k = []
  minimal : (∃ key ∈ listKeys, Shortened cap original p key) →
    ∃ key ∈ listKeys, ∃ a, Shortened cap original p key ∧
      (∀ k ∈ listKeys, Shortened cap original p k → k = key ∨ k ∈ earlier key) ∧
      p.listAt key ++ [a] <+: original.listAt key ∧
      Exceeds dumps budget (p.set key (.items (p.listAt key ++ [a])))

variable {dumps budget cap original}

/-- The capped copy has lost nothing yet. -/
theorem cut_of_capped {p : Packet α β} (horder : p.order = original.order)
    (hget : ∀ k, p.get k =
      if k ∈ listKeys then (original.get k).map (capField cap) else original.get k) :
    Cut dumps budget cap original p := by
  have hlist : ∀ key ∈ listKeys, p.listAt key = (original.listAt key).take cap := by
    intro key hkey
    rw [Packet.listAt, Packet.listAt, hget, if_pos hkey]
    cases original.get key with
    | none => simp
    | some v => cases v <;> simp [capField]
  have hfull : ∀ key ∈ listKeys, ¬ Shortened cap original p key := by
    intro key hkey
    rw [Shortened, hlist key hkey, List.length_take]
    exact lt_irrefl _
  refine ⟨horder, ?_, ?_, ?_, ?_, fun key hkey h => absurd h (hfull key hkey),
    fun ⟨key, hkey, h⟩ => absurd h (hfull key hkey)⟩
  · intro key hkey
    rw [hget]
    split
    · rename_i hin
      cases hvalue : original.get key with
      | none => rfl
      | some v =>
        cases v with
        | items l => exact absurd hvalue ((hkey.resolve_left (not_not_intro hin)) l)
        | other b => rfl
    · rfl
  · intro key l hl
    rw [hget, hl]
    split
    · exact ⟨l.take cap, rfl⟩
    · exact ⟨l, rfl⟩
  · intro key hkey
    rw [hlist key hkey]
    exact List.take_prefix ..
  · intro key hkey
    rw [hlist key hkey]
    exact List.length_take_le ..

/-- One more element goes from the first list that has one. -/
theorem Cut.dropLast {p : Packet α β} {key : String} (h : Cut dumps budget cap original p)
    (hover : Exceeds dumps budget p) (hfirst : firstNonempty p = some key) :
    Cut dumps budget cap original (dropLast p key) := by
  obtain ⟨hkey, hsome, hearlier⟩ := firstNonempty_eq_some hfirst
  have hget := get_of_listAt_ne hsome
  have hself : (PacketTrimming.dropLast p key).listAt key = (p.listAt key).dropLast :=
    listAt_dropLast hsome
  have hother : ∀ k, k ≠ key → (PacketTrimming.dropLast p key).listAt k = p.listAt k :=
    fun k hk => listAt_set_of_ne p _ hk
  have hpos := List.length_pos_iff.mpr hsome
  have hlength : (p.listAt key).length ≤ min cap (original.listAt key).length :=
    le_min (h.capped key hkey) (h.isPrefix key hkey).length_le
  have hlist : ∃ l, original.get key = some (.items l) := by
    by_contra hnone
    have hsame := h.others key (.inr fun l hl => hnone ⟨l, hl⟩)
    exact hnone ⟨_, hsame.symm.trans hget⟩
  have hshort : Shortened cap original (PacketTrimming.dropLast p key) key := by
    rw [Shortened, hself, List.length_dropLast]
    omega
  have hkept : ∀ k, k ≠ key → Shortened cap original (PacketTrimming.dropLast p key) k →
      Shortened cap original p k := by
    intro k hk hs
    rwa [Shortened, hother k hk] at hs
  refine ⟨h.order, ?_, ?_, ?_, ?_, ?_, ?_⟩
  · intro k hk
    have hne : k ≠ key := by
      rintro rfl
      obtain ⟨l, hl⟩ := hlist
      exact hk.elim (fun hno => hno hkey) fun hno => hno l hl
    exact (get_set_of_ne p _ hne).trans (h.others k hk)
  · intro k l hl
    by_cases hk : k = key
    · rw [hk]
      exact ⟨_, get_set_self _ hget⟩
    · obtain ⟨l', hl'⟩ := h.isList k l hl
      exact ⟨l', (get_set_of_ne p _ hk).trans hl'⟩
  · intro k hk
    by_cases hne : k = key
    · rw [hne, hself]
      exact (List.dropLast_prefix _).trans (h.isPrefix key hkey)
    · rw [hother k hne]
      exact h.isPrefix k hk
  · intro k hk
    by_cases hne : k = key
    · rw [hne, hself, List.length_dropLast]
      have hcap := h.capped key hkey
      omega
    · rw [hother k hne]
      exact h.capped k hk
  · intro k hk hs j hj
    by_cases hne : k = key
    · subst hne
      rw [hother j (ne_of_mem_earlier hj)]
      exact hearlier j hj
    · have hempty := h.priority k hk (hkept k hne hs) j hj
      have hjkey : j ≠ key := fun heq => hsome (heq ▸ hempty)
      rw [hother j hjkey]
      exact hempty
  · intro _
    refine ⟨key, hkey, (p.listAt key).getLast hsome, hshort, ?_, ?_, ?_⟩
    · intro k hk hs
      by_cases hne : k = key
      · exact .inl hne
      · refine .inr ((earlier_or_earlier hkey hk hne).resolve_right fun hlater => hsome ?_)
        exact h.priority k hk (hkept k hne hs) key hlater
    · rw [hself, List.dropLast_append_getLast]
      exact h.isPrefix key hkey
    · rw [hself, List.dropLast_append_getLast, PacketTrimming.dropLast, set_set_self hget]
      exact hover

end Prepared

/-! The packet without any list element. -/

def emptyField : Field α β → Field α β
  | .items _ => .items []
  | .other b => .other b

/-- The packet with all its lists emptied. -/
def emptied (p : Packet α β) : Packet α β where
  order := p.order
  get k := if k ∈ listKeys then (p.get k).map emptyField else p.get k
  nodup := p.nodup
  mem_order k := by
    rw [p.mem_order]
    split
    · rw [Option.isSome_map]
    · rfl

theorem emptied_dropLast {p : Packet α β} {key : String} (hfirst : firstNonempty p = some key) :
    emptied (dropLast p key) = emptied p := by
  obtain ⟨hkey, hsome, -⟩ := firstNonempty_eq_some hfirst
  refine Packet.ext rfl (funext fun k => ?_)
  by_cases hk : k = key
  · subst hk
    simp only [emptied, dropLast, if_pos hkey, get_set_self _ (get_of_listAt_ne hsome)]
    rw [get_of_listAt_ne hsome]
    rfl
  · simp only [emptied, dropLast, get_set_of_ne p _ hk]

theorem emptied_eq_self {p : Packet α β} (h : firstNonempty p = none) : emptied p = p := by
  refine Packet.ext rfl (funext fun k => ?_)
  by_cases hk : k ∈ listKeys
  · have hlist := firstNonempty_eq_none h k hk
    rw [Packet.listAt] at hlist
    cases hget : p.get k with
    | none => simp [emptied, hget]
    | some v =>
      cases v with
      | items l =>
        rw [hget] at hlist
        obtain rfl : l = [] := hlist
        simp [emptied, hget, emptyField]
      | other b => simp [emptied, hget, emptyField]
  · exact if_neg hk

theorem emptied_of_capped {original p : Packet α β} {cap : ℕ} (horder : p.order = original.order)
    (hget : ∀ k, p.get k =
      if k ∈ listKeys then (original.get k).map (capField cap) else original.get k) :
    emptied p = emptied original := by
  refine Packet.ext horder (funext fun k => ?_)
  by_cases hk : k ∈ listKeys
  · simp only [emptied, if_pos hk, hget]
    cases original.get k with
    | none => rfl
    | some v => cases v <;> rfl
  · simp only [emptied, if_neg hk, hget]

/-- An estimate that does not grow when the last element of a list goes. -/
def Shrinking (dumps : Packet α β → String) : Prop :=
  ∀ p key l a, key ∈ listKeys → p.get key = some (.items (l ++ [a])) →
    estimateTokens dumps (p.set key (.items l)) ≤ estimateTokens dumps p

/-- Nothing is smaller than the packet without list elements. -/
theorem estimate_emptied_le {dumps : Packet α β → String} (hshrink : Shrinking dumps)
    (p : Packet α β) : estimateTokens dumps (emptied p) ≤ estimateTokens dumps p := by
  induction hn : remaining p using Nat.strong_induction_on generalizing p with
  | _ n ih =>
    cases hfirst : firstNonempty p with
    | none => rw [emptied_eq_self hfirst]
    | some key =>
      obtain ⟨hkey, hsome, -⟩ := firstNonempty_eq_some hfirst
      have hless := ih _ (hn ▸ remaining_dropLast hkey hsome) (dropLast p key) rfl
      rw [emptied_dropLast hfirst] at hless
      refine hless.trans (hshrink p key _ ((p.listAt key).getLast hsome) hkey ?_)
      rw [List.dropLast_append_getLast]
      exact get_of_listAt_ne hsome

/-- A packet is prepared on a copy: the copy fits, nothing is removed without need, and there
is an error exactly when the packet does not fit without any list element. -/
theorem prepareLlmPacket_spec (dumps : Packet α β → String) (s : Settings) (h : Heap α β)
    (packet : ℕ) (hpacket : packet < h.next) (hshrink : Shrinking dumps) :
    (∀ r < h.next, (prepareLlmPacket dumps s h packet).1.dict r = h.dict r) ∧
      ((∃ e, (prepareLlmPacket dumps s h packet).2 = .error e) ↔
        Exceeds dumps (inputTokenBudget s) (emptied (h.dict packet))) ∧
      ∀ t, (prepareLlmPacket dumps s h packet).2 = .ok t →
        t ≠ packet ∧
          ¬ Exceeds dumps (inputTokenBudget s) ((prepareLlmPacket dumps s h packet).1.dict t) ∧
          Cut dumps (inputTokenBudget s) (capOf s.maxEvidenceItems) (h.dict packet)
            ((prepareLlmPacket dumps s h packet).1.dict t) := by
  obtain ⟨hcopy, hold, horder, hget⟩ := trimEvidencePacket_spec h packet s.maxEvidenceItems
  have hcut : Cut dumps (inputTokenBudget s) (capOf s.maxEvidenceItems) (h.dict packet)
      ((trimEvidencePacket h packet s.maxEvidenceItems).1.dict h.next) :=
    cut_of_capped horder hget
  obtain ⟨hrest, ⟨hcut', hemptied⟩, hend⟩ := shrinkLoop_spec dumps (inputTokenBudget s)
    (fun p => Cut dumps (inputTokenBudget s) (capOf s.maxEvidenceItems) (h.dict packet) p ∧
      emptied p = emptied (h.dict packet))
    (fun p key hinv hover hfirst => ⟨hinv.1.dropLast hover hfirst,
      (emptied_dropLast hfirst).trans hinv.2⟩)
    (trimEvidencePacket h packet s.maxEvidenceItems).1 h.next
    ⟨hcut, emptied_of_capped horder hget⟩
  rw [prepareLlmPacket_eq, hcopy]
  generalize shrinkLoop dumps (inputTokenBudget s)
    (trimEvidencePacket h packet s.maxEvidenceItems).1 h.next = out at hrest hcut' hemptied hend ⊢
  refine ⟨fun r hr => (hrest r hr.ne).trans (hold r hr.ne), ?_, ?_⟩
  · rcases hend with ⟨hok, hfits⟩ | ⟨herror, hover, hnone⟩
    · refine iff_of_false ?_ fun hover => hfits ?_
      · rintro ⟨e, he⟩
        cases hok.symm.trans he
      · refine lt_of_lt_of_le hover (Int.ofNat_le.mpr ?_)
        rw [← hemptied]
        exact estimate_emptied_le hshrink _
    · refine iff_of_true herror ?_
      rwa [← hemptied, emptied_eq_self hnone]
  · intro t ht
    rcases hend with ⟨hok, hfits⟩ | ⟨⟨e, herror⟩, -, -⟩
    · obtain rfl := Except.ok.inj (hok.symm.trans ht)
      exact ⟨hpacket.ne', hfits, hcut'⟩
    · cases herror.symm.trans ht

/-- A packet with five pieces of evidence. -/
def fiveItems : Packet ℕ Unit where
  order := ["summary", "evidence"]
  get k := if k = "summary" then some (.other ()) else
    if k = "evidence" then some (.items [1, 2, 3, 4, 5]) else none
  nodup := by decide
  mem_order k := by
    by_cases h : k = "summary" <;> by_cases h' : k = "evidence" <;> simp [h, h']

/-- A text of four characters for each element. -/
def fourEach (p : Packet ℕ Unit) : String := String.ofList (List.replicate (4 * remaining p) 'x')

theorem fourEach_shrinking : Shrinking fourEach := by
  intro p key l a hkey hget
  have hlist : p.listAt key = l ++ [a] := by rw [Packet.listAt, hget]
  have hset : p.set key (.items l) = dropLast p key := by
    rw [dropLast, hlist, List.dropLast_concat]
  have hless := remaining_dropLast hkey (hlist ▸ List.concat_ne_nil a l)
  simp only [estimateTokens, fourEach, String.length_ofList, List.length_replicate, hset]
  omega

/-- Five elements fit into two tokens when three of them go. -/
theorem prepareLlmPacket_fiveItems :
    ¬ ∃ e, (prepareLlmPacket fourEach ⟨8, 2, 600⟩ ⟨1, fun _ => fiveItems⟩ 0).2 = .error e := by
  rw [(prepareLlmPacket_spec fourEach ⟨8, 2, 600⟩ ⟨1, fun _ => fiveItems⟩ 0 Nat.zero_lt_one
    fourEach_shrinking).2.1]
  decide

end Raglogs.PacketTrimming

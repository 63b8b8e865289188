import Raglogs.Hypotheses
import Mathlib.Data.List.Lex
import Mathlib.Data.Prod.Lex
import Mathlib.Data.Finset.Union

/-!
Structural partitioning. Hypotheses that no usable observation contradicts are
grouped by their categorical predictions over the usable observables. Nothing
here reads a ranking score. A class and a partition cannot be built empty: the
constructors of the source validate both, and the types carry the proof.
-/

namespace Raglogs.Partitioning

open Collections Dicts Observables Hypotheses

/-- Predictions projected over the usable ids, as (id, state) pairs. -/
abbrev Signature := List (String × String)

/-- Tuples of tuples compare lexicographically. -/
def Signature.sortKey (sig : Signature) : List (String ×ₗ String) := sig.map toLex

theorem Signature.sortKey_injective : Function.Injective Signature.sortKey :=
  List.map_injective_iff.mpr toLex.injective

structure EquivalenceClass (σ : Type) where
  signature : Signature
  members : List (Hypothesis σ)
  dMissing : Finset String
  members_ne : members ≠ []

/-- The surviving classes, the usable snapshot, and the eliminated hypotheses.
A zero-class partition can only mean that everything was eliminated. -/
structure Partition (σ : Type) where
  classes : List (EquivalenceClass σ)
  usable : List Observable
  eliminated : List (Hypothesis σ)
  nonempty : classes ≠ [] ∨ eliminated ≠ []

variable {σ : Type}

@[ext]
theorem EquivalenceClass.ext {a b : EquivalenceClass σ} (hs : a.signature = b.signature)
    (hm : a.members = b.members) (hd : a.dMissing = b.dMissing) : a = b := by
  cases a
  cases b
  simp_all

@[ext]
theorem Partition.ext {a b : Partition σ} (hc : a.classes = b.classes)
    (hu : a.usable = b.usable) (he : a.eliminated = b.eliminated) : a = b := by
  cases a
  cases b
  simp_all

def EquivalenceClass.make (signature : Signature) (members : List (Hypothesis σ))
    (dMissing : Finset String) : Except StructuralError (EquivalenceClass σ) :=
  if h : members ≠ [] then .ok ⟨signature, members, dMissing, h⟩ else .error .emptyClass

def Partition.make (classes : List (EquivalenceClass σ)) (usable : List Observable)
    (eliminated : List (Hypothesis σ)) : Except StructuralError (Partition σ) :=
  if h : classes ≠ [] ∨ eliminated ≠ [] then .ok ⟨classes, usable, eliminated, h⟩
  else .error .emptyPartition

def EquivalenceClass.isSingleton (c : EquivalenceClass σ) : Bool := c.members.length == 1

namespace Partition

/-- The surviving hypotheses, class by class. -/
def survivors (p : Partition σ) : List (Hypothesis σ) :=
  p.classes.flatMap EquivalenceClass.members

def fUsable (p : Partition σ) : List String := sortOn id (p.usable.map Observable.id)

/-- Id to observed state, over the usable snapshot. -/
def usableStates (p : Partition σ) : Dict String String := statesOf p.usable

def noSurvivingHypothesis (p : Partition σ) : Bool := p.classes.isEmpty

end Partition

/-- The hypothesis's predictions over the usable ids, those it does not predict omitted. -/
def signature (prediction : Dict String String) (fUsable : List String) : Signature :=
  fUsable.filterMap (fun f => (prediction.lookup f).map (fun s => (f, s)))

/-- One step of the hypothesis set: a causal id has one definition and one provenance. -/
def distinctStep [DecidableEq σ] (acc : List (Hypothesis σ)) (h : Hypothesis σ) :
    Except StructuralError (List (Hypothesis σ)) :=
  match acc.find? (fun prev => prev.id = h.id) with
  | none => .ok (acc ++ [h])
  | some prev =>
      -- a literal repeat has equal identity and equal provenance
      if prev.identity ≠ h.identity then .error (.conflictingHypotheses h.id)
      else if prev.source ≠ h.source then .error (.divergentProvenance h.id)
      else .ok acc

/-- Materialize the hypothesis set, keeping the first copy of each. -/
def distinct [DecidableEq σ] (hypotheses : List (Hypothesis σ)) :
    Except StructuralError (List (Hypothesis σ)) :=
  hypotheses.foldlM distinctStep []

/-- The coordinates outside `fUsable` on which two predictions differ. -/
def differences (fUsable : Finset String) (pa pb : Dict String String) : Finset String :=
  (pa.keys ∪ pb.keys).filter (fun f => f ∉ fUsable ∧ pa.lookup f ≠ pb.lookup f)

/-- Coordinates on which some pair of members differ and which are not usable. -/
def dMissing (members : List (Hypothesis σ)) (fUsable : Finset String) : Finset String :=
  (pairs members).foldl
    (fun missing p => missing ∪ differences fUsable p.1.predictions p.2.predictions) ∅

/-- One equivalence class from a signature and the hypotheses that share it. -/
def classOf (fUsable : Finset String) (sig : Signature) (hs : List (Hypothesis σ)) :
    Except StructuralError (EquivalenceClass σ) :=
  let members := sortOn Hypothesis.id hs
  EquivalenceClass.make sig members (dMissing members fUsable)

/-- Partition the hypotheses over the usable observations, after dropping those a
usable observation contradicts. -/
def partition [DecidableEq σ] (hypotheses : List (Hypothesis σ))
    (observations : List Observable) (policy : UsabilityPolicy) :
    Except StructuralError (Partition σ) := do
  let usable ← usableObservations observations policy
  let fUsable := sortOn id (usable.map Observable.id)
  let distinct ← distinct hypotheses
  if distinct = [] then
    .error .noHypothesis
  else
    let tagged ← distinct.mapM (fun h => do
      let out ← h.hardIncompatibility usable
      return (h, out))
    let survivors := (tagged.filter (fun p => !p.2)).map Prod.fst
    let eliminated := (tagged.filter (fun p => p.2)).map Prod.fst
    let grouped := groupOn (fun h => signature h.predictions fUsable) survivors
    let classes ← (sortOn (fun p => p.1.sortKey) grouped).mapM
      (fun p => classOf fUsable.toFinset p.1 p.2)
    Partition.make classes (sortOn Observable.id usable) (sortOn Hypothesis.id eliminated)

/-! The hypothesis set. -/

/-- Every copy of an id is the same hypothesis, provenance included. -/
def OneDefinition (hypotheses : List (Hypothesis σ)) : Prop :=
  ∀ a ∈ hypotheses, ∀ b ∈ hypotheses, a.id = b.id → a = b

/-- What the prefix of the list has become: its distinct hypotheses. -/
structure DistinctOf (l out : List (Hypothesis σ)) : Prop where
  mem_iff : ∀ h, h ∈ out ↔ h ∈ l
  ids_nodup : (out.map Hypothesis.id).Nodup

theorem DistinctOf.nodup {l out : List (Hypothesis σ)} (h : DistinctOf l out) : out.Nodup :=
  h.ids_nodup.of_map _

theorem DistinctOf.oneDefinition {l out : List (Hypothesis σ)} (h : DistinctOf l out) :
    OneDefinition l := by
  intro a ha b hb hab
  exact List.inj_on_of_nodup_map h.ids_nodup ((h.mem_iff a).mpr ha) ((h.mem_iff b).mpr hb) hab

variable [DecidableEq σ]

theorem distinctStep_ok_iff {l acc : List (Hypothesis σ)} (hacc : DistinctOf l acc)
    (h : Hypothesis σ) (out : List (Hypothesis σ)) :
    distinctStep acc h = .ok out ↔
      (∀ b ∈ l, b.id = h.id → b = h) ∧ out = if h ∈ acc then acc else acc ++ [h] := by
  unfold distinctStep
  cases hf : acc.find? (fun prev => prev.id = h.id) with
  | none =>
    have hno : ∀ b ∈ acc, b.id ≠ h.id := by simpa using List.find?_eq_none.mp hf
    have hmem : h ∉ acc := fun hm => hno h hm rfl
    have hfresh : ∀ b ∈ l, b.id = h.id → b = h := fun b hb hbh =>
      absurd hbh (hno b ((hacc.mem_iff b).mpr hb))
    simp only [hmem, if_false, Except.ok.injEq]
    exact ⟨fun heq => ⟨hfresh, heq.symm⟩, fun heq => heq.2.symm⟩
  | some prev =>
    have hprev : prev ∈ acc := List.mem_of_find?_eq_some hf
    have hid : prev.id = h.id := by simpa using List.find?_some hf
    by_cases hsame : prev = h
    · subst hsame
      have hone : ∀ b ∈ l, b.id = prev.id → b = prev := fun b hb hbh =>
        hacc.oneDefinition b hb prev ((hacc.mem_iff prev).mp hprev) hbh
      simp only [ne_eq, not_true_eq_false, if_false, hprev, if_true, Except.ok.injEq]
      exact ⟨fun heq => ⟨hone, heq.symm⟩, fun heq => heq.2.symm⟩
    · have hbad : ¬ ∀ b ∈ l, b.id = h.id → b = h := fun hall =>
        hsame (hall prev ((hacc.mem_iff prev).mp hprev) hid)
      constructor
      · intro heq
        by_cases hident : prev.identity = h.identity
        · by_cases hsource : prev.source = h.source
          · exact absurd (Hypothesis.eq_of_identity hident hsource) hsame
          · simp [hident, hsource] at heq
        · simp [hident] at heq
      · exact fun heq => absurd heq.1 hbad

theorem DistinctOf.step {l acc : List (Hypothesis σ)} (hacc : DistinctOf l acc)
    {h : Hypothesis σ} (hone : ∀ b ∈ l, b.id = h.id → b = h) :
    DistinctOf (l ++ [h]) (if h ∈ acc then acc else acc ++ [h]) := by
  by_cases hmem : h ∈ acc
  · simp only [hmem, if_true]
    refine ⟨?_, hacc.ids_nodup⟩
    intro b
    rw [List.mem_append, List.mem_singleton, hacc.mem_iff]
    constructor
    · exact Or.inl
    · rintro (hb | rfl)
      · exact hb
      · exact (hacc.mem_iff b).mp hmem
  · simp only [hmem, if_false]
    refine ⟨?_, ?_⟩
    · intro b
      simp only [List.mem_append, List.mem_singleton, hacc.mem_iff]
    · rw [List.map_append, List.nodup_append]
      refine ⟨hacc.ids_nodup, List.nodup_singleton _, ?_⟩
      intro x hx y hy hxy
      obtain ⟨b, hb, rfl⟩ := List.mem_map.mp hx
      simp only [List.map_cons, List.map_nil, List.mem_singleton] at hy
      have : b = h := hone b ((hacc.mem_iff b).mp hb) (hxy.trans hy)
      exact hmem (this ▸ hb)

theorem foldlM_distinctStep {l acc hs out : List (Hypothesis σ)} (hacc : DistinctOf l acc)
    (h : hs.foldlM distinctStep acc = .ok out) : DistinctOf (l ++ hs) out := by
  induction hs generalizing l acc with
  | nil =>
    simp only [List.foldlM_nil, pure, Except.pure, Except.ok.injEq] at h
    simpa [h] using hacc
  | cons a hs ih =>
    rw [List.foldlM_cons, bind_eq_ok] at h
    obtain ⟨mid, hmid, hrest⟩ := h
    obtain ⟨hone, rfl⟩ := (distinctStep_ok_iff hacc a mid).mp hmid
    simpa using ih (hacc.step hone) hrest

omit [DecidableEq σ] in
theorem distinctOf_nil : DistinctOf ([] : List (Hypothesis σ)) [] :=
  ⟨fun _ => Iff.rfl, List.nodup_nil⟩

theorem distinct_spec {hs out : List (Hypothesis σ)} (h : distinct hs = .ok out) :
    DistinctOf hs out := by
  simpa using foldlM_distinctStep distinctOf_nil h

theorem foldlM_distinctStep_ok {l acc hs : List (Hypothesis σ)} (hacc : DistinctOf l acc)
    (hone : OneDefinition (l ++ hs)) : ∃ out, hs.foldlM distinctStep acc = .ok out := by
  induction hs generalizing l acc with
  | nil => exact ⟨acc, rfl⟩
  | cons a hs ih =>
    have ha : ∀ b ∈ l, b.id = a.id → b = a := fun b hb =>
      hone b (List.mem_append_left _ hb) a (by simp)
    obtain ⟨out, hout⟩ := ih (hacc.step ha) (by simpa using hone)
    refine ⟨out, ?_⟩
    rw [List.foldlM_cons, (distinctStep_ok_iff hacc a _).mpr ⟨ha, rfl⟩]
    exact hout

/-- The hypothesis set is accepted exactly when every id has one definition and
one provenance. -/
theorem distinct_ok_iff (hs : List (Hypothesis σ)) :
    (∃ out, distinct hs = .ok out) ↔ OneDefinition hs := by
  constructor
  · rintro ⟨out, h⟩
    exact (distinct_spec h).oneDefinition
  · intro h
    exact foldlM_distinctStep_ok distinctOf_nil (by simpa using h)

end Raglogs.Partitioning

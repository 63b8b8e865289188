import Raglogs.Collections
import Raglogs.Dicts
import Mathlib.Data.Rat.Defs
import Mathlib.Data.String.Basic
import Mathlib.Algebra.Order.Ring.Rat
import Mathlib.Order.Interval.Set.Defs

/-!
Availability-aware observables and the usability policy. An observable carries
three states that never collapse: uncollectable, collectable but not measured,
and measured. Only a collectable, observed coordinate whose confidence meets
its threshold is usable evidence. A list of observables may name each
coordinate once; a repeated id is rejected before anything else is read.
-/

namespace Raglogs.Observables

open Collections Dicts

/-- The ValueErrors of the structural root-cause code, by cause. -/
inductive StructuralError
  | duplicateObservable (id : String)
  | noHypothesis
  | conflictingHypotheses (id : String)
  | divergentProvenance (id : String)
  | emptyClass
  | emptyPartition
  | emptyClassView
  | outcomeMismatch
  | localizationMismatch
  | dMissingMismatch
  | checksMismatch
  | eliminationWithoutEvidence
deriving DecidableEq, Repr

inductive Availability
  | unknown
  | observed
deriving DecidableEq, Repr

/-- A measurement confidence or a threshold: a finite number in [0, 1]. -/
abbrev Confidence := Set.Icc (0 : ℚ) 1

/-- One observable coordinate. The proof fields are what the constructor of
the source validates, so an UNKNOWN observable never carries a state and an
uncollectable one is never OBSERVED. -/
structure Observable where
  id : String
  collectable : Bool
  availability : Availability
  state : Option String
  measurementConfidence : Confidence
  id_ne : id ≠ ""
  observed_state : availability = .observed → state ≠ none
  unknown_state : availability = .unknown → state = none
  uncollectable_unknown : collectable = false → availability = .unknown
deriving DecidableEq

namespace Observable

def isUsable (o : Observable) : Bool :=
  o.collectable && o.availability == .observed

end Observable

/-- Measured this incident. -/
def observed (id state : String) (confidence : Confidence) (hid : id ≠ "") : Observable where
  id := id
  collectable := true
  availability := .observed
  state := some state
  measurementConfidence := confidence
  id_ne := hid
  observed_state _ := by simp
  unknown_state h := by simp at h
  uncollectable_unknown h := by simp at h

/-- Collectable but not measured this incident. -/
def unknown (id : String) (confidence : Confidence) (hid : id ≠ "") : Observable where
  id := id
  collectable := true
  availability := .unknown
  state := none
  measurementConfidence := confidence
  id_ne := hid
  observed_state h := by simp at h
  unknown_state _ := rfl
  uncollectable_unknown h := by simp at h

def fullConfidence : Confidence := ⟨1, by simp⟩

/-- No integration here can ever produce this evidence. -/
def uncollectable (id : String) (hid : id ≠ "") : Observable where
  id := id
  collectable := false
  availability := .unknown
  state := none
  measurementConfidence := fullConfidence
  id_ne := hid
  observed_state h := by simp at h
  unknown_state _ := rfl
  uncollectable_unknown _ := rfl

/-- One step of the index by id: a coordinate may appear at most once. -/
def byIdStep (acc : List Observable) (o : Observable) :
    Except StructuralError (List Observable) :=
  if o.id ∈ acc.map Observable.id then .error (.duplicateObservable o.id)
  else .ok (acc ++ [o])

/-- Index observables by id, rejecting duplicates; the values in insertion order. -/
def byId (observables : List Observable) : Except StructuralError (List Observable) :=
  observables.foldlM byIdStep []

theorem foldlM_byIdStep (acc obs : List Observable)
    (h : ((acc ++ obs).map Observable.id).Nodup) :
    obs.foldlM byIdStep acc = .ok (acc ++ obs) := by
  induction obs generalizing acc with
  | nil => simp [pure, Except.pure]
  | cons o obs ih =>
    have hno : o.id ∉ acc.map Observable.id := by
      rw [List.map_append, List.nodup_append] at h
      intro hmem
      exact h.2.2 _ hmem o.id (by simp) rfl
    rw [List.foldlM_cons, byIdStep, if_neg hno]
    have hassoc : acc ++ o :: obs = (acc ++ [o]) ++ obs := by simp
    rw [hassoc] at h ⊢
    exact ih (acc ++ [o]) h

/-- Distinct ids are accepted and left as they are. -/
theorem byId_of_nodup {obs : List Observable} (h : (obs.map Observable.id).Nodup) :
    byId obs = .ok obs := by
  simpa [byId] using foldlM_byIdStep [] obs (by simpa using h)

theorem foldlM_byIdStep_ok {acc obs out : List Observable}
    (hacc : (acc.map Observable.id).Nodup) (h : obs.foldlM byIdStep acc = .ok out) :
    ((acc ++ obs).map Observable.id).Nodup := by
  induction obs generalizing acc with
  | nil => simpa using hacc
  | cons o obs ih =>
    rw [List.foldlM_cons, byIdStep] at h
    split at h
    · cases h
    · rename_i hno
      have hnext : ((acc ++ [o]).map Observable.id).Nodup := by
        rw [List.map_append, List.nodup_append]
        refine ⟨hacc, List.nodup_singleton _, ?_⟩
        intro a ha b hb hab
        simp only [List.map_cons, List.map_nil, List.mem_singleton] at hb
        exact hno (hb ▸ hab ▸ ha)
      have := ih hnext h
      simpa using this

/-- The index is accepted exactly when the ids are distinct. -/
theorem byId_ok_iff (obs : List Observable) :
    (∃ out, byId obs = .ok out) ↔ (obs.map Observable.id).Nodup := by
  constructor
  · rintro ⟨out, h⟩
    have hnil : (([] : List Observable).map Observable.id).Nodup := List.nodup_nil
    simpa using foldlM_byIdStep_ok hnil h
  · intro h
    exact ⟨obs, byId_of_nodup h⟩

/-- The observables that carry evidence: collectable and observed. -/
def usableObservables (observables : List Observable) :
    Except StructuralError (List Observable) := do
  let indexed ← byId observables
  return indexed.filter Observable.isUsable

/-- Ids of uncollectable observables: the integration-gap recommendation. -/
def integrationGaps (observables : List Observable) :
    Except StructuralError (List String) := do
  let indexed ← byId observables
  return sortOn id ((indexed.filter (fun o => !o.collectable)).map Observable.id)

/-- The confidence gate: a threshold for each named observable, and a default. -/
structure UsabilityPolicy where
  defaultTau : Confidence
  tau : Dict String Confidence
  tau_ids : "" ∉ tau

/-- The policy that accepts every measured coordinate. -/
def defaultPolicy : UsabilityPolicy where
  defaultTau := ⟨0, by simp⟩
  tau := ∅
  tau_ids := Finmap.notMem_empty

def UsabilityPolicy.threshold (policy : UsabilityPolicy) (observableId : String) : Confidence :=
  (policy.tau.lookup observableId).getD policy.defaultTau

/-- The one usable set of a partition: collectable, observed, and confident. -/
def usableObservations (observations : List Observable) (policy : UsabilityPolicy) :
    Except StructuralError (List Observable) := do
  let collected ← usableObservables observations
  return collected.filter (fun o => policy.threshold o.id ≤ o.measurementConfidence)

/-- The same set, once the ids are known to be distinct. -/
def usableSet (observations : List Observable) (policy : UsabilityPolicy) : List Observable :=
  (observations.filter Observable.isUsable).filter
    (fun o => policy.threshold o.id ≤ o.measurementConfidence)

theorem usableObservables_of_nodup {obs : List Observable}
    (h : (obs.map Observable.id).Nodup) :
    usableObservables obs = .ok (obs.filter Observable.isUsable) := by
  rw [usableObservables, byId_of_nodup h]
  rfl

theorem usableObservations_of_nodup {obs : List Observable}
    (h : (obs.map Observable.id).Nodup) (policy : UsabilityPolicy) :
    usableObservations obs policy = .ok (usableSet obs policy) := by
  rw [usableObservations, usableObservables_of_nodup h]
  rfl

theorem integrationGaps_of_nodup {obs : List Observable}
    (h : (obs.map Observable.id).Nodup) :
    integrationGaps obs =
      .ok (sortOn id ((obs.filter (fun o => !o.collectable)).map Observable.id)) := by
  rw [integrationGaps, byId_of_nodup h]
  rfl

/-- A repeated id is rejected whatever the policy. -/
theorem nodup_of_usableObservations_ok {obs out : List Observable} {policy : UsabilityPolicy}
    (h : usableObservations obs policy = .ok out) : (obs.map Observable.id).Nodup := by
  apply (byId_ok_iff obs).mp
  cases hb : byId obs with
  | error e =>
    simp [usableObservations, usableObservables, hb, bind, Except.bind] at h
  | ok indexed => exact ⟨indexed, rfl⟩

theorem mem_usableSet {obs : List Observable} {policy : UsabilityPolicy} {o : Observable} :
    o ∈ usableSet obs policy ↔
      o ∈ obs ∧ o.isUsable = true ∧ policy.threshold o.id ≤ o.measurementConfidence := by
  simp only [usableSet, List.mem_filter, decide_eq_true_eq, and_assoc]

theorem usableSet_ids_nodup {obs : List Observable} (h : (obs.map Observable.id).Nodup)
    (policy : UsabilityPolicy) : ((usableSet obs policy).map Observable.id).Nodup :=
  h.sublist (((List.filter_sublist).trans List.filter_sublist).map _)

theorem usableSet_perm {obs obs' : List Observable} (h : obs.Perm obs')
    (policy : UsabilityPolicy) : (usableSet obs policy).Perm (usableSet obs' policy) :=
  (h.filter _).filter _

/-- Distinct ids: an id and a list determine the observable. -/
theorem eq_of_id_eq {obs : List Observable} (h : (obs.map Observable.id).Nodup)
    {o o' : Observable} (ho : o ∈ obs) (ho' : o' ∈ obs) (hid : o.id = o'.id) : o = o' :=
  List.inj_on_of_nodup_map h ho ho' hid

/-- The measured states of usable observables, by id. -/
def statesOf (observables : List Observable) : Dict String String :=
  dictOf (observables.filterMap (fun o => o.state.map (fun s => (o.id, s))))

theorem lookup_statesOf {obs : List Observable} (h : (obs.map Observable.id).Nodup)
    (id s : String) :
    (statesOf obs).lookup id = some s ↔ ∃ o ∈ obs, o.id = id ∧ o.state = some s := by
  have hkeys : ((obs.filterMap (fun o => o.state.map (fun s => (o.id, s)))).map
      Prod.fst).Nodup := by
    refine h.sublist ?_
    induction obs with
    | nil => simp
    | cons o obs ih =>
      have htail := ih (List.nodup_cons.mp h).2
      cases hs : o.state with
      | none => simpa [List.filterMap_cons, hs] using htail.cons o.id
      | some s => simpa [List.filterMap_cons, hs] using htail.cons_cons o.id
  rw [statesOf, lookup_dictOf hkeys, List.mem_filterMap]
  constructor
  · rintro ⟨o, ho, hos⟩
    obtain ⟨s', hs', heq⟩ := Option.map_eq_some_iff.mp hos
    obtain ⟨rfl, rfl⟩ := Prod.mk.inj heq
    exact ⟨o, ho, rfl, hs'⟩
  · rintro ⟨o, ho, rfl, hs⟩
    exact ⟨o, ho, by simp [hs]⟩

/-- The states of a set of observables do not depend on its order. -/
theorem statesOf_perm {obs obs' : List Observable} (h : (obs.map Observable.id).Nodup)
    (hperm : obs.Perm obs') : statesOf obs = statesOf obs' := by
  have h' : (obs'.map Observable.id).Nodup := (hperm.map Observable.id).nodup_iff.mp h
  apply Finmap.ext_lookup
  intro f
  apply Option.ext
  intro s
  rw [lookup_statesOf h, lookup_statesOf h']
  simp only [hperm.mem_iff]

end Raglogs.Observables

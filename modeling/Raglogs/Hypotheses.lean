import Raglogs.Observables
import Mathlib.Data.Finset.Sort

/-!
Causal hypotheses and their two-layer evidence model. Soft expectations give the
categorical predictions; a hard contradiction names the observed states that
eliminate the hypothesis. A hypothesis owns one map of predictions, the one of
its observation model when it has a model. The ranking provenance is carried
along and is no part of the identity.
-/

namespace Raglogs.Hypotheses

open Collections Dicts Observables

/-- Soft support weight of an expectation; never part of a prediction. -/
inductive Strength
  | usually
  | often
  | maybe
  | notRequired
deriving DecidableEq, Repr

@[ext]
structure ExpectedObservation where
  observableId : String
  expectedState : String
  strength : Strength
  observableId_ne : observableId ≠ ""
  expectedState_ne : expectedState ≠ ""

instance : DecidableEq ExpectedObservation := fun _ _ =>
  decidable_of_iff _ ExpectedObservation.ext_iff.symm

/-- If the observable is observed in one of the states, the hypothesis is impossible. -/
@[ext]
structure Contradiction where
  observableId : String
  states : Finset String
  observableId_ne : observableId ≠ ""
  states_nonempty : states.Nonempty
  states_ne : "" ∉ states

instance : DecidableEq Contradiction := fun _ _ =>
  decidable_of_iff _ Contradiction.ext_iff.symm

/-- At most one expectation and one contradiction for each id, and no state that
both supports and eliminates. -/
structure ObservationModel where
  expected : List ExpectedObservation
  contradictions : List Contradiction
  expected_nodup : (expected.map ExpectedObservation.observableId).Nodup
  contradictions_nodup : (contradictions.map Contradiction.observableId).Nodup
  coherent : ∀ e ∈ expected, ∀ c ∈ contradictions,
    c.observableId = e.observableId → e.expectedState ∉ c.states
deriving DecidableEq

namespace ObservationModel

/-- The categorical predictions, strength-free. -/
def predictions (model : ObservationModel) : Dict String String :=
  dictOf (model.expected.map (fun e => (e.observableId, e.expectedState)))

/-- True when a usable observation logically contradicts the hypothesis. -/
def hardIncompatibility (model : ObservationModel) (observations : List Observable) :
    Except StructuralError Bool := do
  let usable ← usableObservables observations
  let observed := statesOf usable
  return model.contradictions.any (fun c =>
    match observed.lookup c.observableId with
    | some s => decide (s ∈ c.states)
    | none => false)

end ObservationModel

inductive Kind
  | process
  | edge
  | resource
  | infraEvent
  | change
  | external
deriving DecidableEq, Repr

/-- The string an ontology kind is presented as. -/
def Kind.value : Kind → String
  | .process => "process"
  | .edge => "edge"
  | .resource => "resource"
  | .infraEvent => "infra_event"
  | .change => "change"
  | .external => "external"

/-- One causal hypothesis; `σ` is the ranking provenance, read through equality only. -/
structure Hypothesis (σ : Type) where
  id : String
  kind : Kind
  localization : String
  predictions : Dict String String
  observationModel : Option ObservationModel
  source : Option σ
  id_ne : id ≠ ""
  localization_ne : localization ≠ ""
  predictions_eq : ∀ model, observationModel = some model → predictions = model.predictions

namespace Hypothesis

variable {σ : Type}

/-- The behavioral identity: every field but the provenance. -/
def identity (h : Hypothesis σ) :
    String × Kind × String × Dict String String × Option ObservationModel :=
  (h.id, h.kind, h.localization, h.predictions, h.observationModel)

/-- Equal identity and equal provenance is the same hypothesis. -/
theorem eq_of_identity {a b : Hypothesis σ} (hid : a.identity = b.identity)
    (hsource : a.source = b.source) : a = b := by
  cases a
  cases b
  simp only [identity, Prod.mk.injEq] at hid
  obtain ⟨rfl, rfl, rfl, rfl, rfl⟩ := hid
  subst hsource
  rfl

theorem eq_iff_identity {a b : Hypothesis σ} :
    a.identity = b.identity ∧ a.source = b.source ↔ a = b :=
  ⟨fun h => eq_of_identity h.1 h.2, fun h => by rw [h]; exact ⟨rfl, rfl⟩⟩

instance [DecidableEq σ] : DecidableEq (Hypothesis σ) := fun _ _ =>
  decidable_of_iff _ eq_iff_identity

def contradictions (h : Hypothesis σ) : List Contradiction :=
  match h.observationModel with
  | some model => model.contradictions
  | none => []

/-- A hypothesis without a model is never hard-incompatible. -/
def hardIncompatibility (h : Hypothesis σ) (observations : List Observable) :
    Except StructuralError Bool :=
  match h.observationModel with
  | some model => model.hardIncompatibility observations
  | none => .ok false

/-- Some observation of the list was measured in a state that one of the
hypothesis's contradiction rules names. -/
def Contradicted (h : Hypothesis σ) (observations : List Observable) : Prop :=
  ∃ o ∈ observations, ∃ c ∈ h.contradictions, o.id = c.observableId ∧
    ∃ s, o.state = some s ∧ s ∈ c.states

/-- Replace the ranking provenance. -/
def withSource {τ : Type} (s : Option τ) (h : Hypothesis σ) : Hypothesis τ where
  id := h.id
  kind := h.kind
  localization := h.localization
  predictions := h.predictions
  observationModel := h.observationModel
  source := s
  id_ne := h.id_ne
  localization_ne := h.localization_ne
  predictions_eq := h.predictions_eq

end Hypothesis

/-- A process hypothesis with one soft prediction and no contradiction rule. -/
def predicting {σ : Type} (id observableId state : String) (source : Option σ) (hid : id ≠ "") :
    Hypothesis σ where
  id := id
  kind := .process
  localization := id
  predictions := dictOf [(observableId, state)]
  observationModel := none
  source := source
  id_ne := hid
  localization_ne := hid
  predictions_eq := by simp

/-- Two causes that predict opposite latencies, and the latency itself. -/
def slowCheckout (score : ℕ) : Hypothesis ℕ :=
  predicting "checkout" "latency" "high" (some score) (by decide)

def fastPayment (score : ℕ) : Hypothesis ℕ :=
  predicting "payment" "latency" "low" (some score) (by decide)

def latencyUnknown : Observable := unknown "latency" fullConfidence (by decide)

def latencyHigh : Observable := observed "latency" "high" fullConfidence (by decide)

/-- Executable form of `Contradicted`, over the states of a usable set. -/
def contradictedBy {σ : Type} (observed : Dict String String) (h : Hypothesis σ) : Bool :=
  h.contradictions.any (fun c =>
    match observed.lookup c.observableId with
    | some s => decide (s ∈ c.states)
    | none => false)

/-- Over a list with distinct ids every observation of which is usable, the
elimination test does not raise. -/
theorem hardIncompatibility_eq {σ : Type} (h : Hypothesis σ) {usable : List Observable}
    (hnd : (usable.map Observable.id).Nodup) (hus : ∀ o ∈ usable, o.isUsable = true) :
    h.hardIncompatibility usable = .ok (contradictedBy (statesOf usable) h) := by
  have hall : usable.filter Observable.isUsable = usable :=
    List.filter_eq_self.mpr hus
  cases hm : h.observationModel with
  | none =>
    simp [Hypothesis.hardIncompatibility, contradictedBy, Hypothesis.contradictions, hm]
  | some model =>
    simp only [Hypothesis.hardIncompatibility, hm, ObservationModel.hardIncompatibility,
      usableObservables_of_nodup hnd, hall, contradictedBy, Hypothesis.contradictions]
    rfl

/-- The elimination test says what its rules say. -/
theorem contradictedBy_iff {σ : Type} (h : Hypothesis σ) {usable : List Observable}
    (hnd : (usable.map Observable.id).Nodup) :
    contradictedBy (statesOf usable) h = true ↔ h.Contradicted usable := by
  unfold contradictedBy Hypothesis.Contradicted
  rw [List.any_eq_true]
  constructor
  · rintro ⟨c, hc, hcs⟩
    cases hl : (statesOf usable).lookup c.observableId with
    | none => simp [hl] at hcs
    | some s =>
      obtain ⟨o, ho, hoid, hos⟩ := (lookup_statesOf hnd _ _).mp hl
      exact ⟨o, ho, c, hc, hoid, s, hos, by simpa [hl] using hcs⟩
  · rintro ⟨o, ho, c, hc, hoid, s, hos, hs⟩
    refine ⟨c, hc, ?_⟩
    have hl := (lookup_statesOf hnd c.observableId s).mpr ⟨o, ho, hoid, hos⟩
    simpa [hl] using hs

end Raglogs.Hypotheses

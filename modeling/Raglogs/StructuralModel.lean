import Raglogs.CallGraph
import Raglogs.Outcomes
import Raglogs.Utilization

/-!
The structural model: from telemetry rows to observables, candidate hypotheses and a
resolved partition. A candidate predicts its own signal and every edge and resource
signal that names it; every expectation is soft. A hypothesis is built through the
checks of its constructor, and a check that fails raises.
-/

namespace Raglogs.StructuralModel

open Collections Dicts LogEntries Observables Hypotheses Partitioning Outcomes SortedDicts
  StructuralSignals CallGraph Utilization Telemetry

/-- Everything the structural model reads for one scope and window. -/
structure StructuralInputs (K : Type) where
  signals : Dict String (ServiceSignal K)
  edges : Finset (String × String)
  edgeSignals : Dict Pair (EdgeSignal K)
  utilSignals : Dict Pair (UtilSignal K)

section Inputs

variable {K : Type} [Arithmetic K]

/-- The one builder of the inputs, from the rows of the baseline and the incident. -/
def structuralSignals (rd : Rendering) (spans : List (TraceSpan K))
    (metrics : List (MetricSample K)) (windowStart : Timestamp) :
    Except ModelError (StructuralInputs K) := do
  let fromSpans ← summarizeSpans rd windowStart spans
  let fromMetrics ← summarizeMetrics rd windowStart metrics
  let edgeSignals ← summarizeEdges rd windowStart spans
  let utilSignals ← summarizeUtilization rd windowStart metrics
  return {
    signals := combineSignals [fromSpans, fromMetrics]
    edges := callEdges spans (some windowStart)
    edgeSignals := edgeSignals
    utilSignals := utilSignals }

end Inputs

def sigObservableId (service : String) : String := "sig:" ++ service

theorem sigObservableId_ne (service : String) : sigObservableId service ≠ "" := by
  intro h
  have hlength := congrArg String.length h
  simp [sigObservableId] at hlength

theorem edgeObservableId_ne (caller callee : String) : edgeObservableId caller callee ≠ "" := by
  intro h
  have hlength := congrArg String.length h
  simp [edgeObservableId] at hlength

theorem utilObservableId_ne (service resource : String) :
    utilObservableId service resource ≠ "" := by
  intro h
  have hlength := congrArg String.length h
  simp [utilObservableId] at hlength

variable {K : Type}

/-- An observable for each proven signal; an unknown one is left out. -/
def buildObservables (inp : StructuralInputs K) : List Observable :=
  (sortedItems inp.signals).filterMap (fun p => p.2.sigState.map (fun state =>
    observed (sigObservableId p.1) state.value fullConfidence (sigObservableId_ne _))) ++
  (sortedItems inp.edgeSignals).filterMap (fun p => p.2.sigState.map (fun state =>
    observed p.2.id state.value fullConfidence (edgeObservableId_ne _ _))) ++
  (sortedItems inp.utilSignals).filterMap (fun p => p.2.sigState.map (fun state =>
    observed p.2.id state.value fullConfidence (utilObservableId_ne _ _)))

/-- The services with a signal proven present. -/
def anomalousServices (signals : Dict String (ServiceSignal K)) : Finset String :=
  (((sortedItems signals).filter (fun p => p.2.sigState == some .present)).map Prod.fst).toFinset

def callees (service : String) (edges : Finset (String × String)) : Finset String :=
  (edges.filter (fun edge => edge.1 = service)).image Prod.snd

/-- The anomalous services, the callees of those whose fault no anomalous callee explains,
the callees of present edges, and the services with a present resource. -/
def candidateServices (inp : StructuralInputs K) : Finset String :=
  let anomalous := anomalousServices inp.signals
  let unexplained := anomalous.filter (fun s => Disjoint (callees s inp.edges) anomalous)
  anomalous ∪ unexplained.biUnion (fun s => callees s inp.edges) ∪
    (((sortedItems inp.edgeSignals).filter (fun p => p.2.sigState == some .present)).map
      (fun p => p.2.callee)).toFinset ∪
    (((sortedItems inp.utilSignals).filter (fun p => p.2.sigState == some .present)).map
      (fun p => p.2.service)).toFinset

/-- A signal expected present, at the default strength. -/
def expectPresent (id : String) (hid : id ≠ "") : ExpectedObservation :=
  ⟨id, SigState.present.value, .maybe, hid, by decide⟩

/-- The edge and resource signals that name a service, sorted by id. -/
def expectedExtra (inp : StructuralInputs K) (service : String) : List ExpectedObservation :=
  sortOn ExpectedObservation.observableId
    (((sortedItems inp.edgeSignals).filter (fun p => p.2.callee == service)).map
        (fun p => expectPresent p.2.id (edgeObservableId_ne _ _)) ++
      ((sortedItems inp.utilSignals).filter (fun p => p.2.service == service)).map
        (fun p => expectPresent p.2.id (utilObservableId_ne _ _)))

/-- Everything that a candidate predicts. -/
def expectations (inp : StructuralInputs K) (service : String) : List ExpectedObservation :=
  expectPresent (sigObservableId service) (sigObservableId_ne service) :: expectedExtra inp service

/-- The checks of an observation model without contradiction rules. -/
def softModel (expected : List ExpectedObservation) : Except ModelError ObservationModel :=
  let ids := expected.map ExpectedObservation.observableId
  if hnd : ids.Nodup then
    .ok {
      expected := expected
      contradictions := []
      expected_nodup := hnd
      contradictions_nodup := List.nodup_nil
      coherent := by simp }
  else .error (.duplicateExpectation ((ids.find? (fun id => 1 < ids.count id)).getD ""))

def processId (service : String) : String := "process:" ++ service

theorem processId_ne (service : String) : processId service ≠ "" := by
  intro h
  have hlength := congrArg String.length h
  simp [processId] at hlength

/-- A process hypothesis that owns its model; it must be localized. -/
def fromObservationModel {σ : Type} (service : String) (model : ObservationModel) :
    Except ModelError (Hypothesis σ) :=
  if hloc : service ≠ "" then
    .ok {
      id := processId service
      kind := .process
      localization := service
      predictions := model.predictions
      observationModel := some model
      source := none
      id_ne := processId_ne service
      localization_ne := hloc
      predictions_eq := by
        intro model' h
        rw [Option.some.inj h] }
  else .error (.emptyLocalization (processId service))

/-- A hypothesis for each candidate service, in the order of their names. -/
def buildHypotheses {σ : Type} (inp : StructuralInputs K) :
    Except ModelError (List (Hypothesis σ)) :=
  (inOrder (candidateServices inp)).mapM (fun service => do
    let model ← softModel (expectations inp service)
    fromObservationModel service model)

/-- An error of the structural code below. -/
def lift {α : Type} (x : Except StructuralError α) : Except ModelError α :=
  x.mapError .structural

/-- Hypotheses, observables, partition and outcome, or nothing without a candidate. -/
def resolveStructural {σ : Type} [DecidableEq σ] (inp : StructuralInputs K) :
    Except ModelError (Option (StructuralResult × Partition σ)) := do
  let hypotheses ← buildHypotheses (σ := σ) inp
  if hypotheses = [] then return none
  else
    let observations := buildObservables inp
    let part ← lift (partition hypotheses observations defaultPolicy)
    let result ← lift (resolve part observations)
    return some (result, part)

end Raglogs.StructuralModel

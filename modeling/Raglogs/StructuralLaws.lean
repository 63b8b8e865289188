import Raglogs.OutcomeLaws
import Raglogs.SignalLaws

/-!
What the structural model does with its inputs. Hypotheses are built unless a candidate
has no name or is to predict one observable twice; with distinct observable ids nothing
else can fail, and the candidates are read off the states of the signals.
-/

namespace Raglogs.StructuralLaws

open Collections Dicts Observables Hypotheses Partitioning PartitionLaws Outcomes OutcomeLaws
  SortedDicts StructuralSignals CallGraph Utilization StructuralModel SignalLaws

/-! Observable ids. -/

/-- The observable ids, one for each coordinate. -/
def observableIds {K : Type} (inp : StructuralInputs K) : List String :=
  (sortedItems inp.signals).map (fun p => sigObservableId p.1) ++
    (sortedItems inp.edgeSignals).map (fun p => p.2.id) ++
    (sortedItems inp.utilSignals).map (fun p => p.2.id)

theorem sigObservableId_injective : Function.Injective sigObservableId := by
  intro a b h
  exact (String.append_right_inj "sig:").mp h

theorem processId_injective : Function.Injective processId := by
  intro a b h
  exact (String.append_right_inj "process:").mp h

theorem sigObservableId_ne_edge (service caller callee : String) :
    sigObservableId service ≠ edgeObservableId caller callee := by
  intro h
  have hchars := congrArg String.toList h
  simp [sigObservableId, edgeObservableId, String.toList_append] at hchars

theorem sigObservableId_ne_util (service service' resource : String) :
    sigObservableId service ≠ utilObservableId service' resource := by
  intro h
  have hchars := congrArg String.toList h
  simp [sigObservableId, utilObservableId, String.toList_append] at hchars

theorem edgeObservableId_ne_util (caller callee service resource : String) :
    edgeObservableId caller callee ≠ utilObservableId service resource := by
  intro h
  have hchars := congrArg String.toList h
  simp [edgeObservableId, utilObservableId, String.toList_append] at hchars

variable {K : Type}

/-- Ids clash only inside a family. -/
theorem observableIds_nodup_iff {inp : StructuralInputs K} :
    (observableIds inp).Nodup ↔ ((sortedItems inp.edgeSignals).map (fun p => p.2.id)).Nodup ∧
      ((sortedItems inp.utilSignals).map (fun p => p.2.id)).Nodup := by
  have hsig : ((sortedItems inp.signals).map (fun p => sigObservableId p.1)).Nodup := by
    have hkeys := (sortedItems_keys_nodup inp.signals).map sigObservableId_injective
    rwa [List.map_map] at hkeys
  unfold observableIds
  rw [List.nodup_append, List.nodup_append]
  constructor
  · rintro ⟨⟨-, hedge, -⟩, hutil, -⟩
    exact ⟨hedge, hutil⟩
  · rintro ⟨hedge, hutil⟩
    refine ⟨⟨hsig, hedge, ?_⟩, hutil, ?_⟩
    · intro a ha b hb
      obtain ⟨p, -, rfl⟩ := List.mem_map.mp ha
      obtain ⟨q, -, rfl⟩ := List.mem_map.mp hb
      exact sigObservableId_ne_edge _ _ _
    · intro a ha b hb
      obtain ⟨q, -, rfl⟩ := List.mem_map.mp hb
      rcases List.mem_append.mp ha with ha | ha
      · obtain ⟨p, -, rfl⟩ := List.mem_map.mp ha
        exact sigObservableId_ne_util _ _ _
      · obtain ⟨p, -, rfl⟩ := List.mem_map.mp ha
        exact edgeObservableId_ne_util _ _ _ _

theorem map_filterMap_sublist {α β γ : Type*} {f : α → Option β} {φ : β → γ} {ψ : α → γ}
    (h : ∀ a b, f a = some b → φ b = ψ a) (l : List α) :
    ((l.filterMap f).map φ).Sublist (l.map ψ) := by
  induction l with
  | nil => exact List.Sublist.refl _
  | cons a l ih =>
    rw [List.filterMap_cons]
    cases hf : f a with
    | none => exact ih.cons _
    | some b =>
      rw [List.map_cons, List.map_cons, h a b hf]
      exact ih.cons_cons _

/-- The observables have ids of coordinates. -/
theorem buildObservables_ids (inp : StructuralInputs K) :
    ((buildObservables inp).map Observable.id).Sublist (observableIds inp) := by
  unfold buildObservables observableIds
  rw [List.map_append, List.map_append]
  refine ((map_filterMap_sublist ?_ _).append (map_filterMap_sublist ?_ _)).append
    (map_filterMap_sublist ?_ _)
  all_goals
    intro p o h
    obtain ⟨state, -, rfl⟩ := Option.map_eq_some_iff.mp h
    rfl

theorem mem_buildObservables {inp : StructuralInputs K} {o : Observable}
    (h : o ∈ buildObservables inp) :
    o.isUsable = true ∧ o.measurementConfidence = fullConfidence := by
  unfold buildObservables at h
  simp only [List.mem_append, List.mem_filterMap, Option.map_eq_some_iff] at h
  rcases h with (⟨p, -, state, -, rfl⟩ | ⟨p, -, state, -, rfl⟩) | ⟨p, -, state, -, rfl⟩
  all_goals exact ⟨rfl, rfl⟩

/-! Candidates. -/

theorem mem_anomalousServices {signals : Dict String (ServiceSignal K)} {service : String} :
    service ∈ anomalousServices signals ↔ stateAt signals service = some .present := by
  unfold anomalousServices stateAt
  simp only [List.mem_toFinset, List.mem_map, List.mem_filter, beq_iff_eq, Prod.exists,
    mem_sortedItems, Option.bind_eq_some_iff]
  constructor
  · rintro ⟨s, sig, ⟨hlookup, hstate⟩, rfl⟩
    exact ⟨sig, hlookup, hstate⟩
  · rintro ⟨sig, hlookup, hstate⟩
    exact ⟨service, sig, ⟨hlookup, hstate⟩, rfl⟩

theorem mem_callees {service callee : String} {edges : Finset (String × String)} :
    callee ∈ callees service edges ↔ (service, callee) ∈ edges := by
  unfold callees
  simp only [Finset.mem_image, Finset.mem_filter, Prod.exists]
  constructor
  · rintro ⟨caller, callee', ⟨hedge, rfl⟩, rfl⟩
    exact hedge
  · intro hedge
    exact ⟨service, callee, ⟨hedge, rfl⟩, rfl⟩

/-- What makes a service a candidate. -/
inductive Candidate (inp : StructuralInputs K) (service : String) : Prop
  | anomalous (h : stateAt inp.signals service = some .present)
  | unexplained (caller : String) (h : stateAt inp.signals caller = some .present)
      (hedge : (caller, service) ∈ inp.edges)
      (hno : ∀ callee, (caller, callee) ∈ inp.edges →
        stateAt inp.signals callee ≠ some .present)
  | edge (key : Pair) (e : EdgeSignal K) (hlookup : inp.edgeSignals.lookup key = some e)
      (h : e.sigState = some .present) (hcallee : e.callee = service)
  | resource (key : Pair) (u : UtilSignal K) (hlookup : inp.utilSignals.lookup key = some u)
      (h : u.sigState = some .present) (hservice : u.service = service)

theorem mem_candidateServices {inp : StructuralInputs K} {service : String} :
    service ∈ candidateServices inp ↔ Candidate inp service := by
  unfold candidateServices
  simp only [Finset.mem_union, Finset.mem_biUnion, Finset.mem_filter, mem_anomalousServices,
    mem_callees, List.mem_toFinset, List.mem_map, List.mem_filter, beq_iff_eq, Prod.exists,
    mem_sortedItems, Finset.disjoint_left]
  constructor
  · rintro (((h | ⟨caller, ⟨h, hno⟩, hedge⟩) | ⟨key, e, ⟨hlookup, h⟩, rfl⟩) |
      ⟨key, u, ⟨hlookup, h⟩, rfl⟩)
    · exact .anomalous h
    · exact .unexplained caller h hedge (fun callee hcallee => hno hcallee)
    · exact .edge key e hlookup h rfl
    · exact .resource key u hlookup h rfl
  · intro h
    cases h with
    | anomalous h => exact Or.inl (Or.inl (Or.inl h))
    | unexplained caller h hedge hno =>
      exact Or.inl (Or.inl (Or.inr ⟨caller, ⟨h, fun callee hcallee => hno callee hcallee⟩, hedge⟩))
    | edge key e hlookup h hcallee => exact Or.inl (Or.inr ⟨key, e, ⟨hlookup, h⟩, hcallee⟩)
    | resource key u hlookup h hservice => exact Or.inr ⟨key, u, ⟨hlookup, h⟩, hservice⟩

/-! Hypotheses. -/

/-- The ids that a candidate predicts. -/
def predictedIds (inp : StructuralInputs K) (service : String) : List String :=
  (expectations inp service).map ExpectedObservation.observableId

theorem mem_predictedIds {inp : StructuralInputs K} {service id : String} :
    id ∈ predictedIds inp service ↔ id = sigObservableId service ∨
      (∃ key e, inp.edgeSignals.lookup key = some e ∧ e.callee = service ∧ e.id = id) ∨
      ∃ key u, inp.utilSignals.lookup key = some u ∧ u.service = service ∧ u.id = id := by
  unfold predictedIds expectations
  simp only [List.map_cons, List.mem_cons, expectPresent, List.mem_map, expectedExtra, mem_sortOn,
    List.mem_append, List.mem_filter, beq_iff_eq, Prod.exists, mem_sortedItems]
  refine or_congr_right ?_
  constructor
  · rintro ⟨x, ⟨key, e, ⟨hlookup, hservice⟩, rfl⟩ | ⟨key, u, ⟨hlookup, hservice⟩, rfl⟩, rfl⟩
    · exact Or.inl ⟨key, e, hlookup, hservice, rfl⟩
    · exact Or.inr ⟨key, u, hlookup, hservice, rfl⟩
  · rintro (⟨key, e, hlookup, hservice, rfl⟩ | ⟨key, u, hlookup, hservice, rfl⟩)
    · exact ⟨_, Or.inl ⟨key, e, ⟨hlookup, hservice⟩, rfl⟩, rfl⟩
    · exact ⟨_, Or.inr ⟨key, u, ⟨hlookup, hservice⟩, rfl⟩, rfl⟩

/-- With distinct ids no candidate predicts an observable twice. -/
theorem predictedIds_nodup {inp : StructuralInputs K} (h : (observableIds inp).Nodup)
    (service : String) : (predictedIds inp service).Nodup := by
  unfold predictedIds expectations
  rw [List.map_cons, List.nodup_cons]
  refine ⟨?_, ?_⟩
  · intro hmem
    simp only [expectPresent, List.mem_map, expectedExtra, mem_sortOn, List.mem_append] at hmem
    obtain ⟨x, ⟨p, -, rfl⟩ | ⟨p, -, rfl⟩, hid⟩ := hmem
    · exact sigObservableId_ne_edge _ _ _ hid.symm
    · exact sigObservableId_ne_util _ _ _ hid.symm
  · unfold expectedExtra
    refine ((sortOn_perm _ _).map _).nodup_iff.mpr ?_
    rw [List.map_append, List.map_map, List.map_map]
    unfold observableIds at h
    rw [List.append_assoc] at h
    exact (List.nodup_append.mp h).2.1.sublist
      ((List.filter_sublist.map _).append (List.filter_sublist.map _))

theorem softModel_of_nodup {expected : List ExpectedObservation}
    (h : (expected.map ExpectedObservation.observableId).Nodup) :
    ∃ model, softModel expected = .ok model ∧ model.expected = expected ∧
      model.contradictions = [] :=
  ⟨_, dif_pos h, rfl, rfl⟩

theorem nodup_of_softModel {expected : List ExpectedObservation} {model : ObservationModel}
    (h : softModel expected = .ok model) :
    (expected.map ExpectedObservation.observableId).Nodup := by
  by_contra hno
  have herror : softModel expected = .error _ := dif_neg hno
  rw [herror] at h
  cases h

/-- A hypothesis that the model builds for a service. -/
structure BuiltFor {σ : Type} (inp : StructuralInputs K) (service : String) (h : Hypothesis σ) :
    Prop where
  localization : h.localization = service
  id : h.id = processId service
  predictions : h.predictions =
    dictOf ((expectations inp service).map (fun e => (e.observableId, e.expectedState)))
  contradictions : h.contradictions = []

variable {σ : Type}

/-- The hypothesis of one candidate. -/
def candidateHypothesis (inp : StructuralInputs K) (service : String) :
    Except ModelError (Hypothesis σ) := do
  let model ← softModel (expectations inp service)
  fromObservationModel service model

theorem candidateHypothesis_of {inp : StructuralInputs K} {service : String} (hloc : service ≠ "")
    (hnodup : (predictedIds inp service).Nodup) :
    ∃ h : Hypothesis σ, candidateHypothesis inp service = .ok h ∧ BuiltFor inp service h := by
  obtain ⟨model, hmodel, hexpected, hcontradictions⟩ := softModel_of_nodup hnodup
  have hbuilt : fromObservationModel (σ := σ) service model = .ok _ := dif_pos hloc
  refine ⟨_, bind_eq_ok.mpr ⟨model, hmodel, hbuilt⟩, rfl, rfl, ?_, hcontradictions⟩
  exact congrArg (fun l : List ExpectedObservation =>
    dictOf (l.map (fun e => (e.observableId, e.expectedState)))) hexpected

theorem candidateHypothesis_returns_iff {inp : StructuralInputs K} {service : String} :
    (∃ h : Hypothesis σ, candidateHypothesis inp service = .ok h) ↔
      service ≠ "" ∧ (predictedIds inp service).Nodup := by
  constructor
  · rintro ⟨h, hh⟩
    obtain ⟨model, hmodel, hh⟩ := bind_eq_ok.mp hh
    refine ⟨?_, nodup_of_softModel hmodel⟩
    intro hloc
    have herror : fromObservationModel (σ := σ) service model = .error _ :=
      dif_neg (fun hne => hne hloc)
    rw [herror] at hh
    cases hh
  · rintro ⟨hloc, hnodup⟩
    obtain ⟨h, hh, -⟩ := candidateHypothesis_of (σ := σ) hloc hnodup
    exact ⟨h, hh⟩

theorem candidateHypothesis_spec {inp : StructuralInputs K} {service : String} {h : Hypothesis σ}
    (hh : candidateHypothesis inp service = .ok h) : BuiltFor inp service h := by
  obtain ⟨hloc, hnodup⟩ := candidateHypothesis_returns_iff.mp ⟨h, hh⟩
  obtain ⟨h', hh', hbuilt⟩ := candidateHypothesis_of (σ := σ) hloc hnodup
  rwa [Except.ok.inj (hh.symm.trans hh')]

theorem buildHypotheses_eq (inp : StructuralInputs K) :
    buildHypotheses (σ := σ) inp =
      (inOrder (candidateServices inp)).mapM (candidateHypothesis inp) := rfl

/-- The hypotheses are built exactly if every candidate is named and predicts no
observable twice. -/
theorem buildHypotheses_returns_iff {inp : StructuralInputs K} :
    (∃ hs : List (Hypothesis σ), buildHypotheses inp = .ok hs) ↔
      ∀ service, Candidate inp service → service ≠ "" ∧ (predictedIds inp service).Nodup := by
  rw [buildHypotheses_eq]
  constructor
  · rintro ⟨hs, hhs⟩ service hcandidate
    have hmem : service ∈ inOrder (candidateServices inp) :=
      mem_inOrder.mpr (mem_candidateServices.mpr hcandidate)
    obtain ⟨h, -, hh⟩ := exists_source (mapM_eq_ok_iff.mp hhs).flip hmem
    exact candidateHypothesis_returns_iff.mp ⟨h, hh⟩
  · intro hall
    have hbuilt : ∀ service ∈ inOrder (candidateServices inp),
        ∃ h : Hypothesis σ, candidateHypothesis inp service = .ok h ∧ () = () := by
      intro service hmem
      have hcandidate := mem_candidateServices.mp (mem_inOrder.mp hmem)
      obtain ⟨h, hh⟩ := candidateHypothesis_returns_iff.mpr (hall service hcandidate)
      exact ⟨h, hh, rfl⟩
    obtain ⟨hs, hhs, -⟩ := mapM_exists hbuilt
    exact ⟨hs, hhs⟩

section Built

variable {inp : StructuralInputs K} {hs : List (Hypothesis σ)}

theorem buildHypotheses_spec (hhs : buildHypotheses inp = .ok hs) :
    List.Forall₂ (BuiltFor inp) (inOrder (candidateServices inp)) hs :=
  (mapM_eq_ok_iff.mp hhs).imp fun _ _ hh => candidateHypothesis_spec hh

/-- The localizations of the hypotheses are the candidates, in order. -/
theorem localizations_eq (hhs : buildHypotheses inp = .ok hs) :
    hs.map Hypothesis.localization = inOrder (candidateServices inp) := by
  have hspec := buildHypotheses_spec hhs
  clear hhs
  generalize inOrder (candidateServices inp) = services at hspec ⊢
  induction hspec with
  | nil => rfl
  | cons hbuilt _ ih => rw [List.map_cons, hbuilt.localization, ih]

theorem mem_localizations (hhs : buildHypotheses inp = .ok hs) {service : String} :
    service ∈ hs.map Hypothesis.localization ↔ Candidate inp service := by
  rw [localizations_eq hhs, mem_inOrder, mem_candidateServices]

theorem builtFor_of_mem (hhs : buildHypotheses inp = .ok hs) {h : Hypothesis σ} (hh : h ∈ hs) :
    BuiltFor inp h.localization h := by
  obtain ⟨service, -, hbuilt⟩ := exists_source (buildHypotheses_spec hhs) hh
  rw [hbuilt.localization]
  exact hbuilt

/-- Each hypothesis is the one of its candidate. -/
theorem oneDefinition_of_built (hhs : buildHypotheses inp = .ok hs) : OneDefinition hs := by
  have hnodup : (hs.map Hypothesis.localization).Nodup := by
    rw [localizations_eq hhs]
    exact inOrder_nodup _
  intro a ha b hb hid
  rw [(builtFor_of_mem hhs ha).id, (builtFor_of_mem hhs hb).id] at hid
  exact List.inj_on_of_nodup_map hnodup ha hb (processId_injective hid)

/-- With distinct ids the hypotheses and the observables are always resolved. -/
theorem resolveStructural_of_built [DecidableEq σ] (hhs : buildHypotheses inp = .ok hs)
    (hids : (observableIds inp).Nodup) :
    ∃ out, resolveStructural (σ := σ) inp = .ok out ∧ (out = none ↔ hs = []) ∧
      ∀ result part, out = some (result, part) →
        partition hs (buildObservables inp) defaultPolicy = .ok part ∧
          resolve part (buildObservables inp) = .ok result := by
  have hobservables := hids.sublist (buildObservables_ids inp)
  have heq : resolveStructural (σ := σ) inp =
      if hs = [] then .ok none
      else (do
        let part ← lift (partition hs (buildObservables inp) defaultPolicy)
        let result ← lift (resolve part (buildObservables inp))
        return some (result, part)) := by
    unfold resolveStructural
    rw [hhs]
    rfl
  rw [heq]
  by_cases hnil : hs = []
  · refine ⟨none, by rw [if_pos hnil], iff_of_true rfl hnil, ?_⟩
    intro result part h
    cases h
  · obtain ⟨part, hpart⟩ := (partition_ok_iff hs (buildObservables inp) defaultPolicy).mpr
      ⟨hnil, oneDefinition_of_built hhs, hobservables⟩
    obtain ⟨result, hresult, -⟩ := resolve_computes (partition_spec hpart) hobservables hobservables
    refine ⟨some (result, part), ?_, by simp [hnil], ?_⟩
    · rw [if_neg hnil]
      exact bind_eq_ok.mpr ⟨part, mapError_eq_ok.mpr hpart,
        bind_eq_ok.mpr ⟨result, mapError_eq_ok.mpr hresult, rfl⟩⟩
    · intro result' part' h
      obtain ⟨rfl, rfl⟩ := Prod.mk.inj (Option.some.inj h)
      exact ⟨hpart, hresult⟩

end Built

end Raglogs.StructuralLaws

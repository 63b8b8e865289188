import Raglogs.StructuralLaws

/-!
The evaluation's nested arms. An arm sees the signals of some families of observables and
not of the others. One more family adds observables and candidates and leaves what the
candidates predict of the families before as it was, so it can only separate further.
-/

namespace Raglogs.StructuralArms

open Collections Dicts Observables Hypotheses Partitioning PartitionLaws Outcomes OutcomeLaws
  SortedDicts StructuralSignals StructuralModel SignalLaws StructuralLaws

inductive Arm
  | m1
  | m2a
  | m2aM2b
deriving DecidableEq

/-- The order in which the arms are nested. -/
def Arm.rank : Arm → ℕ
  | .m1 => 0
  | .m2a => 1
  | .m2aM2b => 2

variable {K : Type}

/-- The inputs that an arm sees. The call graph stays in every arm. -/
def armInputs (inp : StructuralInputs K) : Arm → StructuralInputs K
  | .m1 => { inp with edgeSignals := ∅, utilSignals := ∅ }
  | .m2a => { inp with utilSignals := ∅ }
  | .m2aM2b => inp

/-- The services of the inputs have names. -/
structure Named (inp : StructuralInputs K) : Prop where
  signals : ∀ service, service ∈ inp.signals → service ≠ ""
  edges : ∀ edge ∈ inp.edges, edge.1 ≠ "" ∧ edge.2 ≠ ""
  edgeSignals : ∀ key e, inp.edgeSignals.lookup key = some e → e.caller ≠ "" ∧ e.callee ≠ ""
  utilSignals : ∀ key u, inp.utilSignals.lookup key = some u → u.service ≠ ""

/-! Inputs with more families. -/

/-- The second inputs have everything that the first have, and the same signals and calls. -/
structure Extends (inp inp' : StructuralInputs K) : Prop where
  signals : inp'.signals = inp.signals
  edges : inp'.edges = inp.edges
  edgeSignals : ∀ key e, inp.edgeSignals.lookup key = some e → inp'.edgeSignals.lookup key = some e
  utilSignals : ∀ key u, inp.utilSignals.lookup key = some u → inp'.utilSignals.lookup key = some u

theorem armInputs_extends (inp : StructuralInputs K) {arm arm' : Arm} (h : arm.rank ≤ arm'.rank) :
    Extends (armInputs inp arm) (armInputs inp arm') := by
  cases arm <;> cases arm'
  case m2a.m1 => exact absurd h (by decide)
  case m2aM2b.m1 => exact absurd h (by decide)
  case m2aM2b.m2a => exact absurd h (by decide)
  all_goals
    refine ⟨rfl, rfl, ?_, ?_⟩
    all_goals
      intro key x hlookup
      first
        | exact hlookup
        | simp [armInputs] at hlookup

theorem armInputs_extends_full (inp : StructuralInputs K) (arm : Arm) :
    Extends (armInputs inp arm) inp :=
  show Extends (armInputs inp arm) (armInputs inp .m2aM2b) from
    armInputs_extends inp (by cases arm <;> decide)

section Extending

variable {inp inp' : StructuralInputs K}

theorem Extends.candidate (h : Extends inp inp') {service : String} (hc : Candidate inp service) :
    Candidate inp' service := by
  cases hc with
  | anomalous hpresent => exact .anomalous (by rwa [h.signals])
  | unexplained caller hpresent hedge hno =>
    refine .unexplained caller (by rwa [h.signals]) (by rwa [h.edges]) ?_
    rw [h.edges, h.signals]
    exact hno
  | edge key e hlookup hpresent hcallee =>
    exact .edge key e (h.edgeSignals key e hlookup) hpresent hcallee
  | resource key u hlookup hpresent hservice =>
    exact .resource key u (h.utilSignals key u hlookup) hpresent hservice

theorem Extends.named (h : Extends inp inp') (hnamed : Named inp') : Named inp where
  signals service hs := hnamed.signals service (by rwa [h.signals])
  edges edge hedge := hnamed.edges edge (by rwa [h.edges])
  edgeSignals key e hlookup := hnamed.edgeSignals key e (h.edgeSignals key e hlookup)
  utilSignals key u hlookup := hnamed.utilSignals key u (h.utilSignals key u hlookup)

theorem mem_observableIds {id : String} :
    id ∈ observableIds inp ↔ (∃ service, service ∈ inp.signals ∧ sigObservableId service = id) ∨
      (∃ key e, inp.edgeSignals.lookup key = some e ∧ e.id = id) ∨
      ∃ key u, inp.utilSignals.lookup key = some u ∧ u.id = id := by
  unfold observableIds
  simp only [List.mem_append, List.mem_map, Prod.exists, mem_sortedItems, or_assoc]
  refine or_congr_left ?_
  constructor
  · rintro ⟨service, sig, hlookup, rfl⟩
    exact ⟨service, Finmap.mem_of_lookup_eq_some hlookup, rfl⟩
  · rintro ⟨service, hmem, rfl⟩
    obtain ⟨sig, hlookup⟩ := Finmap.mem_iff.mp hmem
    exact ⟨service, sig, hlookup, rfl⟩

/-- An id of the first inputs that the second predict, the first predict too: ids are
distinct, so it is not the id of anything that was added. -/
theorem Extends.predicted_iff (h : Extends inp inp') (hids : (observableIds inp').Nodup)
    {id : String} (hid : id ∈ observableIds inp) (service : String) :
    id ∈ predictedIds inp' service ↔ id ∈ predictedIds inp service := by
  obtain ⟨hedgeIds, hutilIds⟩ := observableIds_nodup_iff.mp hids
  rw [mem_predictedIds, mem_predictedIds]
  constructor
  · rintro (hsig | ⟨key, e, hlookup, hservice, rfl⟩ | ⟨key, u, hlookup, hservice, rfl⟩)
    · exact Or.inl hsig
    · rcases mem_observableIds.mp hid with ⟨s, -, hs⟩ | ⟨key', e', hlookup', hs⟩ | ⟨key', u', -, hs⟩
      · exact absurd hs (sigObservableId_ne_edge _ _ _)
      · have hsame : (key', e') = (key, e) := List.inj_on_of_nodup_map hedgeIds
          (mem_sortedItems.mpr (h.edgeSignals key' e' hlookup')) (mem_sortedItems.mpr hlookup) hs
        obtain ⟨rfl, rfl⟩ := Prod.mk.inj hsame
        exact Or.inr (Or.inl ⟨key', e', hlookup', hservice, rfl⟩)
      · exact absurd hs.symm (edgeObservableId_ne_util _ _ _ _)
    · rcases mem_observableIds.mp hid with ⟨s, -, hs⟩ | ⟨key', e', -, hs⟩ | ⟨key', u', hlookup', hs⟩
      · exact absurd hs (sigObservableId_ne_util _ _ _)
      · exact absurd hs (edgeObservableId_ne_util _ _ _ _)
      · have hsame : (key', u') = (key, u) := List.inj_on_of_nodup_map hutilIds
          (mem_sortedItems.mpr (h.utilSignals key' u' hlookup')) (mem_sortedItems.mpr hlookup) hs
        obtain ⟨rfl, rfl⟩ := Prod.mk.inj hsame
        exact Or.inr (Or.inr ⟨key', u', hlookup', hservice, rfl⟩)
  · rintro (hsig | ⟨key, e, hlookup, hservice, rfl⟩ | ⟨key, u, hlookup, hservice, rfl⟩)
    · exact Or.inl hsig
    · exact Or.inr (Or.inl ⟨key, e, h.edgeSignals key e hlookup, hservice, rfl⟩)
    · exact Or.inr (Or.inr ⟨key, u, h.utilSignals key u hlookup, hservice, rfl⟩)

theorem Extends.observables (h : Extends inp inp') {o : Observable}
    (ho : o ∈ buildObservables inp) : o ∈ buildObservables inp' := by
  unfold buildObservables at ho ⊢
  simp only [List.mem_append, List.mem_filterMap, Prod.exists, mem_sortedItems] at ho ⊢
  rcases ho with (⟨service, sig, hlookup, ho⟩ | ⟨key, e, hlookup, ho⟩) | ⟨key, u, hlookup, ho⟩
  · exact Or.inl (Or.inl ⟨service, sig, by rwa [h.signals], ho⟩)
  · exact Or.inl (Or.inr ⟨key, e, h.edgeSignals key e hlookup, ho⟩)
  · exact Or.inr ⟨key, u, h.utilSignals key u hlookup, ho⟩

/-- A candidate is a service of the inputs. -/
theorem Named.candidate (hnamed : Named inp) {service : String} (hc : Candidate inp service) :
    service ≠ "" := by
  cases hc with
  | anomalous hpresent =>
    obtain ⟨sig, hlookup, -⟩ := Option.bind_eq_some_iff.mp hpresent
    exact hnamed.signals service (Finmap.mem_of_lookup_eq_some hlookup)
  | unexplained caller _ hedge _ => exact (hnamed.edges _ hedge).2
  | edge key e hlookup _ hcallee => exact hcallee ▸ (hnamed.edgeSignals key e hlookup).2
  | resource key u hlookup _ hservice => exact hservice ▸ hnamed.utilSignals key u hlookup

end Extending

theorem armInputs_ids {inp : StructuralInputs K} (hids : (observableIds inp).Nodup) (arm : Arm) :
    (observableIds (armInputs inp arm)).Nodup := by
  rw [observableIds_nodup_iff] at hids ⊢
  cases arm with
  | m1 => simp [armInputs, sortedItems_empty]
  | m2a => simpa [armInputs, sortedItems_empty] using hids.1
  | m2aM2b => exact hids

/-! One run. -/

section Run

variable {σ : Type} [DecidableEq σ]

/-- The services that a result localizes in; none without a candidate. -/
def localizationOf (out : Option (StructuralResult × Partition σ)) : List String :=
  match out with
  | some (result, _) => result.localization
  | none => []

/-- Two candidates are in different classes. -/
def Separated (out : Option (StructuralResult × Partition σ)) (s t : String) : Prop :=
  ∃ result part, out = some (result, part) ∧ ∃ a ∈ part.survivors, ∃ b ∈ part.survivors,
    a.localization = s ∧ b.localization = t ∧ ¬SameClass part a b

/-- Nothing is eliminated, and there is a compatible hypothesis. -/
def KeepsAll (out : Option (StructuralResult × Partition σ)) : Prop :=
  ∀ result part, out = some (result, part) → part.eliminated = [] ∧ result.eliminated = [] ∧
    result.outcome ≠ .noCompatibleHypothesis

variable {inp : StructuralInputs K} {hs : List (Hypothesis σ)}

omit [DecidableEq σ] in
theorem not_contradicted (hhs : buildHypotheses inp = .ok hs) {a : Hypothesis σ} (ha : a ∈ hs)
    (observations : List Observable) : ¬a.Contradicted observations := by
  rintro ⟨o, -, c, hc, -⟩
  rw [(builtFor_of_mem hhs ha).contradictions] at hc
  cases hc

omit [DecidableEq σ] in
/-- A candidate predicts presence of what it predicts. -/
theorem lookup_predictions {service : String} {h : Hypothesis σ} (hbuilt : BuiltFor inp service h)
    (hnodup : (predictedIds inp service).Nodup) (id state : String) :
    h.predictions.lookup id = some state ↔
      id ∈ predictedIds inp service ∧ state = SigState.present.value := by
  have hstate : ∀ e ∈ expectations inp service, e.expectedState = SigState.present.value := by
    intro e he
    rcases List.mem_cons.mp he with rfl | he
    · rfl
    · unfold expectedExtra at he
      rw [mem_sortOn, List.mem_append, List.mem_map, List.mem_map] at he
      rcases he with ⟨p, -, rfl⟩ | ⟨p, -, rfl⟩
      · rfl
      · rfl
  have hkeys : ((expectations inp service).map
      (fun e => (e.observableId, e.expectedState))).map Prod.fst = predictedIds inp service := by
    rw [List.map_map]
    rfl
  rw [hbuilt.predictions, lookup_dictOf (hkeys ▸ hnodup), List.mem_map, predictedIds, List.mem_map]
  constructor
  · rintro ⟨e, he, heq⟩
    obtain ⟨rfl, rfl⟩ := Prod.mk.inj heq
    exact ⟨⟨e, he, rfl⟩, hstate e he⟩
  · rintro ⟨⟨e, he, rfl⟩, rfl⟩
    exact ⟨e, he, by rw [hstate e he]⟩

omit [DecidableEq σ] in
theorem lookup_eq_iff {s t : String} {a b : Hypothesis σ} (ha : BuiltFor inp s a)
    (hb : BuiltFor inp t b) (hids : (observableIds inp).Nodup) {id : String} :
    a.predictions.lookup id = b.predictions.lookup id ↔
      (id ∈ predictedIds inp s ↔ id ∈ predictedIds inp t) := by
  have hsome : ∀ {service : String} {h : Hypothesis σ}, BuiltFor inp service h →
      (h.predictions.lookup id = some SigState.present.value ↔ id ∈ predictedIds inp service) ∧
        (h.predictions.lookup id = none ↔ id ∉ predictedIds inp service) := by
    intro service h hbuilt
    have hlookup := lookup_predictions hbuilt (predictedIds_nodup hids service) id
    refine ⟨by simp [hlookup], ?_⟩
    rw [Option.eq_none_iff_forall_ne_some]
    simp [hlookup]
  obtain ⟨hapos, haneg⟩ := hsome ha
  obtain ⟨hbpos, hbneg⟩ := hsome hb
  by_cases hs : id ∈ predictedIds inp s
  · by_cases ht : id ∈ predictedIds inp t
    · simp [hs, ht, hapos.mpr hs, hbpos.mpr ht]
    · simp [hs, ht, hapos.mpr hs, hbneg.mpr ht]
  · by_cases ht : id ∈ predictedIds inp t
    · simp [hs, ht, haneg.mpr hs, hbpos.mpr ht]
    · simp [hs, ht, haneg.mpr hs, hbneg.mpr ht]

theorem mem_usable {o : Observable} :
    o ∈ usableSet (buildObservables inp) defaultPolicy ↔ o ∈ buildObservables inp := by
  rw [mem_usableSet]
  refine and_iff_left_of_imp fun ho => ?_
  obtain ⟨husable, hconfidence⟩ := mem_buildObservables ho
  refine ⟨husable, ?_⟩
  rw [hconfidence]
  exact (defaultPolicy.threshold o.id).2.2

/-- A run over named services with distinct ids returns, loses no candidate, and separates
two of them exactly by an observable that one of them predicts. -/
theorem run_spec (σ : Type) [DecidableEq σ] {inp : StructuralInputs K} (hnamed : Named inp)
    (hids : (observableIds inp).Nodup) :
    ∃ out, resolveStructural (σ := σ) inp = .ok out ∧ KeepsAll out ∧
      (∀ s, s ∈ localizationOf out ↔ Candidate inp s) ∧
      ∀ s t, Separated out s t ↔ Candidate inp s ∧ Candidate inp t ∧
        ∃ o ∈ buildObservables inp, ¬(o.id ∈ predictedIds inp s ↔ o.id ∈ predictedIds inp t) := by
  obtain ⟨hs, hhs⟩ := buildHypotheses_returns_iff (σ := σ).mpr
    (fun service hc => ⟨hnamed.candidate hc, predictedIds_nodup hids service⟩)
  obtain ⟨out, hout, hnone, hsome⟩ := resolveStructural_of_built hhs hids
  refine ⟨out, hout, ?_⟩
  cases out with
  | none =>
    have hno : ∀ s, ¬Candidate inp s := by
      intro s hc
      have hmem := (mem_localizations hhs).mpr hc
      rw [hnone.mp rfl] at hmem
      cases hmem
    refine ⟨?_, ?_, ?_⟩
    · intro result part h
      cases h
    · intro s
      exact iff_of_false List.not_mem_nil (hno s)
    · intro s t
      refine iff_of_false ?_ (fun h => hno s h.1)
      rintro ⟨result, part, h, -⟩
      cases h
  | some p =>
    obtain ⟨result, part⟩ := p
    obtain ⟨hpart, hresult⟩ := hsome result part rfl
    have hP := partition_spec hpart
    have hsurvivors : ∀ a, a ∈ part.survivors ↔ a ∈ hs := by
      intro a
      rw [hP.mem_survivors]
      exact and_iff_left_of_imp fun ha => not_contradicted hhs ha _
    have helim : part.eliminated = [] := by
      rw [List.eq_nil_iff_forall_not_mem]
      intro a ha
      obtain ⟨hmem, hcontra⟩ := (hP.mem_eliminated a).mp ha
      exact not_contradicted hhs hmem _ hcontra
    obtain ⟨houtcome, -, heliminated, -⟩ := resolve_spec hresult
    refine ⟨?_, ?_, ?_⟩
    · intro result' part' h
      obtain ⟨rfl, rfl⟩ := Prod.mk.inj (Option.some.inj h)
      refine ⟨helim, by rw [heliminated, helim, List.map_nil], ?_⟩
      rw [houtcome]
      exact classify_ne_none (part.nonempty.resolve_right (not_not.mpr helim))
    · intro s
      have hlocal : s ∈ localizationOf (some (result, part)) ↔
          ∃ a ∈ part.survivors, a.localization = s := mem_localization hresult
      rw [hlocal, ← mem_localizations hhs, List.mem_map]
      simp only [hsurvivors]
    · intro s t
      have hclass : ∀ a ∈ hs, ∀ b ∈ hs, (¬SameClass part a b ↔
          ∃ o ∈ buildObservables inp, ¬(o.id ∈ predictedIds inp a.localization ↔
            o.id ∈ predictedIds inp b.localization)) := by
        intro a ha b hb
        rw [hP.sameClass_iff ((hsurvivors a).mpr ha) ((hsurvivors b).mpr hb)]
        simp only [mem_usable, lookup_eq_iff (builtFor_of_mem hhs ha) (builtFor_of_mem hhs hb) hids]
        push Not
        rfl
      constructor
      · rintro ⟨result', part', h, a, ha, b, hb, rfl, rfl, hdiffer⟩
        obtain ⟨rfl, rfl⟩ := Prod.mk.inj (Option.some.inj h)
        rw [hsurvivors] at ha hb
        exact ⟨(mem_localizations hhs).mp (List.mem_map_of_mem ha),
          (mem_localizations hhs).mp (List.mem_map_of_mem hb), (hclass a ha b hb).mp hdiffer⟩
      · rintro ⟨hcs, hct, hdiffer⟩
        obtain ⟨a, ha, rfl⟩ := List.mem_map.mp ((mem_localizations hhs).mpr hcs)
        obtain ⟨b, hb, rfl⟩ := List.mem_map.mp ((mem_localizations hhs).mpr hct)
        exact ⟨result, part, rfl, a, (hsurvivors a).mpr ha, b, (hsurvivors b).mpr hb, rfl, rfl,
          (hclass a ha b hb).mpr hdiffer⟩

end Run

/-- Over the nested arms no cause is lost: nothing is eliminated, the localization grows,
and candidates once separated stay separated. -/
theorem arms_nested (σ : Type) [DecidableEq σ] (inp : StructuralInputs K) (hnamed : Named inp)
    (hids : (observableIds inp).Nodup) :
    ∃ run : Arm → Option (StructuralResult × Partition σ),
      (∀ arm, resolveStructural (armInputs inp arm) = .ok (run arm) ∧ KeepsAll (run arm)) ∧
      ∀ arm arm', arm.rank ≤ arm'.rank →
        (∀ s ∈ localizationOf (run arm), s ∈ localizationOf (run arm')) ∧
        ∀ s t, Separated (run arm) s t → Separated (run arm') s t := by
  have hrun := fun arm => run_spec σ ((armInputs_extends_full inp arm).named hnamed)
    (armInputs_ids hids arm)
  choose run hout hkeeps hlocal hseparated using hrun
  refine ⟨run, fun arm => ⟨hout arm, hkeeps arm⟩, ?_⟩
  intro arm arm' hle
  have hext := armInputs_extends inp hle
  refine ⟨?_, ?_⟩
  · intro s hs
    exact (hlocal arm' s).mpr (hext.candidate ((hlocal arm s).mp hs))
  · intro s t h
    obtain ⟨hcs, hct, o, ho, hdiffer⟩ := (hseparated arm s t).mp h
    refine (hseparated arm' s t).mpr ⟨hext.candidate hcs, hext.candidate hct, o,
      hext.observables ho, ?_⟩
    have hid : o.id ∈ observableIds (armInputs inp arm) :=
      (buildObservables_ids _).subset (List.mem_map_of_mem ho)
    rwa [hext.predicted_iff (armInputs_ids hids arm') hid,
      hext.predicted_iff (armInputs_ids hids arm') hid]

/-! Three services, one for each family. -/

def presentCart : ServiceSignal ℚ := ⟨⟨1, 1, true, false, some .present⟩, "cart"⟩

def slowCall : EdgeSignal ℚ := ⟨⟨0, 3, false, true, some .present⟩, "cart", "stock"⟩

def busyCpu : UtilSignal ℚ := ⟨"ads", "cpu", 3, true, some .present⟩

def threeFamilies : StructuralInputs ℚ where
  signals := dictOf [("cart", presentCart)]
  edges := {("cart", "stock")}
  edgeSignals := dictOf [(toLex ("cart", "stock"), slowCall)]
  utilSignals := dictOf [(toLex ("ads", "cpu"), busyCpu)]

/-- The cause that only its resource shows is in the last arm. -/
theorem arms_nested_threeFamilies :
    ∃ run : Arm → Option (StructuralResult × Partition ℕ),
      (∀ arm, resolveStructural (armInputs threeFamilies arm) = .ok (run arm)) ∧
      ∀ s ∈ localizationOf (run .m1), s ∈ localizationOf (run .m2aM2b) := by
  have hlookup : ∀ {κ ν : Type} [DecidableEq κ] {k k' : κ} {v v' : ν},
      (dictOf [(k, v)]).lookup k' = some v' → k' = k ∧ v' = v := by
    intro κ ν _ k k' v v' h
    simpa using (lookup_dictOf (by simp) k' v').mp h
  have hnamed : Named threeFamilies := by
    refine ⟨?_, ?_, ?_, ?_⟩
    · intro service hs
      obtain ⟨sig, hsig⟩ := Finmap.mem_iff.mp hs
      rw [(hlookup hsig).1]
      decide
    · intro edge hedge
      rw [Finset.mem_singleton.mp hedge]
      decide
    · intro key e he
      rw [(hlookup he).2]
      decide
    · intro key u hu
      rw [(hlookup hu).2]
      decide
  obtain ⟨run, hrun, hnested⟩ := arms_nested ℕ threeFamilies hnamed (by decide +kernel)
  exact ⟨run, fun arm => (hrun arm).1, (hnested .m1 .m2aM2b (by decide)).1⟩

end Raglogs.StructuralArms

import Raglogs.Clustering

/-!
Overrides of a query's settings. A value of the request goes before a default of the key, and
that before the default of the server; only then is the value checked, so a stored default
that is malformed or out of bounds is not ignored but refused under the name of a field that
the request did not set.
-/

namespace Raglogs.QueryOverrides

open Clustering Collections Durations LogEntries Text

structure OverrideValidationError where
  message : String
  field : String
  minValue : Option ℤ
  maxValue : Option ℤ

/-- What a resolution raises. -/
inductive Raised
  | invalid (e : OverrideValidationError)
  | overflow

/-- Values of the request; a missing one falls through. -/
structure OverrideInput where
  baselineWindow : Option String
  maxClusters : Option ℤ
  maxEvidenceItems : Option ℤ
  llmProvider : Option String
  llmEnabled : Option Bool
  noLlm : Option Bool

structure KeyOverrideDefaults where
  baselineWindow : Option String
  maxClusters : Option ℤ
  maxEvidenceItems : Option ℤ
  llmProvider : Option String
  llmEnabled : Option Bool

def KeyOverrideDefaults.none : KeyOverrideDefaults := ⟨.none, .none, .none, .none, .none⟩

structure ResolvedOverrides where
  baselineWindow : String
  maxClusters : ℤ
  maxEvidenceItems : ℤ
  llmProvider : String
  llmEnabled : Bool

structure Settings where
  defaultBaselineWindow : String
  maxClustersForExplain : ℤ
  maxEvidenceItems : ℤ
  llmProvider : String

def llmProviders : List String := ["claude", "disabled", "ollama", "openai"]

/-- The first value that is given. -/
def coalesce {α : Type} (request key : Option α) (server : α) : α := (request.or key).getD server

section Checks

variable (lowering : Lowering) (repr : String → String)

def normalizeProvider (value field : String) : Except Raised String :=
  let normalized := lowering.lower (strip value)
  if normalized ∈ llmProviders then .ok normalized
  else .error (.invalid ⟨"Unknown llm.provider " ++ repr value ++ ". Allowed: " ++
    String.intercalate ", " llmProviders, field, none, none⟩)

def parseIntBound (value : Json) (field : String) (minimum maximum : ℤ) : Except Raised ℤ :=
  match value with
  | .int n =>
      if n < minimum ∨ maximum < n then
        .error (.invalid ⟨field ++ " must be between " ++ toString minimum ++ " and " ++
          toString maximum, field, some minimum, some maximum⟩)
      else .ok n
  | _ => .error (.invalid ⟨field ++ " must be an integer between " ++ toString minimum ++
      " and " ++ toString maximum, field, some minimum, some maximum⟩)

/-- A duration too large for the calendar raises something else than a bad text. -/
def parseBaselineWindow (value field : String) : Except Raised String :=
  let stripped := strip value
  if stripped = "" then
    .error (.invalid ⟨"baseline_window must be a duration like 24h or 7d", field, none, none⟩)
  else
    match parseDuration lowering stripped with
    | .ok _ => .ok stripped
    | .error (.tooLong _) => .error .overflow
    | .error e => .error (.invalid ⟨e.message lowering, field, none, none⟩)

end Checks

def enabledFromLayer (llmEnabled : Option Bool) (llmProvider : Option String)
    (noLlm : Option Bool) : Option Bool :=
  match llmEnabled with
  | some enabled => some enabled
  | none =>
      match llmProvider with
      | some provider => some (provider != "disabled")
      | none => noLlm.map (!·)

def textField (fields : List (String × Json)) (key : String) : Option String :=
  match fields.lookup key with
  | some (.str s) => some s
  | _ => none

def intField (fields : List (String × Json)) (key : String) : Option ℤ :=
  match fields.lookup key with
  | some (.int n) => some n
  | _ => none

def boolField (fields : List (String × Json)) (key : String) : Option Bool :=
  match fields.lookup key with
  | some (.bool b) => some b
  | _ => none

def objectField (fields : List (String × Json)) (key : String) : List (String × Json) :=
  match fields.lookup key with
  | some (.obj inner) => inner
  | _ => []

/-- The defaults of a key; a value of another type is ignored. -/
def parseKeyConfig (raw : Json) : KeyOverrideDefaults :=
  match raw with
  | .obj fields =>
      { baselineWindow := textField fields "baseline_window"
        maxClusters := intField fields "max_clusters"
        maxEvidenceItems := intField fields "max_evidence_items"
        llmProvider := textField (objectField fields "llm") "provider"
        llmEnabled := boolField (objectField fields "llm") "enabled" }
  | _ => .none

/-- The key's defaults, when there is a key to ask. -/
def keyDefaults (principal : Option Json) (authEnabled : Bool) : KeyOverrideDefaults :=
  match principal with
  | some configJson => if authEnabled then parseKeyConfig configJson else .none
  | none => .none

/-- Resolve the values of a query: request, then key, then server. -/
def resolveQueryOverrides (lowering : Lowering) (repr : String → String) (request : OverrideInput)
    (principal : Option Json) (s : Settings) (authEnabled : Bool) :
    Except Raised ResolvedOverrides := do
  let key := keyDefaults principal authEnabled
  let baselineWindow ← parseBaselineWindow lowering
    (coalesce request.baselineWindow key.baselineWindow s.defaultBaselineWindow) "baseline_window"
  let maxClusters ← parseIntBound
    (.int (coalesce request.maxClusters key.maxClusters s.maxClustersForExplain))
    "max_clusters" 1 100
  let maxEvidenceItems ← parseIntBound
    (.int (coalesce request.maxEvidenceItems key.maxEvidenceItems s.maxEvidenceItems))
    "max_evidence_items" 1 50
  let llmProvider ← normalizeProvider lowering repr
    (coalesce request.llmProvider key.llmProvider s.llmProvider) "llm.provider"
  let requestEnabled := enabledFromLayer request.llmEnabled request.llmProvider request.noLlm
  let keyEnabled := enabledFromLayer key.llmEnabled key.llmProvider none
  let enabledFlag := coalesce requestEnabled keyEnabled (s.llmProvider != "disabled")
  return ⟨baselineWindow, maxClusters, maxEvidenceItems, llmProvider,
    enabledFlag && llmProvider != "disabled"⟩

/-! What is asked of a resolution. -/

section Meaning

variable (lowering : Lowering)

/-- A duration that parses. -/
def validBaseline (value : String) : Bool :=
  strip value != "" && (parseDuration lowering (strip value)).toOption.isSome

/-- A duration that is too large to be one. -/
def tooLarge (value : String) : Prop :=
  strip value ≠ "" ∧ ∃ message, parseDuration lowering (strip value) = .error (.tooLong message)

def withinBounds (minimum maximum n : ℤ) : Bool := minimum ≤ n && n ≤ maximum

def validProvider (value : String) : Bool := llmProviders.contains (lowering.lower (strip value))

/-- The value of the request if it is given, else a valid one of the key, else the server's. -/
def layered {α : Type} (valid : α → Bool) (request key : Option α) (server : α) : α :=
  request.getD ((key.filter valid).getD server)

/-- The request gives a field, and gives it an invalid value. -/
def GivenInvalid {α : Type} (valid : α → Bool) (request : Option α) : Prop :=
  ∃ v, request = some v ∧ valid v = false

/-- The request itself is to blame for an error that names this field. -/
def BlamesRequest (request : OverrideInput) (field : String) : Prop :=
  (field = "baseline_window" ∧ GivenInvalid (validBaseline lowering) request.baselineWindow) ∨
    (field = "max_clusters" ∧ GivenInvalid (withinBounds 1 100) request.maxClusters) ∨
    (field = "max_evidence_items" ∧ GivenInvalid (withinBounds 1 50) request.maxEvidenceItems) ∨
    (field = "llm.provider" ∧ GivenInvalid (validProvider lowering) request.llmProvider)

/-- Resolved values within bounds, each of its layer, with a baseline that can be computed. -/
structure Fair (request : OverrideInput) (key : KeyOverrideDefaults) (s : Settings)
    (windowStart windowEnd : Timestamp) (r : ResolvedOverrides) : Prop where
  clusters_bounds : withinBounds 1 100 r.maxClusters = true
  evidence_bounds : withinBounds 1 50 r.maxEvidenceItems = true
  provider_known : r.llmProvider ∈ llmProviders
  baseline_parses : ∃ duration, parseDuration lowering r.baselineWindow = .ok duration
  baseline : r.baselineWindow = strip (layered (validBaseline lowering) request.baselineWindow
    key.baselineWindow s.defaultBaselineWindow)
  clusters : r.maxClusters = layered (withinBounds 1 100) request.maxClusters key.maxClusters
    s.maxClustersForExplain
  evidence : r.maxEvidenceItems = layered (withinBounds 1 50) request.maxEvidenceItems
    key.maxEvidenceItems s.maxEvidenceItems
  provider : r.llmProvider = lowering.lower (strip (layered (validProvider lowering)
    request.llmProvider key.llmProvider s.llmProvider))
  enabled : r.llmEnabled = ((coalesce
    (enabledFromLayer request.llmEnabled request.llmProvider request.noLlm)
    (enabledFromLayer key.llmEnabled (key.llmProvider.filter (validProvider lowering)) none)
    (s.llmProvider != "disabled")) && r.llmProvider != "disabled")
  usable : ∃ baseline, resolveBaselineWindow lowering windowStart windowEnd r.baselineWindow =
    .ok baseline

/-- Fair values, or an error that the request is to blame for. -/
def Acceptable (request : OverrideInput) (key : KeyOverrideDefaults) (s : Settings)
    (windowStart windowEnd : Timestamp) : Except Raised ResolvedOverrides → Prop
  | .ok r => Fair lowering request key s windowStart windowEnd r
  | .error (.invalid e) => BlamesRequest lowering request e.field
  | .error .overflow => False

end Meaning

/-! Each check accepts the valid values, and names its field in the error of the others. -/

/-- What a check does with a value: valid ones pass, too large ones overflow. -/
structure Checks {α β : Type} (check : α → Except Raised β) (field : String) (valid : α → Bool)
    (large : α → Prop) (value : α → β) : Prop where
  accepts : ∀ a, valid a = true → check a = .ok (value a)
  overflows : ∀ a, large a → check a = .error .overflow
  refuses : ∀ a, valid a = false → ¬large a →
    ∃ e : OverrideValidationError, check a = .error (.invalid e) ∧ e.field = field

section Stages

variable {lowering : Lowering}

theorem parseIntBound_checks (field : String) (minimum maximum : ℤ) :
    Checks (fun n => parseIntBound (.int n) field minimum maximum) field
      (withinBounds minimum maximum) (fun _ => False) id where
  accepts n h := by
    simp only [withinBounds, Bool.and_eq_true, decide_eq_true_eq] at h
    simp only [parseIntBound, id_eq]
    rw [if_neg (by omega)]
  overflows n h := h.elim
  refuses n h _ := by
    have h : ¬(minimum ≤ n ∧ n ≤ maximum) := by
      simpa only [withinBounds, ← Bool.decide_and, decide_eq_false_iff_not] using h
    simp only [parseIntBound]
    rw [if_pos (by omega)]
    exact ⟨_, rfl, rfl⟩

theorem normalizeProvider_checks (repr : String → String) (field : String) :
    Checks (fun v => normalizeProvider lowering repr v field) field (validProvider lowering)
      (fun _ => False) (fun v => lowering.lower (strip v)) where
  accepts v h := by
    simp only [validProvider, List.contains_iff_mem] at h
    simp only [normalizeProvider, if_pos h]
  overflows v h := h.elim
  refuses v h _ := by
    have h : lowering.lower (strip v) ∉ llmProviders := by
      simpa only [validProvider, List.contains_eq_mem, decide_eq_false_iff_not] using h
    simp only [normalizeProvider, if_neg h]
    exact ⟨_, rfl, rfl⟩

theorem parseBaselineWindow_checks (field : String) :
    Checks (fun v => parseBaselineWindow lowering v field) field (validBaseline lowering)
      (tooLarge lowering) strip where
  accepts v h := by
    simp only [validBaseline, Bool.and_eq_true, bne_iff_ne, ne_eq] at h
    obtain ⟨hne, hok⟩ := h
    simp only [parseBaselineWindow, if_neg hne]
    cases hp : parseDuration lowering (strip v) with
    | ok d => rfl
    | error e => rw [hp] at hok; cases hok
  overflows v h := by
    obtain ⟨hne, message, hlarge⟩ := h
    simp only [parseBaselineWindow, if_neg hne, hlarge]
  refuses v h hl := by
    simp only [parseBaselineWindow]
    by_cases hne : strip v = ""
    · rw [if_pos hne]
      exact ⟨_, rfl, rfl⟩
    · rw [if_neg hne]
      cases hp : parseDuration lowering (strip v) with
      | ok d => simp [validBaseline, hne, hp, Except.toOption] at h
      | error e =>
          cases e with
          | tooLong message => exact absurd ⟨hne, message, hp⟩ hl
          | unparsable s => exact ⟨_, rfl, rfl⟩
          | outOfRange => exact ⟨_, rfl, rfl⟩
          | malformed => exact ⟨_, rfl, rfl⟩
          | noBounds => exact ⟨_, rfl, rfl⟩

variable {request : OverrideInput} {key : KeyOverrideDefaults} {s : Settings}
  {windowStart windowEnd : Timestamp}

@[simp] theorem coalesce_some {α : Type} (v : α) (key : Option α) (server : α) :
    coalesce (some v) key server = v := rfl

/-- One check of a resolution: the request is to blame, or the value passes to the rest. -/
theorem acceptable_stage {α β : Type} {check : α → Except Raised β} {field : String}
    {valid : α → Bool} {large : α → Prop} {value : α → β}
    (hc : Checks check field valid large value) {given stored : Option α} {server : α}
    (hblame : BlamesRequest lowering request field ↔ GivenInvalid valid given)
    (rest : β → Except Raised ResolvedOverrides) :
    Acceptable lowering request key s windowStart windowEnd
        (check (coalesce given stored server) >>= rest) ↔
      (∃ v, given = some v ∧ valid v = false ∧ ¬large v) ∨
        (valid (coalesce given stored server) = true ∧
          Acceptable lowering request key s windowStart windowEnd
            (rest (value (coalesce given stored server)))) := by
  by_cases hv : valid (coalesce given stored server) = true
  · rw [hc.accepts _ hv]
    constructor
    · intro h
      exact Or.inr ⟨hv, h⟩
    · intro h
      rcases h with ⟨v, rfl, hf, -⟩ | ⟨-, h⟩
      · rw [coalesce_some, hf] at hv
        cases hv
      · exact h
  · have hf : valid (coalesce given stored server) = false := by simpa using hv
    by_cases hl : large (coalesce given stored server)
    · -- too large: neither a blamed request nor a value
      rw [hc.overflows _ hl]
      constructor
      · intro h
        exact h.elim
      · intro h
        rcases h with ⟨v, rfl, -, hn⟩ | ⟨ht, -⟩
        · exact absurd hl hn
        · exact absurd ht hv
    · obtain ⟨e, he, hfield⟩ := hc.refuses _ hf hl
      rw [he]
      show BlamesRequest lowering request e.field ↔ _
      rw [hfield, hblame]
      constructor
      · intro h
        obtain ⟨v, rfl, hv'⟩ := h
        exact Or.inl ⟨v, rfl, hv', hl⟩
      · intro h
        rcases h with ⟨v, hg, hv', -⟩ | ⟨ht, -⟩
        · exact ⟨v, hg, hv'⟩
        · exact absurd ht hv

/-- A check that nothing is too large for. -/
theorem acceptable_bounded {α β : Type} {check : α → Except Raised β} {field : String}
    {valid : α → Bool} {value : α → β}
    (hc : Checks check field valid (fun _ => False) value) {given stored : Option α} {server : α}
    (hblame : BlamesRequest lowering request field ↔ GivenInvalid valid given)
    (rest : β → Except Raised ResolvedOverrides) :
    Acceptable lowering request key s windowStart windowEnd
        (check (coalesce given stored server) >>= rest) ↔
      GivenInvalid valid given ∨
        (valid (coalesce given stored server) = true ∧
          Acceptable lowering request key s windowStart windowEnd
            (rest (value (coalesce given stored server)))) := by
  rw [acceptable_stage hc hblame rest]
  simp only [not_false_eq_true, and_true, GivenInvalid]

theorem blames_baseline : BlamesRequest lowering request "baseline_window" ↔
    GivenInvalid (validBaseline lowering) request.baselineWindow := by
  simp [BlamesRequest]

theorem blames_clusters : BlamesRequest lowering request "max_clusters" ↔
    GivenInvalid (withinBounds 1 100) request.maxClusters := by
  simp [BlamesRequest]

theorem blames_evidence : BlamesRequest lowering request "max_evidence_items" ↔
    GivenInvalid (withinBounds 1 50) request.maxEvidenceItems := by
  simp [BlamesRequest]

theorem blames_provider : BlamesRequest lowering request "llm.provider" ↔
    GivenInvalid (validProvider lowering) request.llmProvider := by
  simp [BlamesRequest]

end Stages

/-! The layers: a selected value that is valid is the one its layers stand for. -/

theorem layered_eq {α : Type} {valid : α → Bool} {request key : Option α} {server : α}
    (h : valid (coalesce request key server) = true) :
    layered valid request key server = coalesce request key server := by
  cases request with
  | some v => rfl
  | none =>
      cases key with
      | none => rfl
      | some v =>
          have hv : valid v = true := h
          simp [layered, coalesce, Option.filter, hv]

/-- An invalid provider of the key has no say in the flag once the selected one is valid. -/
theorem enabled_layered {valid : String → Bool} {request : OverrideInput}
    {key : KeyOverrideDefaults} {server : String}
    (h : valid (coalesce request.llmProvider key.llmProvider server) = true) (flag : Bool) :
    coalesce (enabledFromLayer request.llmEnabled request.llmProvider request.noLlm)
        (enabledFromLayer key.llmEnabled key.llmProvider none) flag =
      coalesce (enabledFromLayer request.llmEnabled request.llmProvider request.noLlm)
        (enabledFromLayer key.llmEnabled (key.llmProvider.filter valid) none) flag := by
  cases hr : request.llmProvider with
  | some v =>
      -- a given provider decides the flag, unless the request gives the flag itself
      cases request.llmEnabled <;> rfl
  | none =>
      cases hk : key.llmProvider with
      | none => rfl
      | some v =>
          rw [hr, hk] at h
          have hv : valid v = true := h
          simp only [Option.filter, hv, if_true]

theorem resolveBaselineWindow_usable {lowering : Lowering} (windowStart windowEnd : Timestamp)
    {text : String} {duration : ℤ} (hp : parseDuration lowering text = .ok duration) :
    (∃ baseline, resolveBaselineWindow lowering windowStart windowEnd text = .ok baseline) ↔
      firstInstant ≤ windowStart - duration := by
  rw [resolveBaselineWindow_of_parse _ _ hp]
  by_cases h : windowStart - duration < firstInstant
  · simp only [if_pos h, reduceCtorEq, exists_false, false_iff]
    exact not_le.mpr h
  · simp only [if_neg h, Except.ok.injEq, exists_eq', true_iff]
    exact not_lt.mp h

theorem validBaseline_parses {lowering : Lowering} {value : String}
    (h : validBaseline lowering value = true) :
    ∃ duration, parseDuration lowering (strip value) = .ok duration := by
  simp only [validBaseline, Bool.and_eq_true] at h
  cases hp : parseDuration lowering (strip value) with
  | ok d => exact ⟨d, rfl⟩
  | error e => rw [hp] at h; cases h.2

section Resolution

variable (lowering : Lowering) (repr : String → String)

/-- When a resolution is fair. At each field in turn the request itself is at fault, with a
value that is refused and not too large, or the first value given is valid; and the selected
baseline does not reach back before the first instant of the calendar. -/
def FairlySelected (request : OverrideInput) (key : KeyOverrideDefaults) (s : Settings)
    (windowStart : Timestamp) : Prop :=
  let baseline := coalesce request.baselineWindow key.baselineWindow s.defaultBaselineWindow
  let clusters := coalesce request.maxClusters key.maxClusters s.maxClustersForExplain
  let evidence := coalesce request.maxEvidenceItems key.maxEvidenceItems s.maxEvidenceItems
  let provider := coalesce request.llmProvider key.llmProvider s.llmProvider
  (∃ v, request.baselineWindow = some v ∧ validBaseline lowering v = false ∧
      ¬tooLarge lowering v) ∨
    validBaseline lowering baseline = true ∧
      (GivenInvalid (withinBounds 1 100) request.maxClusters ∨
        withinBounds 1 100 clusters = true ∧
          (GivenInvalid (withinBounds 1 50) request.maxEvidenceItems ∨
            withinBounds 1 50 evidence = true ∧
              (GivenInvalid (validProvider lowering) request.llmProvider ∨
                validProvider lowering provider = true ∧
                  ∀ duration, parseDuration lowering (strip baseline) = .ok duration →
                    firstInstant ≤ windowStart - duration)))

/-- A resolution is total, bounded and fair to its request exactly when its values are. -/
theorem acceptable_resolveQueryOverrides_iff (request : OverrideInput) (principal : Option Json)
    (s : Settings) (authEnabled : Bool) (windowStart windowEnd : Timestamp) :
    Acceptable lowering request (keyDefaults principal authEnabled) s windowStart windowEnd
        (resolveQueryOverrides lowering repr request principal s authEnabled) ↔
      FairlySelected lowering request (keyDefaults principal authEnabled) s windowStart := by
  unfold resolveQueryOverrides FairlySelected
  generalize keyDefaults principal authEnabled = key
  rw [acceptable_stage (parseBaselineWindow_checks _) blames_baseline]
  refine or_congr Iff.rfl (and_congr_right fun hbaseline => ?_)
  rw [acceptable_bounded (parseIntBound_checks _ 1 100) blames_clusters]
  refine or_congr Iff.rfl (and_congr_right fun hclusters => ?_)
  rw [acceptable_bounded (parseIntBound_checks _ 1 50) blames_evidence]
  refine or_congr Iff.rfl (and_congr_right fun hevidence => ?_)
  rw [acceptable_bounded (normalizeProvider_checks repr _) blames_provider]
  refine or_congr Iff.rfl (and_congr_right fun hprovider => ?_)
  obtain ⟨duration, hparses⟩ := validBaseline_parses hbaseline
  have husable := resolveBaselineWindow_usable windowStart windowEnd hparses
  constructor
  · intro h d hd
    rw [hparses, Except.ok.injEq] at hd
    rw [← hd]
    exact husable.mp h.usable
  · intro h
    exact {
      clusters_bounds := hclusters
      evidence_bounds := hevidence
      provider_known := by simpa [validProvider] using hprovider
      baseline_parses := ⟨duration, hparses⟩
      baseline := by rw [layered_eq hbaseline]
      clusters := (layered_eq hclusters).symm
      evidence := (layered_eq hevidence).symm
      provider := by rw [layered_eq hprovider]
      enabled := by rw [enabled_layered hprovider]
      usable := husable.mpr (h duration hparses) }

end Resolution

/-! A stored number out of bounds is not ignored. -/

/-- The defaults of the server are within the bounds. -/
def Settings.WithinBounds (lowering : Lowering) (s : Settings) : Prop :=
  validBaseline lowering s.defaultBaselineWindow = true ∧
    withinBounds 1 100 s.maxClustersForExplain = true ∧
    withinBounds 1 50 s.maxEvidenceItems = true ∧ validProvider lowering s.llmProvider = true

def serverDefaults : Settings := ⟨"24h", 10, 8, "disabled"⟩

def emptyRequest : OverrideInput := ⟨none, none, none, none, none, none⟩

/-- A key with a thousand clusters as its default. -/
def thousandClusters : Json := .obj [("max_clusters", .int 1000)]

theorem serverDefaults_withinBounds : serverDefaults.WithinBounds asciiLowering := by
  have hday : validBaseline asciiLowering "24h" = true := by decide +kernel
  exact ⟨hday, by decide, by decide, by decide +kernel⟩

theorem stored_clusters_refused (lowering : Lowering)
    (h : serverDefaults.WithinBounds lowering) :
    ∃ e, resolveQueryOverrides lowering id emptyRequest (some thousandClusters) serverDefaults
        true = .error (.invalid e) ∧ e.field = "max_clusters" := by
  have hday : parseBaselineWindow lowering "24h" "baseline_window" = .ok (strip "24h") :=
    (parseBaselineWindow_checks _).accepts _ h.1
  unfold resolveQueryOverrides
  show ∃ e, (parseBaselineWindow lowering "24h" "baseline_window" >>= fun _ => _) = _ ∧ _
  rw [hday]
  exact ⟨_, rfl, rfl⟩

/-- The request of an empty query is refused for a number it did not give. -/
theorem stored_value_blames_request :
    ¬∀ (request : OverrideInput) (principal : Option Json) (s : Settings) (authEnabled : Bool)
      (windowStart windowEnd : Timestamp), s.WithinBounds asciiLowering →
      Acceptable asciiLowering request (keyDefaults principal authEnabled) s windowStart
        windowEnd (resolveQueryOverrides asciiLowering id request principal s authEnabled) := by
  intro h
  have hserver := serverDefaults_withinBounds
  obtain ⟨e, he, hfield⟩ := stored_clusters_refused asciiLowering hserver
  have hblame := h emptyRequest (some thousandClusters) serverDefaults true 0 0 hserver
  rw [he] at hblame
  have hblame : BlamesRequest asciiLowering emptyRequest e.field := hblame
  rw [hfield, blames_clusters] at hblame
  obtain ⟨v, hv, -⟩ := hblame
  cases hv

end Raglogs.QueryOverrides

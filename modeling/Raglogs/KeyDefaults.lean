import Raglogs.QueryOverrides
import Raglogs.Stripping

/-!
The query defaults of a key. They are checked before they are stored, and a change is merged
into what is stored: what it gives replaces the stored value, and the rest stays. So whatever
is stored this way is valid.
-/

namespace Raglogs.KeyDefaults

open Collections Durations LogEntries QueryOverrides Stripping Text

variable (lowering : Lowering) (repr : String → String)

abbrev Fields := List (String × Json)

/-- A given value that passes its check. -/
def checked {α β : Type} (check : α → Except Raised β) : Option α → Except Raised (Option β)
  | none => .ok none
  | some a => (check a).map some

/-- An entry for a value that is given. -/
def entry {α : Type} (key : String) (wrap : α → Json) (value : Option α) : Fields :=
  (value.map fun a => (key, wrap a)).toList

def llmEntries (d : KeyOverrideDefaults) : Fields :=
  entry "provider" Json.str d.llmProvider ++ entry "enabled" Json.bool d.llmEnabled

def entries (d : KeyOverrideDefaults) : Fields :=
  entry "baseline_window" Json.str d.baselineWindow ++
    entry "max_clusters" Json.int d.maxClusters ++
    entry "max_evidence_items" Json.int d.maxEvidenceItems ++
    if llmEntries d = [] then [] else [("llm", .obj (llmEntries d))]

/-- An object with entries, or nothing. -/
def orNone (fields : Fields) : Option Json := if fields = [] then none else some (.obj fields)

def fieldsOf : Option Json → Fields
  | some (.obj fields) => fields
  | _ => []

/-- The given defaults, once they are checked. -/
def buildKeyConfigJson (given : KeyOverrideDefaults) : Except Raised (Option Json) := do
  let baselineWindow ← checked (fun v => parseBaselineWindow lowering v "baseline_window")
    given.baselineWindow
  let maxClusters ← checked (fun n => parseIntBound (.int n) "max_clusters" 1 100)
    given.maxClusters
  let maxEvidenceItems ← checked (fun n => parseIntBound (.int n) "max_evidence_items" 1 50)
    given.maxEvidenceItems
  let llmProvider ← checked (fun v => normalizeProvider lowering repr v "llm.provider")
    given.llmProvider
  return orNone (entries ⟨baselineWindow, maxClusters, maxEvidenceItems, llmProvider,
    given.llmEnabled⟩)

/-- Assign the value of a key. -/
def assign (key : String) (value : Json) : Fields → Fields
  | [] => [(key, value)]
  | (k, v) :: rest => if k = key then (k, value) :: rest else (k, v) :: assign key value rest

def update (fields incoming : Fields) : Fields :=
  incoming.foldl (fun fields e => assign e.1 e.2 fields) fields

/-- Copy the value of a key, if there is one. -/
def copyKey (incoming : Fields) (fields : Fields) (key : String) : Fields :=
  match incoming.lookup key with
  | some value => assign key value fields
  | none => fields

def mergeFields (current incoming : Fields) : Fields :=
  let copied := ["baseline_window", "max_clusters", "max_evidence_items"].foldl
    (copyKey incoming) current
  match incoming.lookup "llm" with
  | some (.obj incomingLlm) =>
      assign "llm" (.obj (update (objectField current "llm") incomingLlm)) copied
  | _ => copied

/-- Merge given defaults into the stored ones, or drop these. -/
def mergeKeyConfig (existing : Option Json) (given : KeyOverrideDefaults) (clear : Bool) :
    Except Raised (Option Json) :=
  if clear then .ok none
  else do
    let incoming := fieldsOf (← buildKeyConfigJson lowering repr given)
    if incoming = [] then return orNone (fieldsOf existing)
    else return orNone (mergeFields (fieldsOf existing) incoming)

/-! What is stored, as defaults. -/

def defaultsIn (fields : Fields) : KeyOverrideDefaults := parseKeyConfig (.obj fields)

/-- The defaults of a stored object. -/
def defaultsOf (config : Option Json) : KeyOverrideDefaults := keyDefaults config true

/-- Some defaults before others. -/
def overlay (first second : KeyOverrideDefaults) : KeyOverrideDefaults where
  baselineWindow := first.baselineWindow.or second.baselineWindow
  maxClusters := first.maxClusters.or second.maxClusters
  maxEvidenceItems := first.maxEvidenceItems.or second.maxEvidenceItems
  llmProvider := first.llmProvider.or second.llmProvider
  llmEnabled := first.llmEnabled.or second.llmEnabled

/-- Given defaults as they are stored. -/
def normalized (given : KeyOverrideDefaults) : KeyOverrideDefaults where
  baselineWindow := given.baselineWindow.map strip
  maxClusters := given.maxClusters
  maxEvidenceItems := given.maxEvidenceItems
  llmProvider := given.llmProvider.map fun v => lowering.lower (strip v)
  llmEnabled := given.llmEnabled

/-- Defaults that are valid where they are given. -/
structure Valid (d : KeyOverrideDefaults) : Prop where
  baseline : ∀ v ∈ d.baselineWindow, validBaseline lowering v = true
  clusters : ∀ n ∈ d.maxClusters, withinBounds 1 100 n = true
  evidence : ∀ n ∈ d.maxEvidenceItems, withinBounds 1 50 n = true
  provider : ∀ v ∈ d.llmProvider, validProvider lowering v = true

instance (d : KeyOverrideDefaults) : Decidable (Valid lowering d) :=
  decidable_of_iff ((∀ v ∈ d.baselineWindow, validBaseline lowering v = true) ∧
      (∀ n ∈ d.maxClusters, withinBounds 1 100 n = true) ∧
      (∀ n ∈ d.maxEvidenceItems, withinBounds 1 50 n = true) ∧
      ∀ v ∈ d.llmProvider, validProvider lowering v = true)
    ⟨fun ⟨hb, hc, he, hp⟩ => ⟨hb, hc, he, hp⟩, fun h => ⟨h.1, h.2, h.3, h.4⟩⟩

variable {lowering repr}

theorem defaultsIn_eq (fields : Fields) : defaultsIn fields =
    ⟨textField fields "baseline_window", intField fields "max_clusters",
      intField fields "max_evidence_items", textField (objectField fields "llm") "provider",
      boolField (objectField fields "llm") "enabled"⟩ := rfl

theorem defaultsOf_eq (config : Option Json) :
    defaultsOf config = defaultsIn (fieldsOf config) := by
  cases config with
  | none => rfl
  | some json => cases json <;> rfl

@[simp]
theorem fieldsOf_orNone (fields : Fields) : fieldsOf (orNone fields) = fields := by
  unfold orNone
  split
  · rename_i h
    exact h.symm
  · rfl

theorem defaultsOf_orNone (fields : Fields) : defaultsOf (orNone fields) = defaultsIn fields := by
  rw [defaultsOf_eq, fieldsOf_orNone]

/-! The value of a key. -/

theorem lookup_cons_if (e : String × Json) (rest : Fields) (k : String) :
    List.lookup k (e :: rest) = if k = e.1 then some e.2 else rest.lookup k := by
  rw [List.lookup_cons]
  by_cases h : k = e.1
  · simp [h]
  · rw [if_neg h, beq_false_of_ne h]

theorem lookup_assign (key : String) (value : Json) (fields : Fields) (k : String) :
    (assign key value fields).lookup k = if k = key then some value else fields.lookup k := by
  induction fields with
  | nil => exact lookup_cons_if (key, value) [] k
  | cons e rest ih =>
    rw [assign]
    by_cases hkey : e.1 = key
    · rw [if_pos hkey, lookup_cons_if, lookup_cons_if, hkey]
      by_cases h : k = key <;> simp [h]
    · rw [if_neg hkey, lookup_cons_if, lookup_cons_if, ih]
      by_cases he : k = e.1
      · simp [he, hkey]
      · simp [he]

theorem lookup_copyKey (incoming fields : Fields) (key k : String) :
    (copyKey incoming fields key).lookup k =
      if k = key then (incoming.lookup key).or (fields.lookup k) else fields.lookup k := by
  unfold copyKey
  cases incoming.lookup key with
  | none => simp
  | some value => simp [lookup_assign]

/-- The last of the values that are assigned to a key. -/
theorem lookup_update (fields incoming : Fields) (hnodup : (incoming.map Prod.fst).Nodup)
    (k : String) :
    (update fields incoming).lookup k = (incoming.lookup k).or (fields.lookup k) := by
  induction incoming generalizing fields with
  | nil => rfl
  | cons e rest ih =>
    obtain ⟨hfresh, hrest⟩ := List.nodup_cons.mp hnodup
    rw [update, List.foldl_cons]
    rw [show List.foldl _ _ rest = update (assign e.1 e.2 fields) rest from rfl, ih _ hrest,
      lookup_assign, lookup_cons_if]
    by_cases hk : k = e.1
    · have hnone : rest.lookup e.1 = none := by
        rw [List.lookup_eq_none_iff]
        intro p hp
        have hne : p.1 ≠ e.1 := fun h => hfresh (h ▸ List.mem_map_of_mem hp)
        simpa using hne.symm
      simp [hk, hnone]
    · simp [hk]

@[simp]
theorem lookup_entry {α : Type} (key : String) (wrap : α → Json) (value : Option α) (k : String) :
    (entry key wrap value).lookup k = if k = key then value.map wrap else none := by
  cases value with
  | none => simp [entry]
  | some a => exact lookup_cons_if (key, wrap a) [] k

theorem textField_of_lookup {fields others : Fields} {key : String} {value : Option String}
    (h : fields.lookup key = (value.map Json.str).or (others.lookup key)) :
    textField fields key = value.or (textField others key) := by
  unfold textField
  rw [h]
  cases value <;> rfl

theorem intField_of_lookup {fields others : Fields} {key : String} {value : Option ℤ}
    (h : fields.lookup key = (value.map Json.int).or (others.lookup key)) :
    intField fields key = value.or (intField others key) := by
  unfold intField
  rw [h]
  cases value <;> rfl

theorem boolField_of_lookup {fields others : Fields} {key : String} {value : Option Bool}
    (h : fields.lookup key = (value.map Json.bool).or (others.lookup key)) :
    boolField fields key = value.or (boolField others key) := by
  unfold boolField
  rw [h]
  cases value <;> rfl

/-! Checked defaults. -/

theorem checked_eq_ok {α β : Type} {check : α → Except Raised β} {field : String}
    {valid : α → Bool} {large : α → Prop} {value : α → β}
    (hc : Checks check field valid large value) {given : Option α} {r : Option β} :
    checked check given = .ok r ↔ (∀ a ∈ given, valid a = true) ∧ r = given.map value := by
  cases given with
  | none =>
    constructor
    · intro h
      exact ⟨fun a ha => (nomatch ha), (Except.ok.inj h).symm⟩
    · rintro ⟨-, rfl⟩
      rfl
  | some a =>
    cases hvalid : valid a with
    | true =>
      rw [checked, hc.accepts a hvalid]
      constructor
      · intro h
        refine ⟨fun b hb => ?_, (Except.ok.inj h).symm⟩
        obtain rfl := Option.some.inj hb
        exact hvalid
      · rintro ⟨-, rfl⟩
        rfl
    | false =>
      have hno : ∀ b, check a ≠ .ok b := by
        intro b hb
        by_cases hlarge : large a
        · rw [hc.overflows a hlarge] at hb
          cases hb
        · obtain ⟨e, he, -⟩ := hc.refuses a hvalid hlarge
          rw [he] at hb
          cases hb
      cases hcheck : check a with
      | error e => simp [checked, hcheck, Except.map, hvalid]
      | ok b => exact absurd hcheck (hno b)

/-- Defaults are stored exactly if they are valid. -/
theorem buildKeyConfigJson_eq_ok {given : KeyOverrideDefaults} {config : Option Json} :
    buildKeyConfigJson lowering repr given = .ok config ↔
      Valid lowering given ∧ config = orNone (entries (normalized lowering given)) := by
  unfold buildKeyConfigJson
  rw [bind_eq_ok]
  simp only [checked_eq_ok (parseBaselineWindow_checks _), bind_eq_ok,
    checked_eq_ok (parseIntBound_checks _ _ _), checked_eq_ok (normalizeProvider_checks repr _)]
  constructor
  · rintro ⟨_, ⟨hbaseline, rfl⟩, _, ⟨hclusters, rfl⟩, _, ⟨hevidence, rfl⟩, _, ⟨hprovider, rfl⟩, h⟩
    refine ⟨⟨hbaseline, hclusters, hevidence, hprovider⟩, ?_⟩
    rw [Option.map_id_fun, id, id] at h
    exact (Except.ok.inj h).symm
  · rintro ⟨h, rfl⟩
    refine ⟨_, ⟨h.baseline, rfl⟩, _, ⟨h.clusters, rfl⟩, _, ⟨h.evidence, rfl⟩, _,
      ⟨h.provider, rfl⟩, ?_⟩
    rw [Option.map_id_fun, id, id]
    rfl

/-! Merged defaults. -/

theorem lookup_entries (d : KeyOverrideDefaults) (key : String) : (entries d).lookup key =
    if key = "baseline_window" then d.baselineWindow.map Json.str
    else if key = "max_clusters" then d.maxClusters.map Json.int
    else if key = "max_evidence_items" then d.maxEvidenceItems.map Json.int
    else if key = "llm" ∧ llmEntries d ≠ [] then some (.obj (llmEntries d))
    else none := by
  have hllm : (if llmEntries d = [] then [] else [("llm", Json.obj (llmEntries d))]).lookup key =
      if key = "llm" ∧ llmEntries d ≠ [] then some (.obj (llmEntries d)) else none := by
    by_cases h : llmEntries d = []
    · simp [h]
    · rw [if_neg h, lookup_cons_if]
      simp [h]
  unfold entries
  simp only [List.lookup_append, lookup_entry, hllm]
  split_ifs <;> simp_all

/-- The values of a merge, but for those of the language model. -/
theorem lookup_mergeFields {key : String}
    (hkey : key ∈ ["baseline_window", "max_clusters", "max_evidence_items"])
    (current incoming : Fields) :
    (mergeFields current incoming).lookup key = (incoming.lookup key).or (current.lookup key) := by
  have hcopied : (["baseline_window", "max_clusters", "max_evidence_items"].foldl
      (copyKey incoming) current).lookup key = (incoming.lookup key).or (current.lookup key) := by
    simp only [List.mem_cons, List.not_mem_nil, or_false] at hkey
    rcases hkey with rfl | rfl | rfl <;> simp [lookup_copyKey]
  have hllm : key ≠ "llm" := by
    rintro rfl
    exact absurd hkey (by decide)
  unfold mergeFields
  split
  · rw [lookup_assign, if_neg hllm, hcopied]
  · exact hcopied

theorem nodup_llmEntries (d : KeyOverrideDefaults) : ((llmEntries d).map Prod.fst).Nodup := by
  unfold llmEntries entry
  cases d.llmProvider <;> cases d.llmEnabled <;> simp

theorem objectField_mergeFields (current : Fields) (d : KeyOverrideDefaults) :
    objectField (mergeFields current (entries d)) "llm" =
      update (objectField current "llm") (llmEntries d) := by
  have hcopied : (["baseline_window", "max_clusters", "max_evidence_items"].foldl
      (copyKey (entries d)) current).lookup "llm" = current.lookup "llm" := by
    simp [lookup_copyKey]
  unfold mergeFields
  by_cases hnone : llmEntries d = []
  · have hlookup : (entries d).lookup "llm" = none := by
      rw [lookup_entries]
      simp [hnone]
    rw [hlookup, hnone]
    unfold objectField
    dsimp only
    rw [hcopied]
    rfl
  · have hlookup : (entries d).lookup "llm" = some (.obj (llmEntries d)) := by
      rw [lookup_entries]
      simp [hnone]
    rw [hlookup]
    dsimp only
    unfold objectField
    rw [lookup_assign, if_pos rfl]

theorem objectField_entries (d : KeyOverrideDefaults) :
    objectField (entries d) "llm" = llmEntries d := by
  unfold objectField
  rw [lookup_entries]
  by_cases hnone : llmEntries d = []
  · simp [hnone]
  · simp [hnone]

/-- Stored defaults are read back. -/
theorem defaultsIn_entries (d : KeyOverrideDefaults) : defaultsIn (entries d) = d := by
  have hbaseline : textField (entries d) "baseline_window" =
      d.baselineWindow.or (textField [] "baseline_window") :=
    textField_of_lookup (by rw [lookup_entries]; exact Option.or_none.symm)
  have hclusters : intField (entries d) "max_clusters" =
      d.maxClusters.or (intField [] "max_clusters") :=
    intField_of_lookup (by rw [lookup_entries]; exact Option.or_none.symm)
  have hevidence : intField (entries d) "max_evidence_items" =
      d.maxEvidenceItems.or (intField [] "max_evidence_items") :=
    intField_of_lookup (by rw [lookup_entries]; exact Option.or_none.symm)
  have hprovider : textField (llmEntries d) "provider" =
      d.llmProvider.or (textField [] "provider") :=
    textField_of_lookup (by simp [llmEntries, List.lookup_append])
  have henabled : boolField (llmEntries d) "enabled" =
      d.llmEnabled.or (boolField [] "enabled") :=
    boolField_of_lookup (by simp [llmEntries, List.lookup_append])
  rw [defaultsIn_eq, objectField_entries, hbaseline, hclusters, hevidence, hprovider, henabled]
  have hnone : textField [] "baseline_window" = none ∧ textField [] "provider" = none :=
    ⟨rfl, rfl⟩
  rw [hnone.1, hnone.2]
  show KeyOverrideDefaults.mk (d.baselineWindow.or none) (d.maxClusters.or none)
    (d.maxEvidenceItems.or none) (d.llmProvider.or none) (d.llmEnabled.or none) = d
  simp

/-- A merge replaces the defaults that are given. -/
theorem defaultsIn_mergeFields (current : Fields) (d : KeyOverrideDefaults) :
    defaultsIn (mergeFields current (entries d)) = overlay d (defaultsIn current) := by
  have hbaseline : textField (mergeFields current (entries d)) "baseline_window" =
      d.baselineWindow.or (textField current "baseline_window") := by
    refine textField_of_lookup ?_
    rw [lookup_mergeFields (by decide), lookup_entries]
    rfl
  have hclusters : intField (mergeFields current (entries d)) "max_clusters" =
      d.maxClusters.or (intField current "max_clusters") := by
    refine intField_of_lookup ?_
    rw [lookup_mergeFields (by decide), lookup_entries]
    rfl
  have hevidence : intField (mergeFields current (entries d)) "max_evidence_items" =
      d.maxEvidenceItems.or (intField current "max_evidence_items") := by
    refine intField_of_lookup ?_
    rw [lookup_mergeFields (by decide), lookup_entries]
    rfl
  have hprovider : textField (objectField (mergeFields current (entries d)) "llm") "provider" =
      d.llmProvider.or (textField (objectField current "llm") "provider") := by
    rw [objectField_mergeFields]
    refine textField_of_lookup ?_
    rw [lookup_update _ _ (nodup_llmEntries d)]
    simp [llmEntries, List.lookup_append]
  have henabled : boolField (objectField (mergeFields current (entries d)) "llm") "enabled" =
      d.llmEnabled.or (boolField (objectField current "llm") "enabled") := by
    rw [objectField_mergeFields]
    refine boolField_of_lookup ?_
    rw [lookup_update _ _ (nodup_llmEntries d)]
    simp [llmEntries, List.lookup_append]
  rw [defaultsIn_eq, hbaseline, hclusters, hevidence, hprovider, henabled]
  rfl

theorem mergeFields_nil (current : Fields) : mergeFields current [] = current := rfl

/-- What is stored after a change: nothing, or what it gives over what was stored. -/
theorem mergeKeyConfig_eq_ok {existing merged : Option Json} {given : KeyOverrideDefaults}
    {clear : Bool} (h : mergeKeyConfig lowering repr existing given clear = .ok merged) :
    defaultsOf merged =
      if clear then KeyOverrideDefaults.none
      else overlay (normalized lowering given) (defaultsOf existing) := by
  cases clear with
  | true =>
    obtain rfl := Except.ok.inj h
    rfl
  | false =>
    obtain ⟨config, hconfig, h⟩ := bind_eq_ok.mp h
    obtain ⟨-, rfl⟩ := buildKeyConfigJson_eq_ok.mp hconfig
    have hmerged : merged =
        orNone (mergeFields (fieldsOf existing) (entries (normalized lowering given))) := by
      rw [fieldsOf_orNone] at h
      dsimp only at h
      split at h
      · rename_i hnone
        rw [hnone, mergeFields_nil]
        exact (Except.ok.inj h).symm
      · exact (Except.ok.inj h).symm
    rw [hmerged, defaultsOf_orNone, defaultsIn_mergeFields, ← defaultsOf_eq]
    rfl

/-- A change is refused exactly if it gives something that is not valid. -/
theorem mergeKeyConfig_isOk {existing : Option Json} {given : KeyOverrideDefaults} {clear : Bool} :
    (∃ merged, mergeKeyConfig lowering repr existing given clear = .ok merged) ↔
      clear = true ∨ Valid lowering given := by
  cases clear with
  | true => exact ⟨fun _ => .inl rfl, fun _ => ⟨none, rfl⟩⟩
  | false =>
    constructor
    · rintro ⟨merged, h⟩
      obtain ⟨config, hconfig, -⟩ := bind_eq_ok.mp h
      exact .inr (buildKeyConfigJson_eq_ok.mp hconfig).1
    · intro h
      have hconfig : buildKeyConfigJson lowering repr given =
          .ok (orNone (entries (normalized lowering given))) :=
        buildKeyConfigJson_eq_ok.mpr ⟨h.resolve_left Bool.false_ne_true, rfl⟩
      unfold mergeKeyConfig
      rw [if_neg Bool.false_ne_true, hconfig]
      by_cases hnone : fieldsOf (orNone (entries (normalized lowering given))) = []
      · exact ⟨_, if_pos hnone⟩
      · exact ⟨_, if_neg hnone⟩

/-! Valid defaults. -/

theorem valid_none : Valid lowering KeyOverrideDefaults.none :=
  ⟨fun _ h => (nomatch h), fun _ h => (nomatch h), fun _ h => (nomatch h), fun _ h => (nomatch h)⟩

theorem Valid.overlay {first second : KeyOverrideDefaults} (hfirst : Valid lowering first)
    (hsecond : Valid lowering second) : Valid lowering (overlay first second) where
  baseline v h := (Option.or_eq_some_iff.mp h).elim (hfirst.baseline v) fun h =>
    hsecond.baseline v h.2
  clusters n h := (Option.or_eq_some_iff.mp h).elim (hfirst.clusters n) fun h =>
    hsecond.clusters n h.2
  evidence n h := (Option.or_eq_some_iff.mp h).elim (hfirst.evidence n) fun h =>
    hsecond.evidence n h.2
  provider v h := (Option.or_eq_some_iff.mp h).elim (hfirst.provider v) fun h =>
    hsecond.provider v h.2

/-- The names of the providers are in lower case. -/
def KeepsProviders (lowering : Lowering) : Prop := ∀ p ∈ llmProviders, lowering.lower p = p

/-- What passes the checks passes them again once it is stored. -/
theorem Valid.normalized (hkeeps : KeepsProviders lowering) {given : KeyOverrideDefaults}
    (h : Valid lowering given) : Valid lowering (normalized lowering given) where
  baseline v hv := by
    obtain ⟨w, hw, rfl⟩ := Option.map_eq_some_iff.mp hv
    have hvalid := h.baseline w hw
    unfold validBaseline at hvalid ⊢
    rwa [strip_strip]
  clusters := h.clusters
  evidence := h.evidence
  provider v hv := by
    obtain ⟨w, hw, rfl⟩ := Option.map_eq_some_iff.mp hv
    have hknown : lowering.lower (strip w) ∈ llmProviders := by
      simpa [validProvider] using h.provider w hw
    have hstrip : ∀ p ∈ llmProviders, strip p = p := by decide
    unfold validProvider
    rw [hstrip _ hknown, hkeeps _ hknown]
    simpa using hknown

theorem valid_merged (hkeeps : KeepsProviders lowering) {existing merged : Option Json}
    {given : KeyOverrideDefaults} {clear : Bool}
    (h : mergeKeyConfig lowering repr existing given clear = .ok merged)
    (hexisting : Valid lowering (defaultsOf existing)) : Valid lowering (defaultsOf merged) := by
  rw [mergeKeyConfig_eq_ok h]
  cases clear with
  | true => exact valid_none
  | false =>
    have hgiven := (mergeKeyConfig_isOk.mp ⟨merged, h⟩).resolve_left Bool.false_ne_true
    exact (hgiven.normalized hkeeps).overlay hexisting

section Resolution

variable {request : OverrideInput} {key : KeyOverrideDefaults} {s : Settings}

/-- Resolved values, each the first that is given, or an error that the request is to blame
for. -/
def Settled (lowering : Lowering) (request : OverrideInput) (key : KeyOverrideDefaults)
    (s : Settings) : Except Raised ResolvedOverrides → Prop
  | .ok r => r.baselineWindow = strip (coalesce request.baselineWindow key.baselineWindow
        s.defaultBaselineWindow) ∧
      r.maxClusters = coalesce request.maxClusters key.maxClusters s.maxClustersForExplain ∧
      r.maxEvidenceItems = coalesce request.maxEvidenceItems key.maxEvidenceItems
        s.maxEvidenceItems ∧
      r.llmProvider = lowering.lower (strip (coalesce request.llmProvider key.llmProvider
        s.llmProvider)) ∧
      r.llmEnabled = (coalesce
        (enabledFromLayer request.llmEnabled request.llmProvider request.noLlm)
        (enabledFromLayer key.llmEnabled key.llmProvider none) (s.llmProvider != "disabled") &&
          r.llmProvider != "disabled")
  | .error (.invalid e) => BlamesRequest lowering request e.field
  | .error .overflow => ∃ v, request.baselineWindow = some v ∧ tooLarge lowering v

/-- One check, where the later layers are valid. -/
theorem settled_stage {α β : Type} {check : α → Except Raised β} {field : String}
    {valid : α → Bool} {large : α → Prop} {value : α → β}
    (hc : Checks check field valid large value) {given stored : Option α} {server : α}
    (hstored : ∀ v ∈ stored, valid v = true) (hserver : valid server = true)
    (hblame : GivenInvalid valid given → BlamesRequest lowering request field)
    (hlarge : ∀ v, given = some v → large v → ∃ v, request.baselineWindow = some v ∧
      tooLarge lowering v)
    {rest : β → Except Raised ResolvedOverrides}
    (hrest : Settled lowering request key s (rest (value (coalesce given stored server)))) :
    Settled lowering request key s (check (coalesce given stored server) >>= rest) := by
  cases hvalid : valid (coalesce given stored server) with
  | true =>
    rw [hc.accepts _ hvalid]
    exact hrest
  | false =>
    -- Only the request can give a value that is not valid.
    cases given with
    | none =>
      cases stored with
      | none =>
        have hbad : valid server = false := hvalid
        rw [hserver] at hbad
        cases hbad
      | some v =>
        have hbad : valid v = false := hvalid
        rw [hstored v rfl] at hbad
        cases hbad
    | some v =>
      rw [coalesce_some] at hvalid ⊢
      by_cases htoo : large v
      · rw [hc.overflows v htoo]
        exact hlarge v rfl htoo
      · obtain ⟨e, he, hfield⟩ := hc.refuses v hvalid htoo
        rw [he]
        show BlamesRequest lowering request e.field
        rw [hfield]
        exact hblame ⟨v, rfl, hvalid⟩

/-- With valid defaults nothing but the request itself is refused. -/
theorem settled_resolveQueryOverrides {principal : Option Json} {authEnabled : Bool}
    (hkey : Valid lowering (keyDefaults principal authEnabled)) (hs : s.WithinBounds lowering) :
    Settled lowering request (keyDefaults principal authEnabled) s
      (resolveQueryOverrides lowering repr request principal s authEnabled) := by
  obtain ⟨hbaseline, hclusters, hevidence, hprovider⟩ := hs
  unfold resolveQueryOverrides
  generalize keyDefaults principal authEnabled = key at hkey ⊢
  refine settled_stage (parseBaselineWindow_checks _) hkey.baseline hbaseline
    blames_baseline.mpr (fun v hv hlarge => ⟨v, hv, hlarge⟩) ?_
  refine settled_stage (parseIntBound_checks _ 1 100) hkey.clusters hclusters
    blames_clusters.mpr (fun _ _ h => h.elim) ?_
  refine settled_stage (parseIntBound_checks _ 1 50) hkey.evidence hevidence
    blames_evidence.mpr (fun _ _ h => h.elim) ?_
  refine settled_stage (normalizeProvider_checks repr _) hkey.provider hprovider
    blames_provider.mpr (fun _ _ h => h.elim) ?_
  exact ⟨rfl, rfl, rfl, rfl, rfl⟩

end Resolution

end Raglogs.KeyDefaults

import Raglogs.CacheRoundTrips
import Raglogs.TelemetryKeyLaws

/-!
What an answer from the cache stands for. A stored body was made for a request with the same
window, filters, job, scope and overrides, since the key covers all of them. It is the body of
the analysis that would be made now, unless a model that had no narrative then has one now: an
explanation that falls back to the rules is stored like any other one by the rules.
-/

namespace Raglogs.CacheTransparency

open CacheRoundTrips CachedBodies Collections EvidencePackets ExplainRoute ExplainRouteLaws
  ExplainSchema Explanations ExplanationLaws JsonText LogEntries Memos Memos.Cache QueryOverrides
  Scopes Text

/-! Keys. -/

/-- The resolved overrides in a key. -/
def cacheParts (o : ResolvedOverrides) : Json :=
  .obj [("baseline_window", .str o.baselineWindow), ("max_clusters", .int o.maxClusters),
    ("max_evidence_items", .int o.maxEvidenceItems), ("llm_provider", .str o.llmProvider),
    ("llm_enabled", .bool o.llmEnabled)]

def canonicalKey (k : KeyParts) : Json :=
  .obj [("ws", .str k.windowStart), ("we", .str k.windowEnd), ("svc", ofText k.service),
    ("env", ofText k.env), ("ijid", ofText k.ingestionJobId), ("scope", .str k.scope),
    ("ov", cacheParts k.overrides)]

/-- The digest of the filters, written with sorted keys. -/
def cacheKey (ft : FloatText) (sha256 : String → String) (k : KeyParts) : String :=
  sha256 (dumps ft (canonicalKey k))

theorem ofText_injective {s t : Option String} (h : ofText s = ofText t) : s = t := by
  rw [← isText_ofText s, h, isText_ofText]

/-- Objects with the same text have the same members. -/
theorem member_iff {fields fields' : Fields}
    (h : inKeyOrder (.obj fields) = inKeyOrder (.obj fields')) (m : String × Json) :
    m ∈ fieldsInKeyOrder fields ↔ m ∈ fieldsInKeyOrder fields' := by
  simp only [inKeyOrder, Json.obj.injEq] at h
  rw [← mem_sortOn Prod.fst, h, mem_sortOn]

theorem cacheParts_injective {o o' : ResolvedOverrides}
    (h : inKeyOrder (cacheParts o) = inKeyOrder (cacheParts o')) : o = o' := by
  have hbaseline : o.baselineWindow = o'.baselineWindow := by
    simpa [fieldsInKeyOrder, inKeyOrder] using
      (member_iff h ("baseline_window", .str o.baselineWindow)).mp
  have hclusters : o.maxClusters = o'.maxClusters := by
    simpa [fieldsInKeyOrder, inKeyOrder] using
      (member_iff h ("max_clusters", .int o.maxClusters)).mp
  have hitems : o.maxEvidenceItems = o'.maxEvidenceItems := by
    simpa [fieldsInKeyOrder, inKeyOrder] using
      (member_iff h ("max_evidence_items", .int o.maxEvidenceItems)).mp
  have hprovider : o.llmProvider = o'.llmProvider := by
    simpa [fieldsInKeyOrder, inKeyOrder] using
      (member_iff h ("llm_provider", .str o.llmProvider)).mp
  have henabled : o.llmEnabled = o'.llmEnabled := by
    simpa [fieldsInKeyOrder, inKeyOrder] using
      (member_iff h ("llm_enabled", .bool o.llmEnabled)).mp
  cases o
  cases o'
  rw [ResolvedOverrides.mk.injEq]
  exact ⟨hbaseline, hclusters, hitems, hprovider, henabled⟩

theorem inKeyOrder_ofText (s : Option String) : inKeyOrder (ofText s) = ofText s := by
  cases s <;> simp [ofText, inKeyOrder]

/-- The text of a key tells every filter and override. -/
theorem canonicalKey_injective {k k' : KeyParts}
    (h : inKeyOrder (canonicalKey k) = inKeyOrder (canonicalKey k')) : k = k' := by
  have hstart : k.windowStart = k'.windowStart := by
    simpa [fieldsInKeyOrder, inKeyOrder] using (member_iff h ("ws", .str k.windowStart)).mp
  have hstop : k.windowEnd = k'.windowEnd := by
    simpa [fieldsInKeyOrder, inKeyOrder] using (member_iff h ("we", .str k.windowEnd)).mp
  have hservice : ofText k.service = ofText k'.service := by
    simpa [fieldsInKeyOrder, inKeyOrder_ofText] using (member_iff h ("svc", ofText k.service)).mp
  have henv : ofText k.env = ofText k'.env := by
    simpa [fieldsInKeyOrder, inKeyOrder_ofText] using (member_iff h ("env", ofText k.env)).mp
  have hjob : ofText k.ingestionJobId = ofText k'.ingestionJobId := by
    simpa [fieldsInKeyOrder, inKeyOrder_ofText] using
      (member_iff h ("ijid", ofText k.ingestionJobId)).mp
  have hscope : k.scope = k'.scope := by
    simpa [fieldsInKeyOrder, inKeyOrder] using (member_iff h ("scope", .str k.scope)).mp
  have hoverrides : inKeyOrder (cacheParts k.overrides) = inKeyOrder (cacheParts k'.overrides) := by
    simpa [fieldsInKeyOrder] using
      (member_iff h ("ov", inKeyOrder (cacheParts k.overrides))).mp
  cases k
  cases k'
  rw [KeyParts.mk.injEq]
  exact ⟨hstart, hstop, ofText_injective hservice, ofText_injective henv, ofText_injective hjob,
    hscope, cacheParts_injective hoverrides⟩

variable {server : Server} {ft : FloatText} {sha256 : String → String}

theorem asked_eq_of_cacheKey (hsha : Function.Injective sha256)
    (hiso : Function.Injective2 server.runtime.isoformat) {a b : Asked}
    (h : cacheKey ft sha256 (keyParts server a) = cacheKey ft sha256 (keyParts server b)) :
    a = b := by
  have hparts := canonicalKey_injective ((dumps_inj_iff ft).mp (hsha h))
  simp only [keyParts, KeyParts.mk.injEq] at hparts
  obtain ⟨hstart, hstop, hservice, henv, hjob, hscope, hoverrides⟩ := hparts
  obtain ⟨⟨_, _⟩, ⟨_, _⟩, _, _, _, _, _⟩ := a
  obtain ⟨⟨_, _⟩, ⟨_, _⟩, _, _, _, _, _⟩ := b
  obtain ⟨rfl, rfl⟩ := hiso hstart
  obtain ⟨rfl, rfl⟩ := hiso hstop
  cases hservice
  cases henv
  cases hjob
  cases hscope
  cases hoverrides
  rfl

/-! Narratives. -/

section Narratives

variable {env : ExplainEnvironment} {store : Store} {llm llm' : Llm} {input : ExplainInput}
  {result : ExplainResult}

/-- The text of a model that tells of a window: one is asked, there is a primary cluster to tell
of, and the model does not fail. -/
def narrative (env : ExplainEnvironment) (store : Store) (llm : Llm) (input : ExplainInput) :
    Option String :=
  match analyse env store input with
  | .error _ => none
  | .ok a =>
      if a.clusters = [] then none
      else a.packet.primaryCluster.bind fun _ => llmText env llm input a.packet

/-- An explanation is one by the rules exactly if no narrative was written for it. -/
theorem mode_iff (h : explainWindow env store llm input = .ok result) :
    result.mode = "rules" ↔ narrative env store llm input = none := by
  rw [explainWindow] at h
  rw [narrative]
  cases ha : analyse env store input with
  | error e =>
    rw [ha] at h
    cases h
  | ok a =>
    rw [ha] at h
    obtain rfl : summarise env llm input a = result := Except.ok.inj h
    unfold summarise
    dsimp only
    split
    · exact iff_of_true rfl rfl
    · cases hpc : a.packet.primaryCluster with
      | none => exact iff_of_true rfl rfl
      | some pc =>
        show (if (llmText env llm input a.packet).isSome then "llm" else "rules") = "rules" ↔
          llmText env llm input a.packet = none
        cases llmText env llm input a.packet <;> simp

/-- Models that have no narrative for a window do not matter. -/
theorem explainWindow_of_narrative (h : narrative env store llm input = none)
    (h' : narrative env store llm' input = none) :
    explainWindow env store llm input = explainWindow env store llm' input := by
  rw [narrative] at h h'
  rw [explainWindow, explainWindow]
  cases ha : analyse env store input with
  | error e => rfl
  | ok a =>
    rw [ha] at h h'
    refine congrArg Except.ok ?_
    unfold summarise
    dsimp only at h h'
    split
    · rfl
    · rename_i hclusters
      rw [if_neg hclusters] at h h'
      cases hpc : a.packet.primaryCluster with
      | none => rfl
      | some pc =>
        rw [hpc] at h h'
        have hsame : llmText env llm input a.packet = llmText env llm' input a.packet :=
          h.trans h'.symm
        show explained env llm input a pc = explained env llm' input a pc
        unfold explained
        rw [hsame]

end Narratives

/-! What an answer from the cache stands for. -/

/-- The analysis of a request, with the rows and the model that it finds. -/
def analysed (server : Server) (ask : Ask) : Except ExplainError ExplainResult :=
  explainWindow (server.explainIn ask.asked.zones) ask.store ask.llm (explainInput ask)

/-- A payload that was written for the same window, filters, job, scope and overrides, from the
analysis that is made for the request now. -/
def Current (server : Server) (earlier : List Ask) (ask : Ask) (payload : Fields) : Prop :=
  ∃ q ∈ earlier, q.asked = ask.asked ∧ ∃ v, explainFresh server q = .ok v ∧
    payload = v.2.cachePayload ∧ analysed server ask = .ok v.1

/-- If a request is answered from the cache, then by what stands for its own analysis. -/
def Transparent (server : Server) (digest : KeyParts → String) (earlier : List Arrival)
    (a : Arrival) : Prop :=
  ∀ ask payload, settle server a = .ok ask →
    (cache server digest).hit (tableAfter server digest [] earlier) ask = some payload →
      Current server (settled server earlier) ask payload

/-- The narrative that a model writes for a request. -/
def narrativeOf (server : Server) (ask : Ask) : Option String :=
  narrative (server.explainIn ask.asked.zones) ask.store ask.llm (explainInput ask)

/-- A request that may be answered from the cache finds no narrative where an earlier one for the
same, that was explained and not for a structural view, found none: the model has not come
back. -/
def NotBack (server : Server) (earlier : List Ask) (ask : Ask) : Prop :=
  ask.forceRefresh = false → ask.structural = false →
    ∀ q ∈ earlier, q.asked = ask.asked → q.structural = false →
      (∃ v, explainFresh server q = .ok v) → narrativeOf server q = none →
        narrativeOf server ask = none

theorem mode_of_explainFresh {q : Ask} {v : ExplainResult × ExplainResponse}
    (h : explainFresh server q = .ok v) : v.2.mode = v.1.mode := by
  obtain ⟨-, hresult, hbody⟩ := explainFresh_eq_ok.mp h
  obtain ⟨primary, secondary, hmade⟩ := madeFrom_explainWindow hresult
  obtain ⟨c, roots, -, -, heq⟩ := explainFromResult_eq_ok hmade hbody
  rw [heq]

theorem mode_of_cachePayload {b b' : ExplainResponse} (h : b.cachePayload = b'.cachePayload) :
    b.mode = b'.mode := by
  rw [cachePayload_eq, cachePayload_eq] at h
  have hmode : get (stored b) "mode" = get (stored b') "mode" := by rw [h]
  exact Json.str.inj hmode

section Runs

variable {earlier : List Arrival} {a : Arrival} {ask q : Ask}

/-- Requests for the same, over the same rows, are analysed alike but for the model. -/
theorem explainInput_eq (hrows : ∀ b ∈ earlier, b.store = a.store)
    (hsettle : settle server a = .ok ask) (hq : q ∈ settled server earlier)
    (hasked : q.asked = ask.asked) :
    q.store = ask.store ∧ explainInput q = explainInput ask := by
  obtain ⟨hstore, hjob⟩ := settle_eq_ok hsettle
  obtain ⟨b, hb, hsettleq⟩ := mem_settled.mp hq
  obtain ⟨hqstore, hqjob⟩ := settle_eq_ok hsettleq
  refine ⟨by rw [hqstore, hrows b hb, hstore], ?_⟩
  rw [hasked, hjob] at hqjob
  unfold explainInput
  rw [hasked, Except.ok.inj hqjob]

/-- A request is answered from the cache by what stands for it, exactly if the model has not come
back for it. -/
theorem transparent_iff_notBack (hsha : Function.Injective sha256)
    (hiso : Function.Injective2 server.runtime.isoformat)
    (hrows : ∀ b ∈ earlier, b.store = a.store) (hsettle : settle server a = .ok ask) :
    Transparent server (cacheKey ft sha256) earlier a ↔
      NotBack server (settled server earlier) ask := by
  set digest := cacheKey ft sha256 with hdigest
  set l := settled server earlier with hl
  have hkey : ∀ {b : Asked}, digest (keyParts server b) = digest (keyParts server ask.asked) →
      b = ask.asked := fun h => asked_eq_of_cacheKey hsha hiso h
  have hstands := stands_after (c := cache server digest) l ((cache server digest).key ask)
  have husable : ∀ v : ExplainResult × ExplainResponse,
      (cache server digest).usable v.2.cachePayload = true := by
    intro v
    show (!v.2.cachePayload.isEmpty) = true
    rw [cachePayload_ne_nil]
    rfl
  constructor
  · intro htransparent hrefresh hstructural q hq hasked hqstructural hexplained hno
    obtain ⟨v, hv⟩ := hexplained
    obtain ⟨-, hresult, -⟩ := explainFresh_eq_ok.mp hv
    have hkept : (cache server digest).Kept q v :=
      kept_iff.mpr ⟨hv, (mode_iff hresult).mpr hno, hqstructural⟩
    have hqkey : (cache server digest).key q = (cache server digest).key ask :=
      congrArg (fun b => digest (keyParts server b)) hasked
    cases hentry : ((cache server digest).after [] l).lookup ((cache server digest).key ask) with
    | none =>
      rw [hentry] at hstands
      exact absurd hkept (hstands q hq hqkey v)
    | some payload =>
      rw [hentry] at hstands
      obtain ⟨v', rfl, older, q', newer, -, -, hkept', -⟩ := hstands
      have hreads : (cache server digest).reads ask = true := by
        show (!ask.forceRefresh && !ask.structural) = true
        rw [hrefresh, hstructural]
        rfl
      have hhit := hit_eq_some.mpr ⟨hreads, hentry, husable v'⟩
      rw [← tableAfter_eq] at hhit
      obtain ⟨_, -, -, v'', hv'', hpayload, hnow⟩ := htransparent ask _ hsettle hhit
      have hmode : v''.1.mode = "rules" := by
        rw [← mode_of_explainFresh hv'', ← mode_of_cachePayload hpayload,
          mode_of_explainFresh hkept'.1]
        exact (kept_iff.mp hkept').2.1
      exact (mode_iff hnow).mp hmode
  · intro hback ask' payload hsettle' hhit
    obtain rfl : ask = ask' := Except.ok.inj (hsettle.symm.trans hsettle')
    rw [tableAfter_eq] at hhit
    obtain ⟨hreads, hentry, -⟩ := hit_eq_some.mp hhit
    rw [hentry] at hstands
    obtain ⟨v, rfl, older, q, newer, hsplit, hqkey, hkept, -⟩ := hstands
    obtain ⟨hv, hmode, hqstructural⟩ := kept_iff.mp hkept
    have hq : q ∈ l := by simp [hsplit]
    have hasked := hkey hqkey
    have hflags : ask.forceRefresh = false ∧ ask.structural = false := by
      simpa [cache] using hreads
    obtain ⟨-, hresult, -⟩ := explainFresh_eq_ok.mp hv
    have hno := (mode_iff hresult).mp hmode
    have hnow := hback hflags.1 hflags.2 q hq hasked hqstructural ⟨v, hv⟩ hno
    obtain ⟨hstore, hinput⟩ := explainInput_eq hrows hsettle hq hasked
    refine ⟨q, hq, hasked, v, hv, rfl, ?_⟩
    rw [hasked, hstore, hinput] at hresult hno
    exact (explainWindow_of_narrative hnow hno).trans hresult

end Runs

/-- In every run of requests over the same rows, whatever the model does: each request that is
answered from the cache is answered by what stands for its own analysis, exactly if the model
never comes back between two requests for the same. -/
theorem run_transparent_iff (hsha : Function.Injective sha256)
    (hiso : Function.Injective2 server.runtime.isoformat) {run : List Arrival} {store : Store}
    (hrows : ∀ a ∈ run, a.store = store) :
    (∀ earlier a later, run = earlier ++ a :: later →
        Transparent server (cacheKey ft sha256) earlier a) ↔
      ∀ earlier a later, run = earlier ++ a :: later → ∀ ask, settle server a = .ok ask →
        NotBack server (settled server earlier) ask := by
  have hsame : ∀ {earlier a later}, run = earlier ++ a :: later → ∀ b ∈ earlier,
      b.store = a.store := by
    rintro earlier a later rfl b hb
    rw [hrows b (by simp [hb]), hrows a (by simp)]
  constructor
  · intro h earlier a later hrun ask hsettle
    exact (transparent_iff_notBack hsha hiso (hsame hrun) hsettle).mp (h earlier a later hrun)
  · intro h earlier a later hrun ask payload hsettle
    exact (transparent_iff_notBack hsha hiso (hsame hrun) hsettle).mpr
      (h earlier a later hrun ask hsettle) ask payload hsettle

/-! A model that fails once, and then has a narrative. -/

/-- Instants are written with their zone. -/
def zonedServer : Server :=
  { sampleServer with
    runtime :=
      { sampleServer.runtime with
        isoformat := fun zone t => String.ofList (intText t ++ ' ' :: intText zone) } }

theorem isoformat_zonedServer : Function.Injective2 zonedServer.runtime.isoformat := by
  intro z z' t t' h
  have hend : ∀ z : ℤ, Ended (' ' :: intText z) := by
    intro z c hc
    obtain rfl : ' ' = c := Option.some.inj hc
    rfl
  obtain ⟨ht, hz⟩ := int_append_inj (hend z) (hend z') (String.ofList_injective h)
  exact ⟨intText_inj (List.cons.inj hz).2, ht⟩

def askingOverrides : OverrideInput := ⟨some "24h", some 10, some 8, some "openai", some true, none⟩

/-- The hour of the errors, to be told of by a model. -/
def askingArrival (llm : Llm) : Arrival :=
  let a := sampleArrival "default" errorRows
  { a with request := { a.request with overrides := askingOverrides }, llm := llm }

def askingAsk (llm : Llm) : Ask :=
  { sampleAsk "default" errorRows with
    asked := ⟨⟨0, 3600000000⟩, ⟨0, 0⟩, none, none, none, "default", ⟨"24h", 10, 8, "openai", true⟩⟩
    llm := llm }

def failingModel : Llm := fun _ => none

def workingModel : Llm := fun _ => some "The logins of checkout fail."

def outage : List Arrival := [askingArrival failingModel, askingArrival workingModel]

theorem settle_asking (llm : Llm) :
    settle zonedServer (askingArrival llm) = .ok (askingAsk llm) := by
  have hscope : bindRequestScope false none none (some "default") = .ok "default" := by decide
  have hday : parseBaselineWindow asciiLowering "24h" "baseline_window" = .ok "24h" :=
    (parseBaselineWindow_checks _).accepts _ serverDefaults_withinBounds.1
  have hresolve : resolveQueryOverrides asciiLowering id askingOverrides none serverDefaults false =
      .ok ⟨"24h", 10, 8, "openai", true⟩ := by
    unfold resolveQueryOverrides
    show (parseBaselineWindow asciiLowering "24h" "baseline_window" >>= fun _ => _) = _
    rw [hday]
    rfl
  unfold settle
  show ((bindRequestScope false none none (some "default")).mapError RouteError.scope >>=
    fun _ => _) = _
  rw [hscope]
  show ((resolveQueryOverrides asciiLowering id askingOverrides none serverDefaults false).mapError
    RouteError.overrides >>= fun _ => _) = _
  rw [hresolve]
  rfl

theorem sample_run_transparent_iff :
    (∀ earlier a later, outage = earlier ++ a :: later →
        Transparent zonedServer (cacheKey TelemetryKeyLaws.ratioText id) earlier a) ↔
      ∀ earlier a later, outage = earlier ++ a :: later → ∀ ask,
        settle zonedServer a = .ok ask → NotBack zonedServer (settled zonedServer earlier) ask := by
  have hrows : ∀ a ∈ outage, a.store = errorRows := by
    intro a ha
    simp only [outage, List.mem_cons, List.not_mem_nil, or_false] at ha
    rcases ha with rfl | rfl <;> rfl
  exact run_transparent_iff Function.injective_id isoformat_zonedServer hrows

/-- The explanation without a narrative is answered again when the model has one. -/
theorem outage_not_transparent :
    ¬∀ earlier a later, outage = earlier ++ a :: later →
      Transparent zonedServer (cacheKey TelemetryKeyLaws.ratioText id) earlier a := by
  intro h
  have hsettled : settled zonedServer [askingArrival failingModel] = [askingAsk failingModel] := by
    rw [settled, List.filterMap_cons, settle_asking]
    rfl
  have hrows : ∀ b ∈ [askingArrival failingModel],
      b.store = (askingArrival workingModel).store := by
    intro b hb
    rw [List.mem_singleton.mp hb]
    rfl
  have hback := (transparent_iff_notBack Function.injective_id isoformat_zonedServer hrows
    (settle_asking workingModel)).mp (h _ _ [] rfl)
  rw [hsettled] at hback
  have hexplained : (explainFresh zonedServer (askingAsk failingModel)).toOption.isSome = true := by
    decide +kernel
  obtain ⟨v, hv⟩ := Option.isSome_iff_exists.mp hexplained
  have hno := hback rfl rfl (askingAsk failingModel) (List.mem_singleton_self _) rfl rfl
    ⟨v, eq_ok_of_toOption hv⟩ (by decide +kernel)
  have hyes : narrativeOf zonedServer (askingAsk workingModel) =
      some "The logins of checkout fail." := by
    decide +kernel
  rw [hyes] at hno
  cases hno

end Raglogs.CacheTransparency

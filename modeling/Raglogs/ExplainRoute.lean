import Raglogs.MarkdownReports
import Raglogs.Memos
import Raglogs.QueryOverrides
import Raglogs.Scopes
import Raglogs.Timestamps

/-!
The route that explains a window. The scope, the overrides and the window of a request are
settled first. A request may then be answered from the stored bodies of its key; any other is
explained, and the body of an explanation that no language model wrote is stored.
-/

namespace Raglogs.ExplainRoute

open Durations EvidencePackets ExplainSchema Explanations LogEntries MarkdownReports
  QueryOverrides Scopes Text

open Timestamps (DateTime)

structure ExplainRequest where
  since : Option String
  fromTime : Option DateTime
  toTime : Option DateTime
  service : Option String
  env : Option String
  ingestionJobId : Option String
  forceRefresh : Bool
  markdown : Bool
  scope : Option String
  structural : Bool
  overrides : OverrideInput

/-- What the answers of a server depend on besides its rows. -/
structure Server where
  explain : ExplainEnvironment
  runtime : Runtime
  authEnabled : Bool
  repr : String → String
  parseUuid : String → Option ℕ

/-- Explain windows whose bounds are written in some zones. -/
def Server.explainIn (server : Server) (zones : Zones) : ExplainEnvironment :=
  let e := server.explain
  { e with evidence := { e.evidence with formats := { e.evidence.formats with zones := zones } } }

def Server.runtimeIn (server : Server) (zones : Zones) : Runtime :=
  { server.runtime with zones := zones }

/-- A request as it arrives: who asks, when, and the rows and the model that it finds. -/
structure Arrival where
  request : ExplainRequest
  queryScope : Option String
  principal : Option AuthPrincipal
  now : Timestamp
  store : Store
  llm : Llm

/-- Why a request has no answer: it is refused as it is settled, or something was raised while
it was answered, whose text is the detail of the response. -/
inductive RouteError (E : Type)
  | scope (e : ScopeResolutionError)
  | overrides (e : Raised)
  | window (e : WindowError)
  | badJob
  | failed (e : E)

/-- What is raised while a window is explained or a stored body is read. -/
inductive ExplainFailure
  /-- A filter with a NUL, which the driver of the database does not send. -/
  | unsendable
  | analysis (e : ExplainError)
  | payload (e : PayloadError)

/-- What a request asks for, once it is settled. -/
structure Asked where
  window : TimeWindow
  zones : Zones
  service : Option String
  env : Option String
  ingestionJobId : Option String
  scope : String
  overrides : ResolvedOverrides

/-- A settled request, with the rows and the model that it finds. -/
structure Ask where
  asked : Asked
  job : Option ℕ
  forceRefresh : Bool
  markdown : Bool
  structural : Bool
  store : Store
  llm : Llm

variable (server : Server)

def parseJob {E : Type} (ingestionJobId : Option String) : Except (RouteError E) (Option ℕ) :=
  match truthy ingestionJobId with
  | none => .ok none
  | some text => ((server.parseUuid text).map fun job => Except.ok (some job)).getD (.error .badJob)

/-- A bound keeps the zone that it is given in; one that is not given, or has none, is in UTC. -/
def resolveZones (since : Option String) (fromTime toTime : Option DateTime) : Zones :=
  let zone (t : Option DateTime) := (t.bind DateTime.offset).getD 0
  if (truthy since).isSome then ⟨0, 0⟩ else ⟨zone fromTime, zone toTime⟩

/-- Settle the scope, the overrides, the window and the job of a request. -/
def settle (a : Arrival) : Except (RouteError ExplainFailure) Ask := do
  let r := a.request
  let scope ← (bindRequestScope server.authEnabled a.principal a.queryScope r.scope).mapError .scope
  let overrides ← (resolveQueryOverrides server.runtime.lowering server.repr r.overrides
    (a.principal.bind AuthPrincipal.configJson) server.runtime.settings
    server.authEnabled).mapError .overrides
  let window ← (resolveWindow server.runtime.lowering a.now r.since
    (r.fromTime.map DateTime.instant) (r.toTime.map DateTime.instant)).mapError .window
  let job ← parseJob server r.ingestionJobId
  let zones := resolveZones r.since r.fromTime r.toTime
  return ⟨⟨window, zones, r.service, r.env, r.ingestionJobId, scope, overrides⟩, job,
    r.forceRefresh, r.markdown, r.structural, a.store, a.llm⟩

/-- The values that a cache key is the digest of. -/
structure KeyParts where
  windowStart : String
  windowEnd : String
  service : Option String
  env : Option String
  ingestionJobId : Option String
  scope : String
  overrides : ResolvedOverrides

def keyParts (a : Asked) : KeyParts :=
  ⟨server.runtime.isoformat a.zones.start a.window.start,
    server.runtime.isoformat a.zones.stop a.window.stop, a.service, a.env, a.ingestionJobId,
    a.scope, a.overrides⟩

/-- The overrides say whether a model may be asked. -/
def noLlm (a : Asked) : Bool := !a.overrides.llmEnabled

def explainInput (a : Ask) : ExplainInput where
  filter := ⟨a.asked.window.start, a.asked.window.stop, a.asked.scope, a.asked.service, a.asked.env,
    a.job⟩
  noLlm := noLlm a.asked
  maxClusters := a.asked.overrides.maxClusters
  baselineWindow := some a.asked.overrides.baselineWindow
  maxEvidenceItems := some a.asked.overrides.maxEvidenceItems
  llmProvider := some a.asked.overrides.llmProvider

/-- A query with these texts reaches the database: its driver sends no NUL. -/
def sendable (scope : String) (filters : List (Option String)) : Bool :=
  nulFree scope && filters.all fun text => (truthy text).all nulFree

/-- What is made of queries with these texts. -/
def queried {α : Type} (scope : String) (filters : List (Option String))
    (made : Except (RouteError ExplainFailure) α) : Except (RouteError ExplainFailure) α :=
  if sendable scope filters then made else .error (.failed .unsendable)

theorem queried_eq_ok {α : Type} {scope : String} {filters : List (Option String)}
    {made : Except (RouteError ExplainFailure) α} {value : α} :
    queried scope filters made = .ok value ↔ sendable scope filters = true ∧ made = .ok value := by
  unfold queried
  split
  · rename_i h
    exact ⟨fun hmade => ⟨h, hmade⟩, And.right⟩
  · rename_i h
    exact iff_of_false (fun hmade => nomatch hmade) fun hmade => h hmade.1

/-- Explain, and make the body of it. The structural view of a request, which is never stored, is
not made here. -/
def explainFresh (a : Ask) :
    Except (RouteError ExplainFailure) (ExplainResult × ExplainResponse) := do
  let result ← queried a.asked.scope [a.asked.service, a.asked.env]
    ((explainWindow (server.explainIn a.asked.zones) a.store a.llm (explainInput a)).mapError
      fun e => .failed (.analysis e))
  let body ← (explainFromResult (server.runtimeIn a.asked.zones) result (noLlm a.asked) false
    a.asked.scope (some a.asked.overrides.llmProvider)).mapError fun e => .failed (.payload e)
  return (result, body)

def maybeAddMarkdown (body : ExplainResponse) (result : ExplainResult) (a : Ask) :
    ExplainResponse :=
  if a.markdown then
    { body with
      markdown := some (renderIncidentReport (server.runtimeIn a.asked.zones) result none
        a.asked.env) }
  else body

/-- Answer from a stored payload. -/
def answerCached (a : Ask) (payload : Fields) :
    Except (RouteError ExplainFailure) ExplainResponse := do
  let w := a.asked.window
  let rt := server.runtimeIn a.asked.zones
  let body ← (explainFromCached rt payload w.start w.stop (noLlm a.asked) a.asked.scope
    (some a.asked.overrides.llmProvider)).mapError fun e => .failed (.payload e)
  let result ← (explainResultFromPayload rt (body.modelDump false) w.start
    w.stop).mapError fun e => .failed (.payload e)
  return maybeAddMarkdown server body result a

/-- The route over the stored payloads, for a digest of the key. -/
def cache (digest : KeyParts → String) :
    Memos.Cache String Ask (ExplainResult × ExplainResponse) Fields ExplainResponse
      (RouteError ExplainFailure) where
  key a := digest (keyParts server a.asked)
  reads a := !a.forceRefresh && !a.structural
  usable payload := !payload.isEmpty
  replay := answerCached server
  compute := explainFresh server
  answer a v := maybeAddMarkdown server v.2 v.1 a
  keeps a v := v.1.mode == "rules" && !a.structural
  encode v := v.2.cachePayload

/-- A request that is not settled leaves the stored bodies as they are. -/
def explainEndpoint (digest : KeyParts → String) (table : List (String × Fields)) (a : Arrival) :
    Except (RouteError ExplainFailure) ExplainResponse × List (String × Fields) :=
  match settle server a with
  | .error e => (.error e, table)
  | .ok ask => (cache server digest).serve table ask

/-- The stored bodies after some requests. -/
def tableAfter (digest : KeyParts → String) :
    List (String × Fields) → List Arrival → List (String × Fields)
  | table, [] => table
  | table, a :: rest => tableAfter digest (explainEndpoint server digest table a).2 rest

end Raglogs.ExplainRoute

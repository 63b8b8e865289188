import Raglogs.ExplainRoute
import Raglogs.Shortlists
import Raglogs.SimilarSearch

/-!
Questions about the logs. Lines that are near to the question are looked for first, then lines
with one of its words, and then any errors and warnings; what is found is grouped, and the answer
is told from the groups, by a language model or by rules.
-/

namespace Raglogs.Questions

open Collections Durations EvidencePackets ExplainRoute ExplainSchema Grouping LogEntries
  QueryOverrides Regex Regex.Pattern RootCause Scopes SemanticMerge Shortlists SimilarSearch
  SortedDicts Text Wording

/-! The words of a question. -/

section Words

variable (isWord : Char → Bool) (lowering : Lowering)

/-- The texts of the matches from a place on, after skipping the rest of the last one. -/
def findFrom (r : Pattern) : List Char → List Char → ℕ → List String
  | _, [], _ => []
  | before, a :: rest, skip + 1 => findFrom r (a :: before) rest skip
  | before, a :: rest, 0 =>
      match r.matchAt ⟨before, a :: rest⟩ with
      | some m =>
          if m.cursor.after.length ≤ rest.length then
            Cursor.between ⟨before, a :: rest⟩ m.cursor ::
              findFrom r (a :: before) rest (rest.length - m.cursor.after.length)
          else findFrom r (a :: before) rest 0
      | none => findFrom r (a :: before) rest 0

def letter (c : Char) : Bool := ('a' ≤ c && c ≤ 'z') || ('A' ≤ c && c ≤ 'Z')

def wordPattern : Pattern :=
  concat [.boundary isWord, .char letter,
    .star (.char fun c => letter c || ('0' ≤ c && c ≤ '9') || c == '_' || c == '-'),
    .boundary isWord]

def serviceStopWords : List String :=
  ["the", "a", "an", "in", "on", "at", "to", "is", "was", "did", "do", "why", "what", "when", "how",
    "which", "who", "service", "error", "fail", "failed", "not", "working", "happening", "going",
    "causing", "there", "are", "any", "all", "and", "or", "but", "for", "with", "my", "our", "your"]

def extractKeywords (question : String) : List String :=
  (findFrom (wordPattern isWord) [] (lowering.lower question).toList 0).filter fun w =>
    !serviceStopWords.contains w && 2 < w.length

def levelKeywords : List (String × List String) :=
  [("error", ["error", "fail", "failure", "failed", "exception", "crash", "broken", "unavailable",
      "refused", "denied", "invalid", "unauthorized"]),
    ("warn", ["warn", "warning", "slow", "latency", "timeout", "degraded"]),
    ("info", ["start", "started", "deploy", "restart", "launch"])]

def inferLevelBias (question : String) : Option String :=
  (levelKeywords.find? fun p => mentions lowering p.2 question).map Prod.fst

/-- The start of a text by a keyword whose underscores stand for any character. -/
def likeStart : List Char → List Char → Bool
  | [], _ => true
  | _ :: _, [] => false
  | k :: ks, c :: cs => (k == '_' || k == c) && likeStart ks cs

/-- A keyword anywhere in a text, as the database compares them. -/
def ilike (text keyword : String) : Bool :=
  (lowering.lower text).toList.tails.any (likeStart (lowering.lower keyword).toList)

end Words

/-! The rows. -/

structure LogEmbedding where
  logEntryId : EntryId
  embedding : List ℚ

/-- The rows of the lines and their vectors, one vector for a line at most. -/
structure AskStore where
  logs : LogStore
  embeddings : List LogEmbedding
  embeddings_nodup : (embeddings.map LogEmbedding.logEntryId).Nodup

/-- The filters of a search. -/
structure AskFilter where
  windowStart : Timestamp
  windowEnd : Timestamp
  service : Option String
  ingestionJobId : Option ℕ
  scope : String

/-- The scope, the window, the service and the job. -/
def AskFilter.accepts (f : AskFilter) (e : LogEntry) : Bool :=
  e.scope == f.scope &&
    e.timestamp.any (fun t => f.windowStart ≤ t && t ≤ f.windowEnd) &&
    (match truthy f.service with
      | some service => e.service == some service
      | none => true) &&
    (match f.ingestionJobId with
      | some job => e.ingestionJobId == some job
      | none => true)

def hasLevel (levelBias : Option String) (e : LogEntry) : Bool :=
  match levelBias with
  | some level => e.level == some level
  | none => true

def storedEmbeddingDims : ℕ := 1536

/-- What a search depends on besides the rows. -/
structure AskEnvironment where
  isWord : Char → Bool
  lowering : Lowering
  isoformat : Timestamp → String
  /-- None for the distance of a vector without direction, which is no number. -/
  cosineDistance : List ℚ → List ℚ → Option ℚ
  /-- One less a number, as the database rounds it. -/
  oneMinus : ℚ → ℚ
  /-- The order in which the database returns rows that it is not told to order. It is read from
  the rows that are returned. -/
  engine : Shuffle LogEntry
  embeddingsProvider : Except MergeError (Provider ℚ)
  semanticTopK : ℤ
  semanticMinSimilarity : ℚ
  llmProvider : String

/-- Why a query has no rows: its driver does not send a text with a NUL, and the database
refuses a limit out of its range and then every query of the transaction. -/
inductive QueryError
  | unsendable
  | refused
deriving DecidableEq

inductive AskError
  | window (e : WindowError)
  | provider (e : MergeError)
  | query (e : QueryError)

variable (env : AskEnvironment) (store : AskStore)

/-- A missing value above all others, as the database orders them. -/
def orTop {α : Type} (value : Option α) : WithTop α := value

/-- The newest rows first, up to a limit. -/
def newest (limit : ℕ) (rows : List LogEntry) : List LogEntry :=
  shortlist limit (fun e => OrderDual.toDual (orTop e.timestamp)) (env.engine.1 rows)

def maxSearchKeywords : ℕ := 6

/-- Rows with one of the first keywords, or any without keywords. -/
def matchesKeywords (keywords : List String) (e : LogEntry) : Bool :=
  keywords.isEmpty || (keywords.take maxSearchKeywords).any fun keyword =>
    e.normalizedMessage.any fun message => ilike env.lowering message keyword

/-- The rows of a query, in a transaction that an earlier query may have aborted. -/
def execute (aborted : Bool) (f : AskFilter) (rows : List LogEntry) :
    Except QueryError (List LogEntry) :=
  if !sendable f.scope [f.service] then .error .unsendable
  else if aborted then .error .refused
  else .ok rows

def searchLogs (aborted : Bool) (keywords : List String) (f : AskFilter)
    (levelBias : Option String) : Except QueryError (List LogEntry) :=
  execute aborted f (newest env 500 (store.logs.entries.filter fun e =>
    matchesKeywords env keywords e && f.accepts e && hasLevel levelBias e))

/-- The distance of a line that has a vector. -/
def distanceOf (vector : List ℚ) (e : LogEntry) : Option (Option ℚ) :=
  (store.embeddings.find? fun m => m.logEntryId == e.id).map fun m =>
    env.cosineDistance m.embedding vector

/-- What lines are ordered by, the nearest first. -/
def farness (vector : List ℚ) (e : LogEntry) : WithTop ℚ :=
  databaseOrder (distanceOf env store vector e).join

/-- A distance is near enough if one less it is, in the order of the database. -/
def nearEnough (distance : Option ℚ) : Bool :=
  env.semanticMinSimilarity ≤ databaseOrder (distance.map env.oneMinus)

/-- The limits that the database takes, as an integer of it. -/
def limitTaken (limit : ℤ) : Bool := 0 ≤ limit && limit < 2 ^ 31

/-- The lines that are nearest to a vector, and near enough. The search is exact: all the lines
are looked through, and not those that an index proposes. -/
def searchLogsSemantic (vector : List ℚ) (f : AskFilter) (levelBias : Option String) :
    Except QueryError (List LogEntry) :=
  if vector.length ≠ storedEmbeddingDims then .ok []
  else
    let near := store.logs.entries.filter fun e =>
      (distanceOf env store vector e).any (nearEnough env) && f.accepts e && hasLevel levelBias e
    execute (!limitTaken env.semanticTopK) f
      (shortlist env.semanticTopK.toNat (farness env store vector) (env.engine.1 near))

def fallbackLevels : List String := ["error", "fatal", "warn", "critical"]

/-- The errors and warnings of a window, whatever their words. -/
def fetchFallbackClusters (aborted : Bool) (f : AskFilter) : Except QueryError (List LogEntry) :=
  execute aborted f (newest env 500 (store.logs.entries.filter fun e =>
    e.level.any fallbackLevels.contains && f.accepts e))

inductive RetrievalMode
  | semantic
  | keyword
  | fallback
deriving DecidableEq

def RetrievalMode.text : RetrievalMode → String
  | .semantic => "semantic"
  | .keyword => "keyword"
  | .fallback => "fallback"

/-- The lines near to a question, and whether the transaction was aborted on the way. An error
gives no lines. -/
def semanticHits (provider : Provider ℚ) (question : String) (f : AskFilter)
    (levelBias : Option String) : List LogEntry × Bool :=
  match provider.embedTexts [question] with
  | .ok (vector :: _) =>
      match searchLogsSemantic env store vector f levelBias with
      | .ok hits => (hits, false)
      | .error e => ([], e == .refused)
  | _ => ([], false)

/-- The lines that an answer is told from, and how they were found. -/
def retrieveMatchingLogs (question : String) (f : AskFilter) :
    Except AskError (List LogEntry × RetrievalMode) := do
  let keywords := extractKeywords env.isWord env.lowering question
  let levelBias := inferLevelBias env.lowering question
  let provider ← env.embeddingsProvider.mapError .provider
  let available ← provider.isAvailable.mapError .provider
  let near :=
    if available then semanticHits env store provider question f levelBias else ([], false)
  if near.1 ≠ [] then return (near.1, .semantic)
  else
    let found ← (searchLogs env store near.2 keywords f levelBias).mapError .query
    if found ≠ [] then return (found, .keyword)
    else
      let fallback ← (fetchFallbackClusters env store near.2 f).mapError .query
      return (fallback, .fallback)

/-! The answer. -/

structure AskCluster where
  message : String
  count : ℕ
  services : List String
  firstSeen : Option String
  lastSeen : Option String
  level : Option String

/-- The first characters of a text. -/
def cut (n : ℕ) (s : String) : String := String.ofList (s.toList.take n)

/-- What lines are grouped by. -/
def groupKey (e : LogEntry) : String :=
  (((truthy e.fingerprint).or (truthy e.normalizedMessage)).or (truthy e.rawMessage)).getD ""

def clusterOfGroup (isoformat : Timestamp → String) (group : List LogEntry) : AskCluster :=
  let timestamps := group.filterMap LogEntry.timestamp
  { message := cut 150 ((group.head?.bind fun e =>
      (truthy e.normalizedMessage).or (truthy e.rawMessage)).getD "")
    count := group.length
    services := inOrder (group.filterMap fun e => truthy e.service).toFinset
    firstSeen := timestamps.min?.map isoformat
    lastSeen := timestamps.max?.map isoformat
    level := group.head?.bind LogEntry.level }

/-- The largest groups of some lines. -/
def largestGroups (entries : List LogEntry) (maxClusters : ℤ) : List (String × List LogEntry) :=
  let groups := groupOn groupKey entries
  shortlist (sliceStop maxClusters groups.length)
    (fun g : String × List LogEntry => OrderDual.toDual g.2.length) groups

def clusterLogs (isoformat : Timestamp → String) (entries : List LogEntry) (maxClusters : ℤ) :
    List AskCluster :=
  (largestGroups entries maxClusters).map fun g => clusterOfGroup isoformat g.2

def servicesLabel (c : AskCluster) (otherwise : String) : String :=
  (truthy (some (", ".intercalate c.services))).getD otherwise

def rulesAnswer (question : String) (clusters : List AskCluster) (total : ℕ) : String :=
  match clusters with
  | [] => "No relevant log patterns found for: " ++ question
  | top :: _ =>
      "\n".intercalate (
        ["The most likely related issue: " ++ top.message, "",
          "Observed " ++ toString top.count ++ " times in " ++
            (if top.services.isEmpty then "unknown service" else ", ".intercalate top.services) ++
            ".", "", "Supporting evidence:"] ++
        (clusters.map fun c => "- " ++ toString c.count ++ "x '" ++ cut 80 c.message ++ "' in " ++
          if c.services.isEmpty then "unknown" else ", ".intercalate c.services) ++
        ["", "Total matching log events: " ++ toString total])

def evidenceItem (c : AskCluster) : String :=
  toString c.count ++ " events: '" ++ cut 80 c.message ++ "' in " ++ servicesLabel c "unknown"

/-- The elements up to a limit, if there is one. -/
def upTo {α : Type} (limit : Option ℤ) (l : List α) : List α :=
  match limit with
  | some n => l.take (sliceStop n l.length)
  | none => l

/-- What a language model is told. -/
structure AskPacket where
  question : String
  windowStart : String
  windowEnd : String
  note : Option String
  retrievalMode : String
  clusters : List AskCluster
  totalMatchingLogs : ℕ

/-- The language models: nothing for one that is not set up, and its text unless it raises. -/
abbrev AskLlm := String → Option (AskPacket → Option String)

structure AskResult where
  question : String
  answerText : String
  evidenceItems : List String
  clustersUsed : List AskCluster
  totalMatches : ℕ
  mode : String
  retrievalMode : RetrievalMode

def fallbackNote : String :=
  "Keyword search found no direct matches; showing most significant error/warn patterns in the " ++
    "window."

/-- The caps and the model of a question. -/
structure AskOptions where
  noLlm : Bool
  maxClusters : Option ℤ
  maxEvidenceItems : Option ℤ
  llmProvider : Option String

/-- The text of a language model, if one is asked and has something to say. -/
def llmAnswer (llm : AskLlm) (o : AskOptions) (packet : AskPacket) : Option String :=
  let provider := o.llmProvider.getD env.llmProvider
  if !o.noLlm && provider != "disabled" then
    truthy ((llm provider).bind fun model => model packet)
  else none

/-- The answer from the lines that were found. -/
def answerFrom (llm : AskLlm) (question : String) (f : AskFilter) (o : AskOptions)
    (matching : List LogEntry) (mode : RetrievalMode) : AskResult :=
  if matching = [] then
    { question := question
      answerText := "No log activity found in the requested window. Try a wider time range with " ++
        "--since."
      evidenceItems := ["No logs found in window"]
      clustersUsed := []
      totalMatches := 0
      mode := "rules"
      retrievalMode := mode }
  else
    let clusters := clusterLogs env.isoformat matching (o.maxClusters.getD 8)
    let written := llmAnswer env llm o
      { question := question
        windowStart := env.isoformat f.windowStart
        windowEnd := env.isoformat f.windowEnd
        note := if mode = .fallback then some fallbackNote else none
        retrievalMode := mode.text
        clusters := clusters
        totalMatchingLogs := matching.length }
    { question := question
      answerText := written.getD (rulesAnswer question clusters matching.length)
      evidenceItems := upTo o.maxEvidenceItems (clusters.map evidenceItem)
      clustersUsed := clusters
      totalMatches := matching.length
      mode := if written.isSome then "llm" else "rules"
      retrievalMode := mode }

/-- The window of a question, the last day unless another is given. -/
def windowOrLastDay (now : Timestamp) (window : Option TimeWindow) : Except AskError TimeWindow :=
  match window with
  | some window => .ok window
  | none => (resolveWindow env.lowering now (some "24h") none none).mapError .window

def answerQuestion (llm : AskLlm) (question : String) (now : Timestamp) (window : Option TimeWindow)
    (service : Option String) (ingestionJobId : Option ℕ) (scope : String) (o : AskOptions) :
    Except AskError AskResult := do
  let window ← windowOrLastDay env now window
  let f : AskFilter := ⟨window.start, window.stop, service, ingestionJobId, scope⟩
  let (matching, mode) ← retrieveMatchingLogs env store question f
  return answerFrom env llm question f o matching mode

/-! The route. -/

structure AskRequest where
  question : String
  since : Option String
  fromTime : Option Timestamp
  toTime : Option Timestamp
  service : Option String
  ingestionJobId : Option String
  scope : Option String
  overrides : OverrideInput

/-- A request as it arrives, with the rows and the models that it finds. -/
structure AskArrival where
  request : AskRequest
  queryScope : Option String
  principal : Option AuthPrincipal
  now : Timestamp
  store : AskStore
  llm : AskLlm

structure AskResponse where
  schemaVersion : String
  question : String
  answer : String
  evidence : List String
  clusters : List AskCluster
  totalMatches : ℕ
  retrievalMode : String
  llm : LlmProvenance
  renderedText : String
  mode : String

/-- What a request asks for, once it is settled. -/
structure Question where
  scope : String
  overrides : ResolvedOverrides
  window : Option TimeWindow
  job : Option ℕ

variable (server : Server)

/-- The window that a request asks for, if it asks for one. -/
def requestedWindow (a : AskArrival) : Except (RouteError AskError) (Option TimeWindow) :=
  let r := a.request
  if (truthy r.since).isSome || r.fromTime.isSome then
    ((resolveWindow server.runtime.lowering a.now r.since r.fromTime
      r.toTime).mapError RouteError.window).map some
  else .ok none

def settleQuestion (a : AskArrival) : Except (RouteError AskError) Question := do
  let r := a.request
  let scope ← (bindRequestScope server.authEnabled a.principal a.queryScope r.scope).mapError .scope
  let overrides ← (resolveQueryOverrides server.runtime.lowering server.repr r.overrides
    (a.principal.bind AuthPrincipal.configJson) server.runtime.settings
    server.authEnabled).mapError .overrides
  let window ← requestedWindow server a
  let job ← parseJob server r.ingestionJobId
  return ⟨scope, overrides, window, job⟩

/-- How a settled question is to be answered. -/
def Question.options (q : Question) : AskOptions where
  noLlm := !q.overrides.llmEnabled
  maxClusters := some q.overrides.maxClusters
  maxEvidenceItems := some q.overrides.maxEvidenceItems
  llmProvider := some q.overrides.llmProvider

/-- The body of an answer. -/
def Question.response (q : Question) (result : AskResult) : AskResponse where
  schemaVersion := schemaVersion
  question := result.question
  answer := result.answerText
  evidence := result.evidenceItems
  clusters := result.clustersUsed
  totalMatches := result.totalMatches
  retrievalMode := result.retrievalMode.text
  llm := llmFromMode server.runtime result.mode
    (q.overrides.llmEnabled && q.overrides.llmProvider != "disabled")
    (some q.overrides.llmProvider)
  renderedText := result.answerText
  mode := result.mode

def askEndpoint (a : AskArrival) : Except (RouteError AskError) AskResponse := do
  let q ← settleQuestion server a
  let result ← (answerQuestion env a.store a.llm a.request.question a.now q.window a.request.service
    q.job q.scope q.options).mapError .failed
  return q.response server result

end Raglogs.Questions

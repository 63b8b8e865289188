import Mathlib.Data.Prod.Lex
import Raglogs.Retention
import Raglogs.Workers

/-!
The purge of expired rows. A raw chunk deletes log entries, and their embeddings and
cluster memberships go with them by a foreign key; a summary chunk deletes cluster
embeddings, explanations and cluster runs, and the clusters of a run go with it. A dry
run counts with queries of its own. A run purges its scopes in turn, in batches of one
chunk of each tier, and ends with a stamp or with another purge in the queue.
-/

namespace Raglogs.Purge

open Collections KeyedTables LogEntries Retention Text Workers

/-! Tables. -/

/-- A log entry with the time at which it was stored. -/
structure StoredEntry where
  entry : LogEntry
  createdAt : Timestamp

def StoredEntry.id (e : StoredEntry) : ℕ := e.entry.id

structure LogEmbedding where
  id : ℕ
  logEntryId : ℕ

structure ClusterEmbedding where
  id : ℕ
  scope : String
  lastSeen : Option Timestamp
  createdAt : Timestamp
  updatedAt : Timestamp

structure Explanation where
  id : ℕ
  scope : String
  createdAt : Timestamp

structure ClusterRun where
  id : ℕ
  scope : String
  windowEnd : Timestamp
  createdAt : Timestamp

structure Cluster where
  id : ℕ
  clusterRunId : ℕ

structure ClusterMember where
  id : ℕ
  clusterId : ℕ
  logEntryId : ℕ

/-- The tables that a purge deletes from. -/
@[ext]
structure Store where
  logEntries : Table StoredEntry.id
  logEmbeddings : Table LogEmbedding.id
  clusterEmbeddings : Table ClusterEmbedding.id
  explanations : Table Explanation.id
  clusterRuns : Table ClusterRun.id
  clusters : Table Cluster.id
  clusterMembers : Table ClusterMember.id

def Store.empty : Store :=
  ⟨.empty, .empty, .empty, .empty, .empty, .empty, .empty⟩

/-- What a purge uses of the database. -/
structure PurgeDb where
  store : Store
  scopeRetention : Table ScopeRetention.scope
  /-- The values that were written as the time of the last purge, oldest first. -/
  stamps : List Timestamp
  workerJobs : List WorkerJob
  /-- The counters of purged rows, by kind. -/
  purgedRows : List (String × ℕ)

structure PurgeCounts where
  raw : ℕ
  summary : ℕ
  embedding : ℕ
  scopes : List String
  moreRemaining : Bool
deriving DecidableEq

namespace PurgeCounts

def zero : PurgeCounts := ⟨0, 0, 0, [], false⟩

/-- Append a scope that is not there yet. -/
def note (c : PurgeCounts) (scope : String) : PurgeCounts :=
  if c.scopes.contains scope then c else { c with scopes := c.scopes ++ [scope] }

def add (c other : PurgeCounts) : PurgeCounts :=
  other.scopes.foldl note
    { raw := c.raw + other.raw
      summary := c.summary + other.summary
      embedding := c.embedding + other.embedding
      scopes := c.scopes
      moreRemaining := c.moreRemaining || other.moreRemaining }

def isEmpty (c : PurgeCounts) : Bool := c.raw == 0 && c.summary == 0 && c.embedding == 0

end PurgeCounts

/-! Expired rows. -/

/-- A row with a scope and the instant that its retention is counted from. -/
class Expiring (α : Type) where
  scope : α → String
  expiry : α → Timestamp

/-- Time in store, not the time of the event. -/
instance : Expiring StoredEntry := ⟨fun e => e.entry.scope, StoredEntry.createdAt⟩

instance : Expiring ClusterEmbedding :=
  ⟨ClusterEmbedding.scope, fun e => (e.lastSeen.or (some e.updatedAt)).getD e.createdAt⟩

instance : Expiring Explanation := ⟨Explanation.scope, Explanation.createdAt⟩

instance : Expiring ClusterRun :=
  ⟨ClusterRun.scope, fun r => (some r.windowEnd).getD r.createdAt⟩

section Statements

variable {α : Type} [Expiring α] {key : α → ℕ}

def expired (scope : String) (cutoff : Timestamp) (row : α) : Bool :=
  Expiring.scope row == scope && decide (Expiring.expiry row < cutoff)

/-- Ids of a scope's expired rows, the oldest first, up to a limit. -/
def selectExpiredIds (scope : String) (cutoff : Timestamp) (limit : ℕ) (t : Table key) : List ℕ :=
  t.select (expired scope cutoff) (fun row => toLex (Expiring.expiry row, key row)) limit

def countExpired (scope : String) (cutoff : Timestamp) (t : Table key) : ℕ :=
  t.count (expired scope cutoff)

end Statements

namespace Store

def selectExpiredLogEntryIds (scope : String) (cutoff : Timestamp) (limit : ℕ) (s : Store) :
    List ℕ :=
  selectExpiredIds scope cutoff limit s.logEntries

def countExpiredLogEntries (scope : String) (cutoff : Timestamp) (s : Store) : ℕ :=
  countExpired scope cutoff s.logEntries

def countExpiredLogEmbeddings (scope : String) (cutoff : Timestamp) (s : Store) : ℕ :=
  s.logEntries.countJoined LogEmbedding.logEntryId (expired scope cutoff) s.logEmbeddings

def countLogEmbeddings (entryIds : List ℕ) (s : Store) : ℕ :=
  s.logEmbeddings.count (fun m => entryIds.contains m.logEntryId)

def countClusterMembers (entryIds : List ℕ) (s : Store) : ℕ :=
  s.clusterMembers.count (fun m => entryIds.contains m.logEntryId)

def deleteLogEntries (entryIds : List ℕ) (s : Store) : Store :=
  { s with
    logEntries := s.logEntries.deleteBy StoredEntry.id entryIds
    logEmbeddings := s.logEmbeddings.deleteBy LogEmbedding.logEntryId entryIds
    clusterMembers := s.clusterMembers.deleteBy ClusterMember.logEntryId entryIds }

def selectExpiredClusterEmbeddingIds (scope : String) (cutoff : Timestamp) (limit : ℕ)
    (s : Store) : List ℕ :=
  selectExpiredIds scope cutoff limit s.clusterEmbeddings

def countExpiredClusterEmbeddings (scope : String) (cutoff : Timestamp) (s : Store) : ℕ :=
  countExpired scope cutoff s.clusterEmbeddings

def deleteClusterEmbeddings (embeddingIds : List ℕ) (s : Store) : Store :=
  { s with clusterEmbeddings := s.clusterEmbeddings.deleteBy ClusterEmbedding.id embeddingIds }

def selectExpiredExplanationIds (scope : String) (cutoff : Timestamp) (limit : ℕ) (s : Store) :
    List ℕ :=
  selectExpiredIds scope cutoff limit s.explanations

def countExpiredExplanations (scope : String) (cutoff : Timestamp) (s : Store) : ℕ :=
  countExpired scope cutoff s.explanations

def deleteExplanations (explanationIds : List ℕ) (s : Store) : Store :=
  { s with explanations := s.explanations.deleteBy Explanation.id explanationIds }

def selectExpiredClusterRunIds (scope : String) (cutoff : Timestamp) (limit : ℕ) (s : Store) :
    List ℕ :=
  selectExpiredIds scope cutoff limit s.clusterRuns

def countExpiredClusterRuns (scope : String) (cutoff : Timestamp) (s : Store) : ℕ :=
  countExpired scope cutoff s.clusterRuns

def countExpiredClusters (scope : String) (cutoff : Timestamp) (s : Store) : ℕ :=
  s.clusterRuns.countJoined Cluster.clusterRunId (expired scope cutoff) s.clusters

def countClustersForRuns (runIds : List ℕ) (s : Store) : ℕ :=
  s.clusters.count (fun c => runIds.contains c.clusterRunId)

/-- The clusters of the runs, which are deleted with them. -/
def clustersOf (runIds : List ℕ) (s : Store) : List ℕ :=
  (s.clusters.restrict (fun c => runIds.contains c.clusterRunId)).keys

def deleteClusterRuns (runIds : List ℕ) (s : Store) : Store :=
  { s with
    clusterRuns := s.clusterRuns.deleteBy ClusterRun.id runIds
    clusters := s.clusters.deleteBy Cluster.clusterRunId runIds
    clusterMembers := s.clusterMembers.deleteBy ClusterMember.clusterId (s.clustersOf runIds) }

end Store

/-! Chunks. -/

/-- Count purged rows, unless nothing is purged. -/
def record (kind : String) (count : ℕ) (dryRun : Bool) (db : PurgeDb) : PurgeDb :=
  if dryRun || count == 0 then db
  else { db with purgedRows := db.purgedRows ++ [(kind, count)] }

/-- A delete statement, which a dry run leaves out. -/
def PurgeDb.delete (dryRun : Bool) (statement : Store → Store) (db : PurgeDb) : PurgeDb :=
  if dryRun then db else { db with store := statement db.store }

/-- Delete expired log entries of a scope, up to the limit. -/
def purgeRawChunk (scope : String) (cutoff : Timestamp) (limit : ℕ) (dryRun : Bool)
    (db : PurgeDb) : PurgeCounts × PurgeDb :=
  let ids := db.store.selectExpiredLogEntryIds scope cutoff limit
  if ids.isEmpty then (PurgeCounts.zero, db)
  else
    let embeddingN := db.store.countLogEmbeddings ids
    let memberN := db.store.countClusterMembers ids
    let db := db.delete dryRun (Store.deleteLogEntries ids)
    let counts : PurgeCounts :=
      { PurgeCounts.zero with
        raw := ids.length, embedding := embeddingN, moreRemaining := decide (limit ≤ ids.length) }
    let db := record "raw" counts.raw dryRun db
    let db := record "raw" memberN dryRun db
    (counts, record "embedding" counts.embedding dryRun db)

def purgeClusterEmbeddings (scope : String) (cutoff : Timestamp) (limit : ℕ) (dryRun : Bool)
    (counts : PurgeCounts) (db : PurgeDb) : PurgeCounts × PurgeDb :=
  let ids := db.store.selectExpiredClusterEmbeddingIds scope cutoff limit
  if ids.isEmpty then (counts, db)
  else
    ({ counts with
        embedding := counts.embedding + ids.length
        moreRemaining := counts.moreRemaining || decide (limit ≤ ids.length) },
      record "embedding" ids.length dryRun (db.delete dryRun (Store.deleteClusterEmbeddings ids)))

def purgeExplanations (scope : String) (cutoff : Timestamp) (limit : ℕ) (dryRun : Bool)
    (counts : PurgeCounts) (db : PurgeDb) : PurgeCounts × PurgeDb :=
  let ids := db.store.selectExpiredExplanationIds scope cutoff limit
  if ids.isEmpty then (counts, db)
  else
    ({ counts with
        summary := counts.summary + ids.length
        moreRemaining := counts.moreRemaining || decide (limit ≤ ids.length) },
      record "summary" ids.length dryRun (db.delete dryRun (Store.deleteExplanations ids)))

def purgeClusterRuns (scope : String) (cutoff : Timestamp) (limit : ℕ) (dryRun : Bool)
    (counts : PurgeCounts) (db : PurgeDb) : PurgeCounts × PurgeDb :=
  let ids := db.store.selectExpiredClusterRunIds scope cutoff limit
  if ids.isEmpty then (counts, db)
  else
    let summaryN := ids.length + db.store.countClustersForRuns ids
    ({ counts with
        summary := counts.summary + summaryN
        moreRemaining := counts.moreRemaining || decide (limit ≤ ids.length) },
      record "summary" summaryN dryRun (db.delete dryRun (Store.deleteClusterRuns ids)))

/-- Delete expired cluster embeddings, explanations and runs of a scope. -/
def purgeSummaryChunk (scope : String) (cutoff : Timestamp) (limit : ℕ) (dryRun : Bool)
    (db : PurgeDb) : PurgeCounts × PurgeDb :=
  let (counts, db) := purgeClusterEmbeddings scope cutoff limit dryRun PurgeCounts.zero db
  let (counts, db) := purgeExplanations scope cutoff limit dryRun counts db
  purgeClusterRuns scope cutoff limit dryRun counts db

/-- A chunk of a tier, unless the tier is disabled. -/
def purgeTier (chunk : Timestamp → PurgeDb → PurgeCounts × PurgeDb) (cutoff : Option Timestamp)
    (counts : PurgeCounts) (db : PurgeDb) : PurgeCounts × PurgeDb :=
  match cutoff with
  | none => (counts, db)
  | some cutoff =>
      let (chunkCounts, db) := chunk cutoff db
      (counts.add chunkCounts, db)

variable (lowering : Lowering)

/-- One raw chunk and then one summary chunk of a scope. -/
def purgeScopeBatch (policy : RetentionPolicy) (now : Timestamp) (limit : ℕ) (dryRun : Bool)
    (db : PurgeDb) : Except PurgeError PurgeCounts × PurgeDb :=
  match computeCutoff lowering (some policy.rawInterval) now with
  | .error e => (.error e, db)
  | .ok rawCutoff =>
      let (counts, db) := purgeTier (fun cutoff => purgeRawChunk policy.scope cutoff limit dryRun)
        rawCutoff { PurgeCounts.zero with scopes := [policy.scope] } db
      match computeCutoff lowering (some policy.summaryInterval) now with
      | .error e => (.error e, db)
      | .ok summaryCutoff =>
          let (counts, db) := purgeTier
            (fun cutoff => purgeSummaryChunk policy.scope cutoff limit dryRun)
            summaryCutoff counts db
          (.ok counts, db)

/-- Count the expired rows of a scope. -/
def countScopeExpired (policy : RetentionPolicy) (now : Timestamp) (s : Store) :
    Except PurgeError PurgeCounts := do
  let counts : PurgeCounts := { PurgeCounts.zero with scopes := [policy.scope] }
  let rawCutoff ← computeCutoff lowering (some policy.rawInterval) now
  let counts :=
    match rawCutoff with
    | none => counts
    | some cutoff =>
        { counts with
          raw := s.countExpiredLogEntries policy.scope cutoff
          embedding := counts.embedding + s.countExpiredLogEmbeddings policy.scope cutoff }
  let summaryCutoff ← computeCutoff lowering (some policy.summaryInterval) now
  match summaryCutoff with
  | none => return counts
  | some cutoff =>
      let clusterEmb := s.countExpiredClusterEmbeddings policy.scope cutoff
      let explanations := s.countExpiredExplanations policy.scope cutoff
      let runs := s.countExpiredClusterRuns policy.scope cutoff
      let clusters := s.countExpiredClusters policy.scope cutoff
      return { counts with
        embedding := counts.embedding + clusterEmb
        summary := counts.summary + (explanations + runs + clusters) }

/-! Runs. -/

/-- Every scope that has data or an override, in order. -/
def listScopesToPurge (db : PurgeDb) : List String :=
  let scopes :=
    db.store.logEntries.rows.map Expiring.scope ++
    db.store.clusterEmbeddings.rows.map Expiring.scope ++
    db.store.clusterRuns.rows.map Expiring.scope ++
    db.store.explanations.rows.map Expiring.scope ++
    db.scopeRetention.rows.map ScopeRetention.scope
  sortOn id ((scopes.filter (fun scope => scope ≠ "")).dedup)

/-- The batches of a scope: until one is empty or the limit on their number is reached.
Each is committed. The last result tells whether the limit left rows behind. -/
def purgeBatches (policy : RetentionPolicy) (now : Timestamp) (limit : ℕ)
    (maxChunks : Option ℤ) : ℕ → ℕ → PurgeCounts → PurgeDb →
    Except PurgeError (PurgeCounts × Bool) × PurgeDb
  | 0, _, _, db => (.error .unfinished, db)
  | fuel + 1, chunks, totals, db =>
      match purgeScopeBatch lowering policy now limit false db with
      | (.error e, db) => (.error e, db)
      | (.ok batch, db) =>
          let totals := totals.add batch
          let chunks := chunks + 1
          if batch.isEmpty then (.ok (totals.note policy.scope, false), db)
          else
            match maxChunks with
            | none => purgeBatches policy now limit maxChunks fuel chunks totals db
            | some bound =>
                if bound ≤ chunks then (.ok (totals, batch.moreRemaining), db)
                else purgeBatches policy now limit maxChunks fuel chunks totals db

/-- A batch that is not empty deletes one of these rows. -/
def Store.size (s : Store) : ℕ :=
  s.logEntries.size + s.clusterEmbeddings.size + s.explanations.size + s.clusterRuns.size

/-- Purge some scopes in turn. A policy that cannot be read skips its scope. -/
def purgeScopes (cfg : Settings) (dryRun : Bool) (maxChunks : Option ℤ) (clock : Timestamp)
    (limit : ℕ) : List String → PurgeCounts → Bool → PurgeDb →
    Except PurgeError (PurgeCounts × Bool) × PurgeDb
  | [], totals, moreRemaining, db => (.ok (totals, moreRemaining), db)
  | item :: rest, totals, moreRemaining, db =>
      let policy := resolveScopePolicy cfg db.scopeRetention item
      match validatePolicyIntervals lowering policy with
      | .error e =>
          if e.isValueError then
            purgeScopes cfg dryRun maxChunks clock limit rest (totals.note item) moreRemaining db
          else (.error e, db)
      | .ok () =>
          if dryRun then
            match countScopeExpired lowering policy clock db.store with
            | .error e => (.error e, db)
            | .ok counts =>
                purgeScopes cfg dryRun maxChunks clock limit rest (totals.add counts)
                  moreRemaining db
          else
            match purgeBatches lowering policy clock limit maxChunks (db.store.size + 1) 0
                totals db with
            | (.error e, db) => (.error e, db)
            | (.ok (totals, more), db) =>
                purgeScopes cfg dryRun maxChunks clock limit rest totals (moreRemaining || more) db

/-- The scopes of a call: the one that is named, or all of them. -/
def scopesOf (scope : Option String) (db : PurgeDb) : List String :=
  match truthy scope with
  | some scope => [scope]
  | none => listScopesToPurge db

def chunkLimit (cfg : Settings) : ℕ := (max 1 cfg.purgeChunkSize).toNat

/-- Queue another purge. -/
def enqueueFollowupPurge (clock : Timestamp) (db : PurgeDb) : PurgeDb :=
  { db with workerJobs := db.workerJobs ++ [purgeJob clock] }

def writeLastPurgeAt (clock : Timestamp) (db : PurgeDb) : PurgeDb :=
  { db with stamps := db.stamps ++ [clock] }

def readLastPurgeAt (db : PurgeDb) : Option Timestamp := db.stamps.getLast?

/-- Purge expired rows. -/
def runPurge (cfg : Settings) (scope : Option String) (dryRun : Bool) (maxChunks : Option ℤ)
    (clock : Timestamp) (db : PurgeDb) : Except PurgeError PurgeCounts × PurgeDb :=
  match purgeScopes lowering cfg dryRun maxChunks clock (chunkLimit cfg) (scopesOf scope db)
      PurgeCounts.zero false db with
  | (.error e, db) => (.error e, db)
  | (.ok (totals, moreRemaining), db) =>
      let totals := { totals with moreRemaining := moreRemaining }
      if dryRun then (.ok totals, db)
      else if moreRemaining then (.ok totals, enqueueFollowupPurge clock db)
      else (.ok totals, writeLastPurgeAt clock db)

end Raglogs.Purge

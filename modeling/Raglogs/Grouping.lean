import Raglogs.Clusters

/-!
Two ways to group the rows of a window by fingerprint. The row scan fetches every
row and groups in one pass. The aggregation asks the database for four group-by
results and folds them into one dict. A result comes back in any order, and so do
the members of an aggregated array; the aggregation is stated over every order.
-/

namespace Raglogs.Grouping

open Collections Dicts LogEntries Text Clusters

/-- Levels that count as a problem line. -/
def errorLevels : List String := ["error", "fatal", "critical"]

/-- Cap on the members materialised for each cluster. -/
def maxClusterMembers : ℕ := 100

/-- The clustering projection. -/
structure ClusterRow where
  fingerprint : String
  normalizedMessage : Option String
  service : Option String
  level : Option String
  timestamp : Option Timestamp
  id : EntryId

/-- The projection of a filtered row; the filter has dropped null fingerprints. -/
def project (e : LogEntry) : Option ClusterRow :=
  e.fingerprint.map (fun fp =>
    ⟨fp, e.normalizedMessage, e.service, e.level, e.timestamp, e.id⟩)

def clusterSelect (store : LogStore) (f : WindowFilter) : List ClusterRow :=
  (store.baseWindowQuery f).filterMap project

def isErrorLevel (lowering : Lowering) (level : String) : Bool :=
  errorLevels.contains (lowering.lower level)

/-! The row scan. -/

def emptyGroup : RowGroup := ⟨[], ∅, ∅, [], ∅, [], [], none⟩

/-- Increment a count when the value passes its truth test. -/
def bumpTruthy (d : Counter String) (s : Option String) : Counter String :=
  match truthy s with
  | some k => bump d k 1
  | none => d

/-- Enter a key into the order of a dict, unless it is there. -/
def enterKey (keys : List String) (k : String) : List String :=
  if k ∈ keys then keys else keys ++ [k]

/-- Count a problem line for its service. -/
def bumpError (lowering : Lowering) (d : Counter String) (r : ClusterRow) : Counter String :=
  match truthy r.service with
  | some service =>
      match truthy r.level with
      | some level => if isErrorLevel lowering level then bump d service 1 else d
      | none => d
  | none => d

def addRow (lowering : Lowering) (g : RowGroup) (r : ClusterRow) : RowGroup where
  messages :=
    match truthy r.normalizedMessage with
    | some m => g.messages ++ [m]
    | none => g.messages
  services := bumpTruthy g.services r.service
  levels := bumpTruthy g.levels r.level
  levelOrder :=
    match truthy r.level with
    | some level => enterKey g.levelOrder level
    | none => g.levelOrder
  errorServices := bumpError lowering g.errorServices r
  timestamps := g.timestamps ++ r.timestamp.toList
  ids := g.ids ++ [r.id]
  count := g.count

/-- Group projected log rows by fingerprint. -/
def groupRows (lowering : Lowering) (rows : List ClusterRow) : Dict String RowGroup :=
  accumulate ClusterRow.fingerprint emptyGroup (addRow lowering) ∅ rows

/-! The aggregation. -/

/-- An order in which the database may return something. -/
abbrev Shuffle (α : Type) := {f : List α → List α // ∀ l, (f l).Perm l}

/-- fingerprint, count, first seen, last seen, sampled ids -/
abbrev CountRow := String × ℕ × Option Timestamp × Option Timestamp × List EntryId

/-- fingerprint, service, count, error count -/
abbrev ServiceRow := String × String × ℕ × ℕ

/-- fingerprint, level or message, count -/
abbrev KeyRow := String × String × ℕ

/-- The order of each result, and of the members of each aggregated array. -/
structure ResultOrder where
  counts : Shuffle CountRow
  services : Shuffle ServiceRow
  levels : Shuffle KeyRow
  messages : Shuffle KeyRow
  members : Shuffle EntryId

/-- Count, first and last seen, and a capped sample of each fingerprint. -/
def queryCounts (order : ResultOrder) (rows : List ClusterRow) : List CountRow :=
  order.counts.1 ((groupOn ClusterRow.fingerprint rows).map (fun p =>
    (p.1, p.2.length, (p.2.filterMap ClusterRow.timestamp).min?,
      (p.2.filterMap ClusterRow.timestamp).max?,
      (order.members.1 (p.2.map ClusterRow.id)).take maxClusterMembers)))

/-- The rows with a non-null, non-empty column, with the value of the column. -/
def withColumn (column : ClusterRow → Option String) (rows : List ClusterRow) :
    List (ClusterRow × String) :=
  rows.filterMap (fun r => (truthy (column r)).map (fun v => (r, v)))

/-- Counts for each service, and error counts in the same scan. -/
def queryServices (lowering : Lowering) (order : ResultOrder) (rows : List ClusterRow) :
    List ServiceRow :=
  order.services.1 ((groupOn (fun p => (p.1.fingerprint, p.2))
      (withColumn ClusterRow.service rows)).map (fun p =>
    (p.1.1, p.1.2, p.2.length, (p.2.filter (fun q =>
      q.1.level.any (isErrorLevel lowering))).length)))

/-- Counts for each value of a column. -/
def queryKeys (shuffle : Shuffle KeyRow) (column : ClusterRow → Option String)
    (rows : List ClusterRow) : List KeyRow :=
  shuffle.1 ((groupOn (fun p => (p.1.fingerprint, p.2)) (withColumn column rows)).map (fun p =>
    (p.1.1, p.1.2, p.2.length)))

/-- A group opened by the aggregation carries a count from the start. -/
def openGroup : RowGroup := { emptyGroup with count := some 0 }

def setCount (g : RowGroup) (r : CountRow) : RowGroup :=
  { g with
    count := some r.2.1
    ids := r.2.2.2.2
    timestamps := r.2.2.1.toList ++ r.2.2.2.1.toList }

def setService (g : RowGroup) (r : ServiceRow) : RowGroup :=
  { g with
    services := g.services.insert r.2.1 r.2.2.1
    errorServices :=
      if r.2.2.2 ≠ 0 then g.errorServices.insert r.2.1 r.2.2.2 else g.errorServices }

def setLevel (g : RowGroup) (r : KeyRow) : RowGroup :=
  { g with
    levels := g.levels.insert r.2.1 r.2.2
    levelOrder := enterKey g.levelOrder r.2.1 }

/-- Keep the message with the larger count, the earlier one among equals. -/
def keepBest (best : Option (ℕ × String)) (r : KeyRow) : Option (ℕ × String) :=
  match best with
  | none => some (r.2.2, r.2.1)
  | some current => if current.1 < r.2.2 then some (r.2.2, r.2.1) else some current

/-- The most common message of each fingerprint. -/
def bestMessages (rows : List KeyRow) : Dict String (Option (ℕ × String)) :=
  accumulate Prod.fst none keepBest ∅ rows

def setMessage (g : RowGroup) (r : String × Option (ℕ × String)) : RowGroup :=
  { g with messages := (r.2.map Prod.snd).toList }

/-- Aggregate each fingerprint in the database and fold the four results into groups. -/
def aggregateGroups (lowering : Lowering) (order : ResultOrder) (store : LogStore)
    (f : WindowFilter) : Dict String RowGroup :=
  let rows := clusterSelect store f
  let counted := accumulate Prod.fst openGroup setCount ∅ (queryCounts order rows)
  let serviced := accumulate Prod.fst openGroup setService counted
    (queryServices lowering order rows)
  let levelled := accumulate Prod.fst openGroup setLevel serviced
    (queryKeys order.levels ClusterRow.level rows)
  let found := queryKeys order.messages ClusterRow.normalizedMessage rows
  let best := bestMessages found
  accumulate Prod.fst openGroup setMessage levelled
    ((fromKeys (found.map Prod.fst)).map (fun fp => (fp, (best.lookup fp).getD none)))

end Raglogs.Grouping

import Mathlib.Order.Bounds.Basic
import Mathlib.Order.WithBot
import Raglogs.EmbeddingIntervals
import Raglogs.Grouping
import Raglogs.TruncatedMerge

/-!
The search for similar fingerprints. Each query vector asks for its nearest rows among those
that the caller may see, and the answers are merged by their best similarity. Equally near
rows come in whatever order the engine found them.

The cosine distance of a vector without direction is no number. The database takes it for
greater than every number, while no comparison of Python's holds of it.
-/

namespace Raglogs.SimilarSearch

open Collections EmbeddingIntervals Grouping LogEntries Overwrites Text TruncatedMerge

/-- Which scopes a caller may see; without one every scope. -/
structure SimilarVisibility where
  crossScope : Bool
  visibleScope : Option String

structure QueryCluster where
  fingerprint : String
  template : String

structure SimilarMatch (K : Type) where
  scope : String
  fingerprint : String
  template : Option String
  /-- None stands for a float that is no number. -/
  similarity : Option K
  firstSeen : Option Timestamp
  lastSeen : Option Timestamp
  count : ℕ

variable {K V : Type} [LinearOrder K]

def SimilarMatch.key (m : SimilarMatch K) : String × String := (m.scope, m.fingerprint)

/-- The order in which the database has floats. -/
def databaseOrder : Option K → WithTop K
  | some x => x
  | none => ⊤

/-- Python's comparison of two floats. -/
def exceeds : Option K → Option K → Bool
  | some x, some y => y < x
  | _, _ => false

/-- What is computed outside: the distance of two vectors, the similarity at a distance, and
a sort of matches by similarity, of which only the order of numbers is known. -/
structure Nearness (K V : Type) [LinearOrder K] where
  cosineDistance : List V → List V → Option K
  oneMinus : K → K
  oneMinus_antitone : Antitone oneMinus
  sorted : List (SimilarMatch K) → List (SimilarMatch K)
  sorted_perm : ∀ l, (sorted l).Perm l
  sorted_numbers : ∀ l, (∀ m ∈ l, m.similarity.isSome) →
    sorted l = sortOn (fun m => OrderDual.toDual (databaseOrder m.similarity)) l

/-- Restrict rows to scopes the caller can see, and drop the query pairs. -/
def applyVisibilityFilters (queryScope : String) (queryFingerprints : List String)
    (visibility : SimilarVisibility) (scope fingerprint : String) : Bool :=
  if visibility.crossScope then
    visibility.visibleScope.all (fun visible => scope == visible) && scope != queryScope
  else
    scope == (truthy visibility.visibleScope).getD queryScope &&
      !queryFingerprints.contains fingerprint

section Search

variable (near : Nearness K V) (engine : ℕ → Shuffle (EmbeddingRow V))
  (rows : List (EmbeddingRow V)) (visible : EmbeddingRow V → Bool) (minSimilarity : K) (limit : ℕ)

/-- The similarity of a row to a query vector. -/
def similarity (vector : List V) (row : EmbeddingRow V) : Option K :=
  (near.cosineDistance row.embedding vector).map near.oneMinus

/-- The rows that one query vector may match, the nearest first. -/
def nearest (vector : List V) (position : ℕ) : List (EmbeddingRow V) :=
  sortOn (fun row => databaseOrder (near.cosineDistance row.embedding vector))
    ((engine position).1 (rows.filter fun row =>
      minSimilarity ≤ databaseOrder (similarity near vector row) && visible row))

/-- The answer to one query vector. -/
def clusterEmbeddingSemanticStatement (vector : List V) (position : ℕ) : List (EmbeddingRow V) :=
  (nearest near engine rows visible minSimilarity vector position).take limit

end Search

def toMatch (row : EmbeddingRow V) (similarity : Option K) : SimilarMatch K :=
  ⟨row.scope, row.fingerprint, some row.template, similarity, row.firstSeen, row.lastSeen,
    row.count⟩

/-- The match of a row that has a scope and a fingerprint. -/
def rowToMatch (row : EmbeddingRow V) (similarity : Option K) : Option (SimilarMatch K) :=
  if row.scope = "" ∨ row.fingerprint = "" then none else some (toMatch row similarity)

/-- Matches by scope and fingerprint, in the order in which they were entered. -/
def mergeMatches (existing : List (SimilarMatch K)) (m : SimilarMatch K) : List (SimilarMatch K) :=
  match existing.find? (fun e => e.key = m.key) with
  | none => existing ++ [m]
  | some previous =>
      if exceeds m.similarity previous.similarity then
        existing.map fun e => if e.key = m.key then m else e
      else existing

/-- Enter what a row matches, if it has names. -/
def enterRow (near : Nearness K V) (vector : List V) (merged : List (SimilarMatch K))
    (row : EmbeddingRow V) : List (SimilarMatch K) :=
  match rowToMatch row (similarity near vector row) with
  | some m => mergeMatches merged m
  | none => merged

def rankedMatches (near : Nearness K V) (matches' : List (SimilarMatch K)) (limit : ℕ) :
    List (SimilarMatch K) :=
  (near.sorted matches').take limit

def queryTexts (queryClusters : List QueryCluster) : List String :=
  queryClusters.map fun c => if strip c.template ≠ "" then strip c.template else c.fingerprint

/-- A row that the caller may see and that is not in the query itself. -/
def visibleTo (queryScope : String) (visibility : SimilarVisibility)
    (queryClusters : List QueryCluster) (row : EmbeddingRow V) : Bool :=
  applyVisibilityFilters queryScope (queryClusters.map QueryCluster.fingerprint) visibility
    row.scope row.fingerprint

/-- Embed the query templates and search the embeddings; the provider may raise. -/
def searchSimilarSemantic (near : Nearness K V) (engine : ℕ → Shuffle (EmbeddingRow V))
    (store : Embeddings V) (queryClusters : List QueryCluster) (queryScope : String)
    (visibility : SimilarVisibility) (provider : Provider V) (minSimilarity : K) (limit : ℕ) :
    Option (List (SimilarMatch K)) := do
  let vectors ← provider.embedTexts (queryTexts queryClusters)
  if vectors.length ≠ queryClusters.length then return []
  else
    let visible := visibleTo queryScope visibility queryClusters
    let merged := vectors.zipIdx.foldl (fun merged p =>
      if p.1.length ≠ storedEmbeddingDims then merged
      else
        (clusterEmbeddingSemanticStatement near engine store.rows visible minSimilarity limit
          p.1 p.2).foldl (enterRow near p.1) merged) []
    return rankedMatches near merged limit

/-! The matches whose similarity is a number. -/

section Numbers

/-- The place of a match in the order of similarity. -/
def score (m : SimilarMatch K) : WithTop K := databaseOrder m.similarity

theorem score_lt_iff {a b : SimilarMatch K} (ha : a.similarity.isSome)
    (hb : b.similarity.isSome) : score a < score b ↔ exceeds b.similarity a.similarity = true := by
  obtain ⟨x, hx⟩ := Option.isSome_iff_exists.mp ha
  obtain ⟨y, hy⟩ := Option.isSome_iff_exists.mp hb
  rw [score, score, hx, hy, databaseOrder, databaseOrder, WithTop.coe_lt_coe, exceeds,
    decide_eq_true_eq]

/-- Numbers are merged as they compare. -/
theorem mergeMatches_eq_merge {existing : List (SimilarMatch K)} {m : SimilarMatch K}
    (hexisting : ∀ e ∈ existing, e.similarity.isSome) (hm : m.similarity.isSome) :
    mergeMatches existing m = merge SimilarMatch.key score existing m := by
  unfold mergeMatches merge
  cases hfound : existing.find? (fun e => e.key = m.key) with
  | none => rfl
  | some previous =>
    have hnumber := hexisting previous (List.mem_of_find?_eq_some hfound)
    exact (ite_cond_congr (propext (score_lt_iff hnumber hm))).symm

theorem mem_of_mem_mergeMatches {existing : List (SimilarMatch K)} {m m' : SimilarMatch K}
    (h : m' ∈ mergeMatches existing m) : m' ∈ existing ∨ m' = m := by
  unfold mergeMatches at h
  split at h
  · rcases List.mem_append.mp h with h | h
    · exact .inl h
    · exact .inr (List.mem_singleton.mp h)
  · split at h
    · obtain ⟨e, he, rfl⟩ := List.mem_map.mp h
      split
      · exact .inr rfl
      · exact .inl he
    · exact .inl h

theorem foldl_mergeMatches_eq_mergeAll {ms : List (SimilarMatch K)}
    (h : ∀ m ∈ ms, m.similarity.isSome) :
    ms.foldl mergeMatches [] = mergeAll SimilarMatch.key score ms := by
  induction ms using List.reverseRecOn with
  | nil => rfl
  | append_singleton ms m ih =>
    have hbefore : ∀ m' ∈ ms, m'.similarity.isSome := fun m' hm' =>
      h m' (List.mem_append_left _ hm')
    have hmerged : ∀ e ∈ mergeAll SimilarMatch.key score ms, e.similarity.isSome := fun e he =>
      hbefore e ((mergeAll_spec SimilarMatch.key score ms).2.1 e he)
    rw [List.foldl_append, ih hbefore, List.foldl_cons, List.foldl_nil,
      mergeMatches_eq_merge hmerged (h m (by simp)), mergeAll, mergeAll, List.foldl_append]
    rfl

end Numbers

/-! The answers as cut lists. -/

section Lists

variable (near : Nearness K V) (engine : ℕ → Shuffle (EmbeddingRow V))
  (rows : List (EmbeddingRow V)) (visible : EmbeddingRow V → Bool) (minSimilarity : K)

/-- Whether the similarity of a row to a vector is a number from the minimum on. -/
def isSimilar (vector : List V) (row : EmbeddingRow V) : Bool :=
  (similarity near vector row).any fun x => minSimilarity ≤ x

/-- Whether a row has a distance to a vector. -/
def isApart (vector : List V) (row : EmbeddingRow V) : Bool :=
  (near.cosineDistance row.embedding vector).isSome

/-- The matches of a query vector that are numbers, the most similar first. -/
def matchesOf (p : List V × ℕ) : List (SimilarMatch K) :=
  ((nearest near engine rows visible minSimilarity p.1 p.2).filter (isApart near p.1)).map
    fun row => toMatch row (similarity near p.1 row)

/-- A query vector has a distance to every visible row, or as many rows as are asked for are
similar to it by a number. -/
def Measured (limit : ℕ) (vector : List V) : Prop :=
  (∀ row ∈ rows, visible row = true → isApart near vector row = true) ∨
    limit ≤ rows.countP fun row => isSimilar near minSimilarity vector row && visible row

variable {near engine rows visible minSimilarity}

theorem mem_nearest {vector : List V} {position : ℕ} {row : EmbeddingRow V} :
    row ∈ nearest near engine rows visible minSimilarity vector position ↔
      row ∈ rows ∧ minSimilarity ≤ databaseOrder (similarity near vector row) ∧
        visible row = true := by
  rw [nearest, mem_sortOn, ((engine position).2 _).mem_iff, List.mem_filter]
  simp

/-- Of the rows with a distance the database finds those that are similar. -/
theorem isSimilar_iff {vector : List V} {row : EmbeddingRow V} :
    isSimilar near minSimilarity vector row = true ↔
      minSimilarity ≤ databaseOrder (similarity near vector row) ∧
        isApart near vector row = true := by
  unfold isSimilar isApart similarity
  cases near.cosineDistance row.embedding vector with
  | none => simp
  | some d => simp [databaseOrder]

theorem mem_matchesOf {p : List V × ℕ} {m : SimilarMatch K} :
    m ∈ matchesOf near engine rows visible minSimilarity p ↔
      ∃ row ∈ rows, (isSimilar near minSimilarity p.1 row = true ∧ visible row = true) ∧
        m = toMatch row (similarity near p.1 row) := by
  rw [matchesOf, List.mem_map]
  refine exists_congr fun row => ?_
  rw [List.mem_filter, mem_nearest, isSimilar_iff, eq_comm (a := toMatch row _)]
  tauto

theorem isSome_of_mem_matchesOf {p : List V × ℕ} {m : SimilarMatch K}
    (h : m ∈ matchesOf near engine rows visible minSimilarity p) : m.similarity.isSome := by
  obtain ⟨row, -, ⟨hsimilar, -⟩, rfl⟩ := mem_matchesOf.mp h
  exact Option.isSome_map.trans (isSimilar_iff.mp hsimilar).2

/-- The rows with a distance come first. -/
theorem nearest_eq_append (vector : List V) (position : ℕ) :
    nearest near engine rows visible minSimilarity vector position =
      (nearest near engine rows visible minSimilarity vector position).filter
        (isApart near vector) ++
      (nearest near engine rows visible minSimilarity vector position).filter
        (fun row => !isApart near vector row) := by
  refine eq_filter_append_filter ((sortOn_pairwise _ _).imp @fun a b h hb => ?_)
  obtain ⟨d, hd⟩ := Option.isSome_iff_exists.mp hb
  rw [hd] at h
  unfold isApart
  cases ha : near.cosineDistance a.embedding vector with
  | none =>
    rw [ha, databaseOrder, databaseOrder, top_le_iff] at h
    exact absurd h (WithTop.coe_ne_top)
  | some x => rfl

variable (engine) in
theorem length_filter_isApart (vector : List V) (position : ℕ) :
    ((nearest near engine rows visible minSimilarity vector position).filter
      (isApart near vector)).length =
        rows.countP fun row => isSimilar near minSimilarity vector row && visible row := by
  have hperm : (nearest near engine rows visible minSimilarity vector position).Perm
      (rows.filter fun row =>
        minSimilarity ≤ databaseOrder (similarity near vector row) && visible row) :=
    (sortOn_perm _ _).trans ((engine position).2 _)
  rw [← List.countP_eq_length_filter, hperm.countP_eq, List.countP_filter]
  refine List.countP_congr fun row _ => ?_
  rw [Bool.and_eq_true, Bool.and_eq_true, Bool.and_eq_true, isSimilar_iff, decide_eq_true_eq]
  tauto

/-- A measured query vector gets rows with a distance only. -/
theorem take_nearest {vector : List V} {limit : ℕ}
    (h : Measured near rows visible minSimilarity limit vector) (position : ℕ) :
    clusterEmbeddingSemanticStatement near engine rows visible minSimilarity limit vector position =
      ((nearest near engine rows visible minSimilarity vector position).filter
        (isApart near vector)).take limit := by
  rw [clusterEmbeddingSemanticStatement]
  rcases h with hall | hmany
  · rw [List.filter_eq_self.mpr fun row hrow =>
      hall row (mem_nearest.mp hrow).1 (mem_nearest.mp hrow).2.2]
  · conv_lhs => rw [nearest_eq_append]
    rw [List.take_append_of_le_length (by rwa [length_filter_isApart engine])]

/-- With a name for each row, every row of an answer is entered. -/
theorem foldl_enterRow {l : List (EmbeddingRow V)} {vector : List V}
    (hnames : ∀ row ∈ l, row.scope ≠ "" ∧ row.fingerprint ≠ "")
    (merged : List (SimilarMatch K)) :
    l.foldl (enterRow near vector) merged =
      (l.map fun row => toMatch row (similarity near vector row)).foldl mergeMatches merged := by
  rw [List.foldl_map]
  refine List.foldl_ext _ _ _ fun merged' row hrow => ?_
  have hmatch : rowToMatch row (similarity near vector row) =
      some (toMatch row (similarity near vector row)) :=
    if_neg (not_or.mpr (hnames row hrow))
  rw [enterRow, hmatch]

/-- The answers to measured query vectors are merged as they are. -/
theorem foldl_answers {vectors : List (List V)} {limit : ℕ}
    (hdims : ∀ v ∈ vectors, v.length = storedEmbeddingDims)
    (hnames : ∀ row ∈ rows, row.scope ≠ "" ∧ row.fingerprint ≠ "")
    (hmeasured : ∀ v ∈ vectors, Measured near rows visible minSimilarity limit v) :
    vectors.zipIdx.foldl (fun merged p =>
      if p.1.length ≠ storedEmbeddingDims then merged
      else
        (clusterEmbeddingSemanticStatement near engine rows visible minSimilarity limit
          p.1 p.2).foldl (enterRow near p.1) merged) [] =
      mergeAll SimilarMatch.key score
        ((vectors.zipIdx.map (matchesOf near engine rows visible minSimilarity)).flatMap
          (List.take limit)) := by
  have hnumbers : ∀ m ∈ (vectors.zipIdx.map (matchesOf near engine rows visible
      minSimilarity)).flatMap (List.take limit), m.similarity.isSome := by
    intro m hm
    obtain ⟨l, hl, hm⟩ := List.mem_flatMap.mp hm
    obtain ⟨p, -, rfl⟩ := List.mem_map.mp hl
    exact isSome_of_mem_matchesOf (List.mem_of_mem_take hm)
  rw [← foldl_mergeMatches_eq_mergeAll hnumbers, List.foldl_flatMap, List.foldl_map]
  refine List.foldl_ext _ _ _ fun merged p hp => ?_
  have hv := List.fst_mem_of_mem_zipIdx hp
  have hstored : ∀ row ∈ clusterEmbeddingSemanticStatement near engine rows visible minSimilarity
      limit p.1 p.2, row.scope ≠ "" ∧ row.fingerprint ≠ "" := fun row hrow =>
    hnames row (mem_nearest.mp (List.mem_of_mem_take hrow)).1
  rw [if_neg (not_not_intro (hdims p.1 hv)), foldl_enterRow hstored,
    take_nearest (hmeasured p.1 hv), matchesOf, List.map_take]

end Lists

/-- A row that the caller may see and that some query vector is similar to. -/
def eligible (near : Nearness K V) (vectors : List (List V))
    (visible : EmbeddingRow V → Bool) (minSimilarity : K) (row : EmbeddingRow V) : Bool :=
  visible row && vectors.any fun v => isSimilar near minSimilarity v row

/-- The similarities of a row to the query vectors, as far as they are numbers. -/
def similarities (near : Nearness K V) (vectors : List (List V))
    (row : EmbeddingRow V) : Set K :=
  {x | ∃ v ∈ vectors, similarity near v row = some x}

/-- The best of some rows by their greatest similarity, in its order, up to a limit. -/
structure IsExact (near : Nearness K V) (vectors : List (List V))
    (rows : List (EmbeddingRow V)) (limit : ℕ) (found : List (SimilarMatch K)) : Prop where
  pairs_nodup : (found.map SimilarMatch.key).Nodup
  greatest : ∀ m ∈ found, ∃ row ∈ rows, ∃ x, m = toMatch row (some x) ∧
    IsGreatest (similarities near vectors row) x
  sorted : found.Pairwise fun a b => ∀ x ∈ a.similarity, ∀ y ∈ b.similarity, y ≤ x
  left_out : ∀ row ∈ rows, (row.scope, row.fingerprint) ∉ found.map SimilarMatch.key →
    ∀ x, IsGreatest (similarities near vectors row) x →
      ∀ m ∈ found, ∀ y ∈ m.similarity, x ≤ y
  full : found.length = min limit rows.length

section Exact

variable {near : Nearness K V} {engine : ℕ → Shuffle (EmbeddingRow V)} {store : Embeddings V}
  {visible : EmbeddingRow V → Bool} {minSimilarity : K} {vectors : List (List V)}

theorem similarity_eq_some {vector : List V} {row : EmbeddingRow V}
    (h : isSimilar near minSimilarity vector row = true) :
    ∃ x, similarity near vector row = some x ∧ minSimilarity ≤ x := by
  obtain ⟨x, hx, hle⟩ := (Option.any_eq_true _ _).mp h
  exact ⟨x, hx, of_decide_eq_true hle⟩

theorem isSimilar_of_le {vector : List V} {row : EmbeddingRow V} {x : K}
    (hx : similarity near vector row = some x) (hle : minSimilarity ≤ x) :
    isSimilar near minSimilarity vector row = true := by
  rw [isSimilar, hx, Option.any_some, decide_eq_true_eq]
  exact hle

/-- The answers come in the order of similarity, one row of the store at a time. -/
theorem pairwise_matchesOf (p : List V × ℕ) :
    (matchesOf near engine store.rows visible minSimilarity p).Pairwise
      fun a b => score b ≤ score a := by
  rw [matchesOf, List.pairwise_map, List.pairwise_filter]
  refine (sortOn_pairwise _ _).imp @fun a b h ha hb => ?_
  obtain ⟨d, hd⟩ := Option.isSome_iff_exists.mp ha
  obtain ⟨d', hd'⟩ := Option.isSome_iff_exists.mp hb
  rw [hd, hd', databaseOrder, databaseOrder, WithTop.coe_le_coe] at h
  simp only [score, toMatch, similarity, hd, hd', Option.map_some, databaseOrder,
    WithTop.coe_le_coe]
  exact near.oneMinus_antitone h

theorem keys_matchesOf (p : List V × ℕ) :
    ((matchesOf near engine store.rows visible minSimilarity p).map SimilarMatch.key).Nodup := by
  rw [matchesOf, List.map_map]
  have hperm : (nearest near engine store.rows visible minSimilarity p.1 p.2).Perm
      (store.rows.filter fun row =>
        minSimilarity ≤ databaseOrder (similarity near p.1 row) && visible row) :=
    (sortOn_perm _ _).trans ((engine p.2).2 _)
  refine ((hperm.filter _).map _).nodup_iff.mpr (store.keys_nodup.sublist ?_)
  exact (List.filter_sublist.trans List.filter_sublist).map _

variable (engine) in
/-- A row that a vector is similar to is among its matches. -/
theorem exists_matchesOf {row : EmbeddingRow V} (hrow : row ∈ store.rows)
    (hvisible : visible row = true) {v : List V} (hv : v ∈ vectors)
    (hsimilar : isSimilar near minSimilarity v row = true) :
    ∃ l ∈ vectors.zipIdx.map (matchesOf near engine store.rows visible minSimilarity),
      toMatch row (similarity near v row) ∈ l := by
  obtain ⟨i, hi, rfl⟩ := List.getElem_of_mem hv
  refine ⟨_, List.mem_map_of_mem (List.mk_mem_zipIdx_iff_getElem?.mpr
    (List.getElem?_eq_getElem hi)), ?_⟩
  exact mem_matchesOf.mpr ⟨row, hrow, ⟨hsimilar, hvisible⟩, rfl⟩

theorem mem_eligible {row : EmbeddingRow V} :
    row ∈ store.rows.filter (eligible near vectors visible minSimilarity) ↔
      row ∈ store.rows ∧ visible row = true ∧
        ∃ v ∈ vectors, isSimilar near minSimilarity v row = true := by
  rw [List.mem_filter, eligible, Bool.and_eq_true, List.any_eq_true]

theorem exists_row_of_matchesOf {l : List (SimilarMatch K)}
    (hl : l ∈ vectors.zipIdx.map (matchesOf near engine store.rows visible minSimilarity))
    {m : SimilarMatch K} (hm : m ∈ l) :
    ∃ row ∈ store.rows.filter (eligible near vectors visible minSimilarity), ∃ v ∈ vectors,
      isSimilar near minSimilarity v row = true ∧ m = toMatch row (similarity near v row) := by
  obtain ⟨p, hp, rfl⟩ := List.mem_map.mp hl
  obtain ⟨row, hrow, ⟨hsimilar, hvisible⟩, rfl⟩ := mem_matchesOf.mp hm
  have hv := List.fst_mem_of_mem_zipIdx hp
  exact ⟨row, mem_eligible.mpr ⟨hrow, hvisible, p.1, hv, hsimilar⟩, p.1, hv, hsimilar, rfl⟩

/-- The pairs of all answers are those of the eligible rows. -/
theorem keys_matches_eq :
    ((vectors.zipIdx.map (matchesOf near engine store.rows visible
      minSimilarity)).flatten.map SimilarMatch.key).toFinset =
        ((store.rows.filter (eligible near vectors visible minSimilarity)).map
          (schema V).key).toFinset := by
  ext key
  rw [List.mem_toFinset, List.mem_toFinset, List.mem_map, List.mem_map]
  constructor
  · rintro ⟨m, hm, rfl⟩
    obtain ⟨l, hl, hml⟩ := List.mem_flatten.mp hm
    obtain ⟨row, hr, v, -, -, rfl⟩ := exists_row_of_matchesOf hl hml
    exact ⟨row, hr, rfl⟩
  · rintro ⟨row, hr, rfl⟩
    obtain ⟨hstored, hvisible, v, hv, hsimilar⟩ := mem_eligible.mp hr
    obtain ⟨l, hl, hml⟩ := exists_matchesOf engine hstored hvisible hv hsimilar
    exact ⟨_, List.mem_flatten.mpr ⟨l, hl, hml⟩, rfl⟩

/-- The best of the cut answers are the best rows. -/
theorem isExact_best (near : Nearness K V) (engine : ℕ → Shuffle (EmbeddingRow V))
    (store : Embeddings V) (visible : EmbeddingRow V → Bool) (minSimilarity : K)
    (vectors : List (List V)) (limit : ℕ) :
    IsExact near vectors
      (store.rows.filter (eligible near vectors visible minSimilarity)) limit
      (best SimilarMatch.key score (vectors.zipIdx.map
        (matchesOf near engine store.rows visible minSimilarity)) limit) := by
  have hsorted : ∀ l ∈ vectors.zipIdx.map (matchesOf near engine store.rows visible
      minSimilarity), l.Pairwise fun a b => score b ≤ score a := by
    intro l hl
    obtain ⟨p, -, rfl⟩ := List.mem_map.mp hl
    exact pairwise_matchesOf p
  have hnodup : ∀ l ∈ vectors.zipIdx.map (matchesOf near engine store.rows visible
      minSimilarity), (l.map SimilarMatch.key).Nodup := by
    intro l hl
    obtain ⟨p, -, rfl⟩ := List.mem_map.mp hl
    exact keys_matchesOf p
  have hbest : IsBest SimilarMatch.key score _ limit _ := isBest_best hsorted hnodup
  refine ⟨hbest.keys_nodup, fun m hm => ?_, hbest.sorted.imp @fun a b h x hx y hy => ?_,
    fun row hr hout x hx m hm y hy => ?_, ?_⟩
  · obtain ⟨l, hl, hml⟩ := hbest.listed m hm
    obtain ⟨row, hr, v, hv, hsimilar, rfl⟩ := exists_row_of_matchesOf hl hml
    obtain ⟨x, hx, hmin⟩ := similarity_eq_some hsimilar
    refine ⟨row, hr, x, by rw [hx], ⟨v, hv, hx⟩, ?_⟩
    rintro y ⟨v', hv', hy⟩
    rcases le_total minSimilarity y with hle | hle
    · obtain ⟨hstored, hvisible, -⟩ := mem_eligible.mp hr
      obtain ⟨l', hl', hml'⟩ :=
        exists_matchesOf engine hstored hvisible hv' (isSimilar_of_le hy hle)
      have hscore := hbest.best_of_key _ hm l' hl' _ hml' rfl
      simp only [score, toMatch, hx, hy, databaseOrder] at hscore
      exact WithTop.coe_le_coe.mp hscore
    · exact hle.trans hmin
  · rw [score, score, Option.mem_def.mp hx, Option.mem_def.mp hy] at h
    exact WithTop.coe_le_coe.mp h
  · obtain ⟨hstored, hvisible, v, hv, hsimilar⟩ := mem_eligible.mp hr
    obtain ⟨⟨v', hv', hx'⟩, hgreatest⟩ := hx
    obtain ⟨z, hz, hmin⟩ := similarity_eq_some hsimilar
    have hsimilar' : isSimilar near minSimilarity v' row = true :=
      isSimilar_of_le hx' (hmin.trans (hgreatest ⟨v, hv, hz⟩))
    obtain ⟨l, hl, hml⟩ := exists_matchesOf engine hstored hvisible hv' hsimilar'
    have hscore := hbest.left_out l hl _ hml hout m hm
    rw [score, score, toMatch, hx', Option.mem_def.mp hy] at hscore
    exact WithTop.coe_le_coe.mp hscore
  · have hunique : ((store.rows.filter (eligible near vectors visible minSimilarity)).map
        (schema V).key).Nodup := store.keys_nodup.sublist (List.filter_sublist.map _)
    rw [hbest.full, keys_matches_eq, List.toFinset_card_of_nodup hunique, List.length_map]

/-- Matches that are all numbers are ranked as the best ones are. -/
theorem rankedMatches_eq_ranked {ms : List (SimilarMatch K)} {limit : ℕ}
    (h : ∀ m ∈ ms, m.similarity.isSome) : rankedMatches near ms limit = ranked score ms limit := by
  rw [rankedMatches, near.sorted_numbers ms h]
  rfl

/-! One query vector. -/

/-- Matches of different pairs are entered one behind the other. -/
theorem foldl_mergeMatches_of_nodup {ms : List (SimilarMatch K)}
    (h : (ms.map SimilarMatch.key).Nodup) : ms.foldl mergeMatches [] = ms := by
  induction ms using List.reverseRecOn with
  | nil => rfl
  | append_singleton ms m ih =>
    rw [List.map_append, List.map_singleton, List.nodup_append] at h
    have hnew : ms.find? (fun e => e.key = m.key) = none :=
      List.find?_eq_none.mpr fun e he => by
        simpa using h.2.2 e.key (List.mem_map_of_mem he) m.key (List.mem_singleton_self _)
    rw [List.foldl_append, ih h.1, List.foldl_cons, List.foldl_nil, mergeMatches, hnew]

variable (engine) in
/-- A query vector without a distance to a visible row gets such a row, if it gets too few
others. -/
theorem exists_notApart {vector : List V} {limit : ℕ}
    (h : ¬Measured near store.rows visible minSimilarity limit vector) (position : ℕ) :
    ∃ row ∈ clusterEmbeddingSemanticStatement near engine store.rows visible minSimilarity limit
      vector position, similarity near vector row = none := by
  obtain ⟨hsome, hfew⟩ := not_or.mp h
  obtain ⟨row, hrow⟩ := not_forall.mp hsome
  obtain ⟨hstored, hrow⟩ := Classical.not_imp.mp hrow
  obtain ⟨hvisible, hapart⟩ := Classical.not_imp.mp hrow
  have hnone : ∀ row, ¬isApart near vector row = true → similarity near vector row = none :=
    fun row h => Option.map_eq_none_iff.mpr (Option.not_isSome_iff_eq_none.mp h)
  have hfound : row ∈ (nearest near engine store.rows visible minSimilarity vector
      position).filter (fun row => !isApart near vector row) := by
    refine List.mem_filter.mpr ⟨mem_nearest.mpr ⟨hstored, ?_, hvisible⟩, by simpa using hapart⟩
    rw [hnone row hapart]
    exact le_top
  rw [← length_filter_isApart engine vector position, not_le] at hfew
  rw [clusterEmbeddingSemanticStatement, nearest_eq_append]
  cases hrest : (nearest near engine store.rows visible minSimilarity vector position).filter
      (fun row => !isApart near vector row) with
  | nil =>
    rw [hrest] at hfound
    cases hfound
  | cons first rest =>
    have hfirst : first ∈ (nearest near engine store.rows visible minSimilarity vector
        position).filter (fun row => !isApart near vector row) := by
      rw [hrest]
      exact List.mem_cons_self
    refine ⟨first, ?_, hnone first (by simpa using (List.mem_filter.mp hfirst).2)⟩
    obtain ⟨gap, hgap⟩ := Nat.exists_eq_add_of_lt hfew
    rw [List.take_append, hgap, Nat.add_assoc, Nat.add_sub_cancel_left, List.take_succ_cons]
    exact List.mem_append_right _ List.mem_cons_self

/-- The answer to one query vector is its matches, ranked. -/
theorem mem_ranked_of_mem_answer {vector : List V} {position limit : ℕ}
    (hnames : ∀ row ∈ store.rows, row.scope ≠ "" ∧ row.fingerprint ≠ "") {row : EmbeddingRow V}
    (hrow : row ∈ clusterEmbeddingSemanticStatement near engine store.rows visible minSimilarity
      limit vector position) :
    toMatch row (similarity near vector row) ∈ rankedMatches near
      ((clusterEmbeddingSemanticStatement near engine store.rows visible minSimilarity limit
        vector position).foldl (enterRow near vector) []) limit := by
  have hstored : ∀ row ∈ clusterEmbeddingSemanticStatement near engine store.rows visible
      minSimilarity limit vector position, row.scope ≠ "" ∧ row.fingerprint ≠ "" := fun row hrow =>
    hnames row (mem_nearest.mp (List.mem_of_mem_take hrow)).1
  have hkeys : ((clusterEmbeddingSemanticStatement near engine store.rows visible minSimilarity
      limit vector position).map fun row =>
        (toMatch row (similarity near vector row)).key).Nodup := by
    have hperm : (nearest near engine store.rows visible minSimilarity vector position).Perm
        (store.rows.filter fun row =>
          minSimilarity ≤ databaseOrder (similarity near vector row) && visible row) :=
      (sortOn_perm _ _).trans ((engine position).2 _)
    have hall := (hperm.map (schema V).key).nodup_iff.mpr
      (store.keys_nodup.sublist (List.filter_sublist.map _))
    exact hall.sublist ((List.take_sublist _ _).map _)
  rw [foldl_enterRow hstored, foldl_mergeMatches_of_nodup (by rwa [List.map_map]), rankedMatches,
    List.take_of_length_le]
  · exact (near.sorted_perm _).mem_iff.mpr (List.mem_map_of_mem hrow)
  · rw [(near.sorted_perm _).length_eq, List.length_map]
    exact List.length_take_le _ _

end Exact
/-- The search returns the best rows that the caller may see, by their greatest similarity,
if each query vector is measured; and for one query vector only if it is. -/
theorem searchSimilarSemantic_exact (near : Nearness K V)
    (engine : ℕ → Shuffle (EmbeddingRow V)) (store : Embeddings V)
    (queryClusters : List QueryCluster) (queryScope : String) (visibility : SimilarVisibility)
    (provider : Provider V) (minSimilarity : K) (limit : ℕ) (vectors : List (List V))
    (hvectors : provider.embedTexts (queryTexts queryClusters) = some vectors)
    (hcount : vectors.length = queryClusters.length)
    (hdims : ∀ v ∈ vectors, v.length = storedEmbeddingDims)
    (hnames : ∀ row ∈ store.rows, row.scope ≠ "" ∧ row.fingerprint ≠ "") :
    ∃ found, searchSimilarSemantic near engine store queryClusters queryScope visibility
        provider minSimilarity limit = some found ∧
      ((∀ v ∈ vectors, Measured near store.rows (visibleTo queryScope visibility queryClusters)
          minSimilarity limit v) →
        IsExact near vectors (store.rows.filter (eligible near vectors
          (visibleTo queryScope visibility queryClusters) minSimilarity)) limit found) ∧
      ∀ v, vectors = [v] → IsExact near [v] (store.rows.filter (eligible near [v]
          (visibleTo queryScope visibility queryClusters) minSimilarity)) limit found →
        Measured near store.rows (visibleTo queryScope visibility queryClusters) minSimilarity
          limit v := by
  refine ⟨_, by rw [searchSimilarSemantic, hvectors, Option.bind_eq_bind, Option.bind_some,
    if_neg (not_not_intro hcount)]; rfl, fun hmeasured => ?_, fun v hv hexact => ?_⟩
  · have hnumbers : ∀ m ∈ mergeAll SimilarMatch.key score ((vectors.zipIdx.map (matchesOf near
        engine store.rows (visibleTo queryScope visibility queryClusters)
          minSimilarity)).flatMap (List.take limit)), m.similarity.isSome := by
      intro m hm
      obtain ⟨l, hl, hm⟩ := List.mem_flatMap.mp ((mergeAll_spec _ _ _).2.1 m hm)
      obtain ⟨p, -, rfl⟩ := List.mem_map.mp hl
      exact isSome_of_mem_matchesOf (List.mem_of_mem_take hm)
    rw [foldl_answers hdims hnames hmeasured, rankedMatches_eq_ranked hnumbers]
    exact isExact_best near engine store _ minSimilarity vectors limit
  · by_contra hunmeasured
    obtain ⟨row, hrow, hnone⟩ := exists_notApart engine hunmeasured 0
    have hfound := mem_ranked_of_mem_answer hnames hrow
    subst hv
    have hlength : ¬v.length ≠ storedEmbeddingDims := not_not_intro (hdims v (by simp))
    rw [List.zipIdx_singleton, List.foldl_cons, List.foldl_nil, if_neg hlength] at hexact
    obtain ⟨row', -, x, hmatch, -⟩ := hexact.greatest _ hfound
    have hsimilarity := congrArg SimilarMatch.similarity hmatch
    rw [toMatch, toMatch, hnone] at hsimilarity
    cases hsimilarity

/-! Vectors of whole numbers. -/

theorem orderedInsert_congr {α : Type} {r t : α → α → Prop} [DecidableRel r] [DecidableRel t]
    {a : α} {l : List α} (h : ∀ b ∈ l, r a b ↔ t a b) :
    l.orderedInsert r a = l.orderedInsert t a := by
  induction l with
  | nil => rfl
  | cons b l ih =>
    rw [List.forall_mem_cons] at h
    rw [List.orderedInsert_cons, List.orderedInsert_cons, ih h.2]
    exact ite_cond_congr (propext h.1)

theorem insertionSort_congr {α : Type} {r t : α → α → Prop} [DecidableRel r] [DecidableRel t]
    {l : List α} (h : ∀ a ∈ l, ∀ b ∈ l, r a b ↔ t a b) :
    l.insertionSort r = l.insertionSort t := by
  induction l with
  | nil => rfl
  | cons a l ih =>
    have hrest : l.insertionSort r = l.insertionSort t := ih fun b hb c hc =>
      h b (List.mem_cons_of_mem a hb) c (List.mem_cons_of_mem a hc)
    rw [List.insertionSort_cons, List.insertionSort_cons, hrest]
    refine orderedInsert_congr fun b hb => h a List.mem_cons_self b (List.mem_cons_of_mem a ?_)
    exact (List.mem_insertionSort t).mp hb

def dotProduct (v w : List ℕ) : ℕ := (List.zipWith (· * ·) v w).sum

/-- The cosine distance of vectors whose lengths are whole numbers. -/
def wholeDistance (v w : List ℕ) : Option ℚ :=
  if Nat.sqrt (dotProduct v v) * Nat.sqrt (dotProduct w w) = 0 then none
  else some (1 - dotProduct v w / (Nat.sqrt (dotProduct v v) * Nat.sqrt (dotProduct w w) : ℕ))

/-- These distances, and a sort by insertion that asks only whether a match exceeds another. -/
def wholeNearness : Nearness ℚ ℕ where
  cosineDistance := wholeDistance
  oneMinus x := 1 - x
  oneMinus_antitone _ _ h := sub_le_sub_left h 1
  sorted l := l.insertionSort fun a b => exceeds b.similarity a.similarity = false
  sorted_perm l := List.perm_insertionSort _ l
  sorted_numbers l h := insertionSort_congr fun a ha b hb => by
    rw [OrderDual.toDual_le_toDual, ← not_lt, ← Bool.not_eq_true]
    exact not_congr (score_lt_iff (h a ha) (h b hb)).symm

def foundOrder (_ : ℕ) : Shuffle (EmbeddingRow ℕ) := ⟨id, fun _ => List.Perm.refl _⟩

/-- A vector of the stored dimension. -/
def padded (v : List ℕ) : List ℕ := v ++ List.replicate (storedEmbeddingDims - v.length) 0

def sampleRow (id : ℕ) (fingerprint : String) (v : List ℕ) : EmbeddingRow ℕ :=
  ⟨⟨id, "default", some 200, 500, 500⟩, fingerprint, "timeout", padded v, "model", some 100, 3⟩

/-- Two query clusters, of which each is embedded as one axis. -/
def twoClusters : List QueryCluster := [⟨"f1", "timeout"⟩, ⟨"f2", "refused"⟩]

def axes : List (List ℕ) := [padded [1], padded [0, 1]]

/-- Two rows near the first axis, and one near both. -/
def threeRows : Embeddings ℕ where
  rows := [sampleRow 1 "a" [3, 0, 4], sampleRow 2 "b" [20, 21], sampleRow 3 "c" [4, 0, 3]]
  ids_nodup := by decide
  keys_nodup := by decide

/-- Of three rows the two best are found, of which one is near to both query vectors. -/
theorem searchSimilarSemantic_two :
    ∃ found, searchSimilarSemantic wholeNearness foundOrder threeRows twoClusters "default"
        ⟨false, none⟩ ⟨true, fun _ => some axes⟩ (1 / 2) 2 = some found ∧
      found.map (fun m => (m.fingerprint, m.similarity)) =
        [("c", some (4 / 5)), ("b", some (21 / 29))] ∧
      IsExact wholeNearness axes (threeRows.rows.filter (eligible wholeNearness axes
        (visibleTo "default" ⟨false, none⟩ twoClusters) (1 / 2))) 2 found := by
  obtain ⟨found, hsome, hexact, -⟩ := searchSimilarSemantic_exact wholeNearness foundOrder
    threeRows twoClusters "default" ⟨false, none⟩ ⟨true, fun _ => some axes⟩ (1 / 2) 2 axes rfl rfl
    (by decide +kernel) (by decide)
  have hfound : (searchSimilarSemantic wholeNearness foundOrder threeRows twoClusters "default"
      ⟨false, none⟩ ⟨true, fun _ => some axes⟩ (1 / 2) 2).map
        (fun found => found.map fun m => (m.fingerprint, m.similarity)) =
          some [("c", some (4 / 5)), ("b", some (21 / 29))] := by
    decide +kernel
  rw [hsome, Option.map_some, Option.some_inj] at hfound
  exact ⟨found, hsome, hfound, hexact fun v hv => .inl (by revert v; decide +kernel)⟩

/-- A row near each axis, and one whose vector has no direction. -/
def rowWithoutDirection : Embeddings ℕ where
  rows := [sampleRow 1 "a" [4, 0, 3], sampleRow 2 "z" [], sampleRow 3 "b" [0, 12, 5]]
  ids_nodup := by decide
  keys_nodup := by decide

/-- The row without direction is returned in the place of a row that is nearer than the
other one returned. -/
theorem not_searchSimilarSemantic_exact :
    ∃ found, searchSimilarSemantic wholeNearness foundOrder rowWithoutDirection twoClusters
        "default" ⟨false, none⟩ ⟨true, fun _ => some axes⟩ (1 / 2) 2 = some found ∧
      found.map (fun m => (m.fingerprint, m.similarity)) = [("a", some (4 / 5)), ("z", none)] ∧
      ¬IsExact wholeNearness axes (rowWithoutDirection.rows.filter (eligible wholeNearness axes
        (visibleTo "default" ⟨false, none⟩ twoClusters) (1 / 2))) 2 found := by
  have hfound : (searchSimilarSemantic wholeNearness foundOrder rowWithoutDirection twoClusters
      "default" ⟨false, none⟩ ⟨true, fun _ => some axes⟩ (1 / 2) 2).map
        (fun found => found.map fun m => (m.fingerprint, m.similarity)) =
          some [("a", some (4 / 5)), ("z", none)] := by
    decide +kernel
  obtain ⟨found, hsome, hfound⟩ := Option.map_eq_some_iff.mp hfound
  refine ⟨found, hsome, hfound, fun hexact => ?_⟩
  -- the row left out is eligible, with the greatest similarity 12/13
  have hrow : sampleRow 3 "b" [0, 12, 5] ∈ rowWithoutDirection.rows.filter (eligible wholeNearness
      axes (visibleTo "default" ⟨false, none⟩ twoClusters) (1 / 2)) :=
    mem_eligible.mpr ⟨by simp [rowWithoutDirection], rfl, padded [0, 1], by simp [axes],
      by decide +kernel⟩
  have hnear : similarity wholeNearness (padded [1]) (sampleRow 3 "b" [0, 12, 5]) = some 0 ∧
      similarity wholeNearness (padded [0, 1]) (sampleRow 3 "b" [0, 12, 5]) = some (12 / 13) := by
    decide +kernel
  have hgreatest : IsGreatest (similarities wholeNearness axes (sampleRow 3 "b" [0, 12, 5]))
      (12 / 13) := by
    refine ⟨⟨padded [0, 1], by simp [axes], hnear.2⟩, ?_⟩
    rintro x ⟨v, hv, hx⟩
    rcases List.mem_pair.mp hv with rfl | rfl
    · rw [hnear.1, Option.some_inj] at hx
      norm_num [← hx]
    · rw [hnear.2, Option.some_inj] at hx
      exact hx.ge
  have hout : (sampleRow 3 "b" [0, 12, 5]).fingerprint ∉ found.map SimilarMatch.fingerprint := by
    have hnames := congrArg (List.map Prod.fst) hfound
    rw [List.map_map] at hnames
    have hnames' : found.map SimilarMatch.fingerprint = ["a", "z"] := hnames
    rw [hnames']
    decide
  have hkept : ("a", some (4 / 5 : ℚ)) ∈ found.map fun m => (m.fingerprint, m.similarity) := by
    rw [hfound]
    exact List.mem_cons_self
  obtain ⟨m, hm, hsimilarity⟩ := List.mem_map.mp hkept
  have hle := hexact.left_out _ hrow
    (fun hkey => hout (by
      obtain ⟨m', hm', hsame⟩ := List.mem_map.mp hkey
      exact List.mem_map.mpr ⟨m', hm', congrArg Prod.snd hsame⟩)) _ hgreatest m hm (4 / 5)
    (congrArg Prod.snd hsimilarity)
  norm_num at hle

end Raglogs.SimilarSearch

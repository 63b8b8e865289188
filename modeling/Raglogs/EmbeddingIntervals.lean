import Raglogs.Clusters
import Raglogs.Overwrites
import Raglogs.Purge

/-!
The embeddings of cluster templates, and the interval in which a fingerprint was seen. A run
overwrites the interval that is stored with the one of its own window, and a purge deletes
the rows whose interval ended too long ago.
-/

namespace Raglogs.EmbeddingIntervals

open Clusters Collections KeyedTables LogEntries Overwrites Purge Text

/-- A row of the cluster embeddings. -/
structure EmbeddingRow (V : Type) extends Purge.ClusterEmbedding where
  fingerprint : String
  template : String
  embedding : List V
  modelName : String
  firstSeen : Option Timestamp
  count : ℕ

variable {K V : Type}

/-- A conflict on scope and fingerprint takes everything else from the new row. -/
def schema (V : Type) : Schema (EmbeddingRow V) ℕ (String × String) where
  id r := r.id
  key r := (r.scope, r.fingerprint)
  overwrite old new :=
    { old with
      template := new.template
      embedding := new.embedding
      modelName := new.modelName
      firstSeen := new.firstSeen
      lastSeen := new.lastSeen
      count := new.count
      updatedAt := new.updatedAt }
  id_overwrite _ _ := rfl
  key_overwrite _ _ := rfl

abbrev Embeddings (V : Type) := Rows (schema V)

instance : Expiring (EmbeddingRow V) :=
  ⟨fun r => r.scope, fun r => Expiring.expiry r.toClusterEmbedding⟩

/-- The rows as a purge selects from them. -/
def table (e : Embeddings V) : Table (fun r : EmbeddingRow V => r.id) := ⟨e.rows, e.ids_nodup⟩

def storedEmbeddingDims : ℕ := 1536

/-- The row of one cluster template, unless it is unusable. -/
def clusterEmbeddingRowValues (scope fingerprint template : String) (vector : List V)
    (modelName : String) (firstSeen lastSeen : Option Timestamp) (count rowId : ℕ)
    (now createdAt : Timestamp) : Option (EmbeddingRow V) :=
  if fingerprint = "" ∨ strip template = "" then none
  else if vector.length ≠ storedEmbeddingDims then none
  else some
    { id := rowId
      scope := scope
      lastSeen := lastSeen
      createdAt := createdAt
      updatedAt := now
      fingerprint := fingerprint
      template := template
      embedding := vector
      modelName := modelName
      firstSeen := firstSeen
      count := count }

/-- A provider of embeddings; it may raise. -/
structure Provider (V : Type) where
  isAvailable : Bool
  embedTexts : List String → Option (List (List V))

/-- One call at the end of a clustering run. -/
structure PersistCall (K V : Type) where
  clusters : List (ClusterData K)
  scope : String
  provider : Provider V
  embeddingsDimensions : ℕ
  embeddingsModel : String
  /-- The ids that are drawn for new rows, by position. -/
  rowIds : ℕ → ℕ
  now : Timestamp
  /-- Whether the database takes the write. -/
  writable : Bool

/-- A cluster with a template and a fingerprint. -/
def eligible (c : ClusterData K) : Bool :=
  strip c.representativeMessage ≠ "" && c.fingerprint ≠ ""

/-- The rows that a call writes, if it comes to writing. -/
def embeddingRows (call : PersistCall K V) : Option (List (EmbeddingRow V)) :=
  let clusters := call.clusters.filter eligible
  if call.embeddingsDimensions ≠ storedEmbeddingDims ∨ call.provider.isAvailable = false ∨
      clusters = [] then none
  else
    match call.provider.embedTexts (clusters.map fun c => strip c.representativeMessage) with
    | none => none
    | some vectors =>
        if vectors.length ≠ clusters.length then none
        else
          let rows := (clusters.zip vectors).zipIdx.filterMap fun p =>
            clusterEmbeddingRowValues call.scope p.1.1.fingerprint p.1.1.representativeMessage
              p.1.2 call.embeddingsModel p.1.1.firstSeen p.1.1.lastSeen p.1.1.count
              (call.rowIds p.2) call.now call.now
          if rows = [] then none else some rows

/-- The table after the statement of a call, if it went through. -/
def written (call : PersistCall K V) (e : Embeddings V) (rows : List (EmbeddingRow V)) :
    Option (Embeddings V) :=
  if call.writable then e.upsertAll rows else none

/-- Store the embeddings of a run's clusters; any failure leaves the table as it was. -/
def persistClusterEmbeddings (call : PersistCall K V) (e : Embeddings V) : ℕ × Embeddings V :=
  match embeddingRows call with
  | none => (0, e)
  | some rows =>
      match written call e rows with
      | none => (0, e)
      | some e' => (rows.length, e')

/-- The table after some runs. -/
def runs (calls : List (PersistCall K V)) (e : Embeddings V) : Embeddings V :=
  calls.foldl (fun e call => (persistClusterEmbeddings call e).2) e

/-! Runs of one scope leave the rows of the others alone, and depend on its own rows only. -/

theorem mem_embeddingRows {call : PersistCall K V} {rows : List (EmbeddingRow V)}
    (h : embeddingRows call = some rows) {new : EmbeddingRow V} (hnew : new ∈ rows) :
    (new.scope == call.scope) = true ∧ ∃ i, call.rowIds i = new.id := by
  unfold embeddingRows at h
  dsimp only at h
  split at h
  · cases h
  · split at h
    · cases h
    · split at h
      · cases h
      · split at h
        · cases h
        · obtain rfl := Option.some.inj h
          obtain ⟨p, -, hp⟩ := List.mem_filterMap.mp hnew
          unfold clusterEmbeddingRowValues at hp
          split at hp
          · cases hp
          · split at hp
            · cases hp
            · obtain rfl := Option.some.inj hp
              exact ⟨beq_self_eq_true _, p.2, rfl⟩

/-- Storing the clusters of a scope writes rows of that scope with drawn ids. -/
theorem samePart_persist (call : PersistCall K V) {e e' : Embeddings V}
    (h : SamePart (fun row => row.scope == call.scope) (fun id => ∃ i, call.rowIds i = id) e e') :
    SamePart (fun row => row.scope == call.scope) (fun id => ∃ i, call.rowIds i = id)
      (persistClusterEmbeddings call e).2 (persistClusterEmbeddings call e').2 := by
  unfold persistClusterEmbeddings
  cases hrows : embeddingRows call with
  | none => exact h
  | some rows =>
    have hsame : Option.Rel (SamePart (fun row => row.scope == call.scope)
        (fun id => ∃ i, call.rowIds i = id)) (written call e rows) (written call e' rows) := by
      unfold written
      split
      · refine samePart_upsertAll ?_ h (fun new hnew => (mem_embeddingRows hrows hnew).1)
          (fun new hnew => (mem_embeddingRows hrows hnew).2)
        intro a b hkey
        rw [show a.scope = b.scope from congrArg Prod.fst hkey]
      · exact .none
    dsimp only
    generalize written call e rows = t at hsame
    generalize written call e' rows = t' at hsame
    cases hsame with
    | some hsame => exact hsame
    | none => exact h

/-! Intervals. -/

/-- When a fingerprint was first and last seen. -/
structure Interval where
  first : Option Timestamp
  last : Option Timestamp

def EmbeddingRow.seen (r : EmbeddingRow V) : Interval := ⟨r.firstSeen, r.lastSeen⟩

/-- The second interval starts no later and ends no earlier. -/
def Within (old new : Interval) : Prop :=
  (∀ t, old.first = some t → ∃ t', new.first = some t' ∧ t' ≤ t) ∧
    ∀ t, old.last = some t → ∃ t', new.last = some t' ∧ t ≤ t'

theorem Within.refl (i : Interval) : Within i i :=
  ⟨fun t ht => ⟨t, ht, le_rfl⟩, fun t ht => ⟨t, ht, le_rfl⟩⟩

theorem Within.trans {i j k : Interval} (h : Within i j) (h' : Within j k) : Within i k := by
  refine ⟨fun t ht => ?_, fun t ht => ?_⟩
  · obtain ⟨t₁, ht₁, hle⟩ := h.1 t ht
    obtain ⟨t₂, ht₂, hle'⟩ := h'.1 t₁ ht₁
    exact ⟨t₂, ht₂, hle'.trans hle⟩
  · obtain ⟨t₁, ht₁, hle⟩ := h.2 t ht
    obtain ⟨t₂, ht₂, hle'⟩ := h'.2 t₁ ht₁
    exact ⟨t₂, ht₂, hle.trans hle'⟩

/-- Every row is still there, with an interval that has not shrunk. -/
def Kept (e e' : Embeddings V) : Prop :=
  ∀ r ∈ e.rows, ∃ r' ∈ e'.rows, (schema V).key r' = (schema V).key r ∧ Within r.seen r'.seen

theorem Kept.refl (e : Embeddings V) : Kept e e := fun r hr => ⟨r, hr, rfl, .refl _⟩

theorem Kept.trans {e₁ e₂ e₃ : Embeddings V} (h : Kept e₁ e₂) (h' : Kept e₂ e₃) :
    Kept e₁ e₃ := by
  intro r hr
  obtain ⟨r₁, hr₁, hkey₁, hwithin₁⟩ := h r hr
  obtain ⟨r₂, hr₂, hkey₂, hwithin₂⟩ := h' r₁ hr₁
  exact ⟨r₂, hr₂, hkey₂.trans hkey₁, hwithin₁.trans hwithin₂⟩

/-- A call that goes through, and one of the rows that it writes. -/
def Writes (call : PersistCall K V) (e : Embeddings V) (new : EmbeddingRow V) : Prop :=
  ∃ rows e', embeddingRows call = some rows ∧ written call e rows = some e' ∧ new ∈ rows

/-- What a call writes over stored rows covers their intervals. -/
def Widening (call : PersistCall K V) (e : Embeddings V) : Prop :=
  ∀ new, Writes call e new → ∀ old ∈ e.rows,
    (schema V).key old = (schema V).key new → Within old.seen new.seen

theorem persist_eq_of_written {call : PersistCall K V} {e e' : Embeddings V}
    {rows : List (EmbeddingRow V)} (hrows : embeddingRows call = some rows)
    (hwritten : written call e rows = some e') : (persistClusterEmbeddings call e).2 = e' := by
  rw [persistClusterEmbeddings, hrows]
  dsimp only
  rw [hwritten]

/-- The row under the key of a written one has its interval. -/
theorem exists_of_writes {call : PersistCall K V} {e : Embeddings V} {new : EmbeddingRow V}
    (h : Writes call e new) : ∃ r ∈ (persistClusterEmbeddings call e).2.rows,
      (schema V).key r = (schema V).key new ∧ r.seen = new.seen := by
  obtain ⟨rows, e', hrows, hwritten, hnew⟩ := h
  rw [persist_eq_of_written hrows hwritten]
  rw [written] at hwritten
  split at hwritten
  · obtain ⟨r, hr, hkey, hcase⟩ := writtenBy_upsertAll hwritten hnew
    refine ⟨r, hr, hkey, ?_⟩
    rcases hcase with rfl | ⟨old, -, -, rfl⟩
    · rfl
    · rfl
  · cases hwritten

/-- A step keeps the intervals exactly when it writes wider ones. -/
theorem kept_persist_iff {call : PersistCall K V} {e : Embeddings V} :
    Kept e (persistClusterEmbeddings call e).2 ↔ Widening call e := by
  constructor
  · intro hkept new hwrites old hold hkey
    obtain ⟨r, hr, hrkey, hseen⟩ := exists_of_writes hwrites
    obtain ⟨r', hr', hrkey', hwithin⟩ := hkept old hold
    obtain rfl := Rows.eq_of_key hr' hr (hrkey'.trans (hkey.trans hrkey.symm))
    rwa [hseen] at hwithin
  · intro hwiden r hr
    cases hrows : embeddingRows call with
    | none =>
      rw [persistClusterEmbeddings, hrows]
      exact Kept.refl e r hr
    | some rows =>
      cases hwritten : written call e rows with
      | none =>
        rw [persistClusterEmbeddings, hrows]
        dsimp only
        rw [hwritten]
        exact Kept.refl e r hr
      | some e' =>
        by_cases hkey : (schema V).key r ∈ rows.map (schema V).key
        · obtain ⟨new, hnew, heq⟩ := List.mem_map.mp hkey
          have hwrites : Writes call e new := ⟨rows, e', hrows, hwritten, hnew⟩
          obtain ⟨r', hr', hrkey, hseen⟩ := exists_of_writes hwrites
          refine ⟨r', hr', hrkey.trans heq, ?_⟩
          rw [hseen]
          exact hwiden new hwrites r hr heq.symm
        · rw [persist_eq_of_written hrows hwritten]
          rw [written] at hwritten
          split at hwritten
          · exact ⟨r, mem_upsertAll_of_notMem hwritten hr hkey, rfl, .refl _⟩
          · cases hwritten

theorem runs_singleton (call : PersistCall K V) (e : Embeddings V) :
    runs [call] e = (persistClusterEmbeddings call e).2 := rfl

theorem runs_append (calls calls' : List (PersistCall K V)) (e : Embeddings V) :
    runs (calls ++ calls') e = runs calls' (runs calls e) := List.foldl_append

/-- Steps that write wider intervals keep them all along. -/
theorem kept_runs {calls : List (PersistCall K V)} {e : Embeddings V}
    (h : ∀ before call after, calls = before ++ call :: after → Widening call (runs before e)) :
    Kept e (runs calls e) := by
  induction calls generalizing e with
  | nil => exact Kept.refl e
  | cons call calls ih =>
    refine (kept_persist_iff.mpr (h [] call calls rfl)).trans (ih fun before call' after heq => ?_)
    exact h (call :: before) call' after (congrArg (call :: ·) heq)

/-- A row that was seen since the cutoff is not selected. -/
theorem notMem_selectExpired {e : Embeddings V} {r : EmbeddingRow V} (hr : r ∈ e.rows)
    {t cutoff : Timestamp} (hlast : r.lastSeen = some t) (hcutoff : cutoff ≤ t) (scope : String)
    (limit : ℕ) : r.id ∉ selectExpiredIds scope cutoff limit (table e) := by
  intro hmem
  obtain ⟨r', hr', hdue, hid⟩ := Table.mem_select hmem
  obtain rfl : r' = r := Rows.eq_of_id hr' hr hid
  have hexpiry : Expiring.expiry r' = t := by
    show (r'.lastSeen.or (some r'.updatedAt)).getD r'.createdAt = t
    rw [hlast]
    rfl
  have hlt : Expiring.expiry r' < cutoff := by
    simpa using (Bool.and_eq_true_iff.mp hdue).2
  exact absurd (hexpiry ▸ hlt) (not_lt_of_ge hcutoff)

/-- From every state of a run to every later one the intervals do not shrink, and a purge
spares every embedding that a run wrote as seen since the cutoff. -/
def KeepsWidest (e : Embeddings V) (calls : List (PersistCall K V)) : Prop :=
  (∀ before middle after, calls = before ++ (middle ++ after) →
    Kept (runs before e) (runs (before ++ middle) e)) ∧
  ∀ before call middle after, calls = before ++ (call :: middle ++ after) →
    ∀ new t, Writes call (runs before e) new → new.lastSeen = some t →
      ∀ scope cutoff limit, cutoff ≤ t →
        ∃ r ∈ (runs (before ++ call :: middle) e).rows, (schema V).key r = (schema V).key new ∧
          r.id ∉ selectExpiredIds scope cutoff limit (table (runs (before ++ call :: middle) e))

/-- The widest interval is kept exactly when no step writes a narrower one. -/
theorem keepsWidest_iff (e : Embeddings V) (calls : List (PersistCall K V)) :
    KeepsWidest e calls ↔
      ∀ before call after, calls = before ++ call :: after → Widening call (runs before e) := by
  constructor
  · rintro ⟨hkept, -⟩ before call after heq
    have hstep := hkept before [call] after heq
    rw [runs_append, runs_singleton] at hstep
    exact kept_persist_iff.mp hstep
  · intro hwiden
    have hkept : ∀ before middle after, calls = before ++ (middle ++ after) →
        Kept (runs before e) (runs (before ++ middle) e) := by
      intro before middle after heq
      rw [runs_append]
      refine kept_runs fun before' call after' heq' => ?_
      rw [← runs_append]
      refine hwiden (before ++ before') call (after' ++ after) ?_
      rw [heq, heq']
      simp
    refine ⟨hkept, ?_⟩
    intro before call middle after heq new t hwrites hlast scope cutoff limit hcutoff
    obtain ⟨r, hr, hkey, hseen⟩ := exists_of_writes hwrites
    have hstate : runs (before ++ [call]) e =
        (persistClusterEmbeddings call (runs before e)).2 := by rw [runs_append, runs_singleton]
    have hlater := hkept (before ++ [call]) middle after (by rw [heq]; simp)
    rw [hstate, List.append_assoc, List.singleton_append] at hlater
    obtain ⟨r', hr', hkey', hwithin⟩ := hlater r hr
    obtain ⟨t', ht', hle⟩ := hwithin.2 t ((congrArg Interval.last hseen).trans hlast)
    exact ⟨r', hr', hkey'.trans hkey,
      notMem_selectExpired hr' ht' (hcutoff.trans hle) scope limit⟩

/-! A historical window after a live one. -/

def someVector : List ℕ := List.replicate storedEmbeddingDims 1

/-- A run over a window in which one fingerprint is seen. -/
def windowRun (first last : Timestamp) (rowId : ℕ) : PersistCall ℚ ℕ where
  clusters := [⟨"f1", "timeout", 3, ∅, ∅, [], some first, some last, 0, 1, 1, false, [], [], ∅⟩]
  scope := "default"
  provider := ⟨true, fun texts => some (texts.map fun _ => someVector)⟩
  embeddingsDimensions := storedEmbeddingDims
  embeddingsModel := "model"
  rowIds _ := rowId
  now := 500
  writable := true

def windowRow (first last : Timestamp) (rowId : ℕ) : EmbeddingRow ℕ :=
  ⟨⟨rowId, "default", some last, 500, 500⟩, "f1", "timeout", someVector, "model", some first, 3⟩

theorem embeddingRows_windowRun (first last : Timestamp) (rowId : ℕ) :
    embeddingRows (windowRun first last rowId) = some [windowRow first last rowId] := by
  have hstrip : strip "timeout" = "timeout" := by decide
  have hlength : someVector.length = storedEmbeddingDims := List.length_replicate
  simp [embeddingRows, windowRun, windowRow, eligible, hstrip, clusterEmbeddingRowValues, hlength]

/-- A single row goes through when its key is taken or its id is free. -/
theorem writes_windowRun {first last : Timestamp} {rowId : ℕ} {e : Embeddings ℕ}
    (h : ("default", "f1") ∈ e.rows.map (schema ℕ).key ∨ rowId ∉ e.rows.map (schema ℕ).id) :
    Writes (windowRun first last rowId) e (windowRow first last rowId) := by
  have hwritten : ∃ e', written (windowRun first last rowId) e [windowRow first last rowId] =
      some e' := by
    have hwritable : (windowRun first last rowId).writable = true := rfl
    have hone : ([windowRow first last rowId].map (schema ℕ).key).Nodup := List.nodup_singleton _
    rw [written, if_pos hwritable, Rows.upsertAll, if_pos hone, List.foldlM_cons, Rows.upsert]
    split
    · exact ⟨_, rfl⟩
    · rename_i hkey
      have hid : (schema ℕ).id (windowRow first last rowId) ∉ e.rows.map (schema ℕ).id :=
        h.resolve_left hkey
      rw [dif_neg hid]
      exact ⟨_, rfl⟩
  obtain ⟨e', hwritten⟩ := hwritten
  exact ⟨_, e', embeddingRows_windowRun first last rowId, hwritten, List.mem_singleton_self _⟩

def emptyEmbeddings : Embeddings ℕ := ⟨[], List.nodup_nil, List.nodup_nil⟩

/-- A historical window after a live one takes the interval back. -/
theorem narrowed_by_history :
    ¬ KeepsWidest emptyEmbeddings [windowRun 100 200 1, windowRun 10 20 2] := by
  rintro ⟨hkept, -⟩
  have hstep := hkept [windowRun 100 200 1] [windowRun 10 20 2] [] rfl
  rw [runs_append, runs_singleton, runs_singleton] at hstep
  have hwiden := kept_persist_iff.mp hstep
  have hlive : Writes (windowRun 100 200 1) emptyEmbeddings (windowRow 100 200 1) :=
    writes_windowRun (.inr List.not_mem_nil)
  obtain ⟨old, hold, hkey, hseen⟩ := exists_of_writes hlive
  have hhistory : Writes (windowRun 10 20 2) (persistClusterEmbeddings (windowRun 100 200 1)
      emptyEmbeddings).2 (windowRow 10 20 2) :=
    writes_windowRun (.inl (List.mem_map.mpr ⟨old, hold, hkey⟩))
  have hwithin := hwiden (windowRow 10 20 2) hhistory old hold hkey
  obtain ⟨t, ht, hle⟩ := hwithin.2 200 (congrArg Interval.last hseen)
  obtain rfl : t = 20 := (Option.some.inj ht).symm
  exact absurd hle (by decide)

end Raglogs.EmbeddingIntervals

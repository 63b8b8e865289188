import Mathlib.Algebra.Order.BigOperators.Group.List
import Mathlib.Data.Int.Interval
import Raglogs.Collections
import Raglogs.ModelFiles

/-!
What a model file may hold so that it is rejected or safe. The loader converts each
number but looks at no tree: a tree may lead back to a node or beyond its arrays, a
feature may be none of the vector's, and a probability may be out of range.
-/

namespace Raglogs.ModelFiles

open Branchings Collections Text

/-! What a loader comes upon. -/

/-- The exceptions that lie in the way of a result, the first of which is raised. -/
def Reports {α : Type} (r : Except PyError α) (faults : List PyError) : Prop :=
  match r with
  | .ok _ => faults = []
  | .error e => faults.head? = some e

def faultOf {α : Type} : Except PyError α → List PyError
  | .ok _ => []
  | .error e => [e]

section Reporting

variable {α β : Type}

theorem reports_faultOf (r : Except PyError α) : Reports r (faultOf r) := by
  cases r <;> rfl

theorem Reports.bind {r : Except PyError α} {f : α → Except PyError β} {l l' : List PyError}
    (h : Reports r l) (hf : ∀ a, r = .ok a → Reports (f a) l') : Reports (r >>= f) (l ++ l') := by
  cases r with
  | ok a =>
    obtain rfl : l = [] := h
    exact hf a rfl
  | error e =>
    obtain ⟨rest, rfl⟩ := List.head?_eq_some_iff.mp h
    rfl

theorem except_ok_bind (a : α) (f : α → Except PyError β) : (.ok a >>= f) = f a := rfl

theorem reports_ok (a : α) : Reports (.ok a) [] := rfl

/-- A last result that is always there. -/
theorem Reports.map {r : Except PyError α} {l : List PyError} (h : Reports r l) (f : α → β) :
    Reports (r >>= fun a => .ok (f a)) l := by
  have hbind := h.bind fun a _ => reports_ok (f a)
  rwa [List.append_nil] at hbind

theorem reports_mapM {f : α → Except PyError β} {g : α → List PyError}
    (h : ∀ a, Reports (f a) (g a)) (l : List α) : Reports (l.mapM f) (l.flatMap g) := by
  induction l with
  | nil => rfl
  | cons a l ih =>
    rw [List.mapM_cons, List.flatMap_cons]
    exact (h a).bind fun b _ => ih.map (b :: ·)

theorem Reports.ok_iff {r : Except PyError α} {l : List PyError} (h : Reports r l) :
    (∃ a, r = .ok a) ↔ l = [] := by
  cases r with
  | ok a => exact iff_of_true ⟨a, rfl⟩ h
  | error e =>
    refine iff_of_false (fun ⟨a, ha⟩ => nomatch ha) ?_
    rintro rfl
    cases h

theorem Reports.error_iff {r : Except PyError α} {l : List PyError} (h : Reports r l)
    {e : PyError} : r = .error e ↔ l.head? = some e := by
  cases r with
  | ok a =>
    obtain rfl : l = [] := h
    exact iff_of_false (fun ha => nomatch ha) (fun hl => nomatch hl)
  | error e' =>
    have hl : l.head? = some e' := h
    rw [hl, Except.error.injEq, Option.some.injEq]

end Reporting

section Faults

variable {φ : Type} (F : Floats φ)

/-- Caught, or raised for an integer that is too large. -/
def Mild (e : PyError) : Prop := e.caught = true ∨ e = .overflow

def floatsFaults (v : Value φ) (key : String) : List PyError :=
  match v.itemsAt key with
  | .error e => [e]
  | .ok items => items.flatMap fun item => faultOf (item.toFloat F)

def treeFaults (v : Value φ) : List PyError :=
  faultOf (v.itemsAt "children_left") ++ (faultOf (v.itemsAt "children_right") ++
    (faultOf (v.itemsAt "feature") ++ (floatsFaults F v "threshold" ++ floatsFaults F v "value")))

def versionFaults (data : Value φ) (version : ℤ) : List PyError :=
  match data.get "version" with
  | .error e => [e]
  | .ok v => if v.equalsInt F version = false then [.value] else []

def treesFaults (data : Value φ) : List PyError :=
  match data.itemsAt "trees" with
  | .error e => [e]
  | .ok items => items.flatMap (treeFaults F)

/-- What is amiss with the data of a ranker, in the order of reading. -/
def rankerFaults (data : Value φ) : List PyError :=
  versionFaults F data artifactVersion ++ (treesFaults F data ++
    (faultOf (data.itemsAt "feature_names") ++
      (faultOf (data.floatAt F "init") ++ faultOf (data.floatAt F "learning_rate"))))

def kindFaults (data : Value φ) : List PyError :=
  match data.get "type" with
  | .error e => [e]
  | .ok (.str "platt") => if data.featureName.isNone then [.value] else []
  | .ok _ => [.value]

/-- What is amiss with the data of a calibrator, in the order of reading. -/
def calibratorFaults (data : Value φ) : List PyError :=
  versionFaults F data calibratorVersion ++ (kindFaults data ++
    (faultOf (data.floatAt F "a") ++ faultOf (data.floatAt F "b")))

theorem reports_floatsAt (v : Value φ) (key : String) :
    Reports (v.floatsAt F key) (floatsFaults F v key) := by
  rw [Value.floatsAt, floatsFaults]
  cases v.itemsAt key with
  | error e => rfl
  | ok items => exact reports_mapM (fun item => reports_faultOf _) items

theorem reports_readTree (v : Value φ) : Reports (readTree F v) (treeFaults F v) := by
  refine (reports_faultOf _).bind fun childrenLeft _ => ?_
  refine (reports_faultOf _).bind fun childrenRight _ => ?_
  refine (reports_faultOf _).bind fun feature _ => ?_
  refine (reports_floatsAt F v _).bind fun threshold _ => ?_
  exact (reports_floatsAt F v _).map _

theorem reports_trees (data : Value φ) :
    Reports (data.itemsAt "trees" >>= fun items => items.mapM (readTree F))
      (treesFaults F data) := by
  rw [treesFaults]
  cases data.itemsAt "trees" with
  | error e => rfl
  | ok items => exact reports_mapM (reports_readTree F) items

theorem reports_version {α : Type} (data : Value φ) (version : ℤ) {r : Except PyError α}
    {l : List PyError} (h : Reports r l) :
    Reports (data.get "version" >>= fun v =>
      if v.equalsInt F version = false then throw .value >>= fun _ : PUnit => r else r)
      (versionFaults F data version ++ l) := by
  rw [versionFaults]
  cases data.get "version" with
  | error e => rfl
  | ok v =>
    change Reports (if v.equalsInt F version = false then _ else r) _
    by_cases hv : v.equalsInt F version = false
    · simp only [hv, if_true]
      rfl
    · simp only [hv]
      exact h

theorem reports_ranker (data : Value φ) :
    Reports (rankerFromDict F data) (rankerFaults F data) := by
  refine reports_version F data artifactVersion ?_
  rw [← bind_assoc]
  refine (reports_trees F data).bind fun trees _ => ?_
  refine (reports_faultOf _).bind fun names _ => ?_
  refine (reports_faultOf _).bind fun init _ => ?_
  exact (reports_faultOf _).map _

theorem reports_calibrator (data : Value φ) :
    Reports (calibratorFromDict F data) (calibratorFaults F data) := by
  refine reports_version F data calibratorVersion ?_
  rw [kindFaults]
  cases data.get "type" with
  | error e => rfl
  | ok kind =>
    rw [except_ok_bind]
    split
    · cases data.featureName with
      | none => rfl
      | some feature =>
        refine (reports_faultOf _).bind fun a _ => ?_
        exact (reports_faultOf _).map _
    · rename_i hkind
      split
      · rename_i heq
        cases heq
      · rename_i heq
        exact absurd (Except.ok.inj heq) hkind
      · rfl

/-- Of an object, nothing else lets a conversion fail. -/
theorem mild_toFloat {v : Value φ} {e : PyError} (h : v.toFloat F = .error e) : Mild e := by
  cases v with
  | int n =>
    change (F.ofInt n).elim (Except.error PyError.overflow) .ok = .error e at h
    cases hn : F.ofInt n with
    | none =>
      rw [hn] at h
      cases h
      exact Or.inr rfl
    | some x =>
      rw [hn] at h
      cases h
  | str s =>
    change (F.ofString s).elim (Except.error PyError.value) .ok = .error e at h
    cases hs : F.ofString s with
    | none =>
      rw [hs] at h
      cases h
      exact Or.inl rfl
    | some x =>
      rw [hs] at h
      cases h
  | bool b => cases h
  | float x => cases h
  | null | list items | dict fields =>
    cases h
    exact Or.inl rfl

theorem mild_member {v : Value φ} {key : String} {e : PyError} (h : v.member key = .error e) :
    Mild e := by
  cases v with
  | dict fields =>
    change (fields.lookup key).elim (Except.error PyError.key) .ok = .error e at h
    cases hkey : fields.lookup key with
    | none =>
      rw [hkey] at h
      cases h
      exact Or.inl rfl
    | some v =>
      rw [hkey] at h
      cases h
  | null | bool b | int n | float x | str s | list items =>
    cases h
    exact Or.inl rfl

theorem mild_itemsAt {v : Value φ} {key : String} {e : PyError} (h : v.itemsAt key = .error e) :
    Mild e := by
  rw [Value.itemsAt] at h
  cases hmember : v.member key with
  | error e' =>
    rw [hmember] at h
    cases h
    exact mild_member hmember
  | ok w =>
    rw [hmember, except_ok_bind] at h
    cases w with
    | list items | str s | dict fields => cases h
    | null | bool b | int n | float x =>
      cases h
      exact Or.inl rfl

theorem mild_floatAt {v : Value φ} {key : String} {e : PyError} (h : v.floatAt F key = .error e) :
    Mild e := by
  rw [Value.floatAt] at h
  cases hmember : v.member key with
  | error e' =>
    rw [hmember] at h
    cases h
    exact mild_member hmember
  | ok w =>
    rw [hmember, except_ok_bind] at h
    exact mild_toFloat F h

theorem mem_faultOf {α : Type} {r : Except PyError α} {e : PyError} :
    e ∈ faultOf r ↔ r = .error e := by
  cases r with
  | ok a => simp [faultOf]
  | error e' => simp [faultOf, eq_comm]

theorem mild_floatsFaults (v : Value φ) (key : String) : ∀ e ∈ floatsFaults F v key, Mild e := by
  intro e he
  rw [floatsFaults] at he
  split at he
  · rename_i e' herror
    rw [List.mem_singleton.mp he]
    exact mild_itemsAt herror
  · obtain ⟨item, -, hitem⟩ := List.mem_flatMap.mp he
    exact mild_toFloat F (mem_faultOf.mp hitem)

theorem mild_treeFaults (v : Value φ) : ∀ e ∈ treeFaults F v, Mild e := by
  have hitems : ∀ key, ∀ e ∈ faultOf (v.itemsAt key), Mild e :=
    fun key e he => mild_itemsAt (mem_faultOf.mp he)
  simp only [treeFaults, List.forall_mem_append]
  exact ⟨hitems _, hitems _, hitems _, mild_floatsFaults F v _, mild_floatsFaults F v _⟩

theorem mild_treesFaults (data : Value φ) : ∀ e ∈ treesFaults F data, Mild e := by
  intro e he
  rw [treesFaults] at he
  split at he
  · rename_i e' herror
    rw [List.mem_singleton.mp he]
    exact mild_itemsAt herror
  · obtain ⟨item, -, hitem⟩ := List.mem_flatMap.mp he
    exact mild_treeFaults F item e hitem

theorem mild_versionFaults (fields : List (String × Value φ)) (version : ℤ) :
    ∀ e ∈ versionFaults F (.dict fields) version, Mild e := by
  intro e he
  change e ∈ (if _ then [PyError.value] else []) at he
  split at he
  · rw [List.mem_singleton.mp he]
    exact Or.inl rfl
  · cases he

theorem mild_kindFaults (fields : List (String × Value φ)) :
    ∀ e ∈ kindFaults (.dict fields), Mild e := by
  intro e he
  rw [kindFaults, Value.get] at he
  split at he
  · rename_i herror
    cases herror
  · split at he
    · rw [List.mem_singleton.mp he]
      exact Or.inl rfl
    · cases he
  · rw [List.mem_singleton.mp he]
    exact Or.inl rfl

theorem mild_rankerFaults (fields : List (String × Value φ)) :
    ∀ e ∈ rankerFaults F (.dict fields), Mild e := by
  simp only [rankerFaults, List.forall_mem_append]
  refine ⟨mild_versionFaults F fields _, mild_treesFaults F _, ?_, ?_, ?_⟩
  · exact fun e he => mild_itemsAt (mem_faultOf.mp he)
  · exact fun e he => mild_floatAt F (mem_faultOf.mp he)
  · exact fun e he => mild_floatAt F (mem_faultOf.mp he)

theorem mild_calibratorFaults (fields : List (String × Value φ)) :
    ∀ e ∈ calibratorFaults F (.dict fields), Mild e := by
  simp only [calibratorFaults, List.forall_mem_append]
  refine ⟨mild_versionFaults F fields _, mild_kindFaults fields, ?_, ?_⟩
  · exact fun e he => mild_floatAt F (mem_faultOf.mp he)
  · exact fun e he => mild_floatAt F (mem_faultOf.mp he)

end Faults

end Raglogs.ModelFiles

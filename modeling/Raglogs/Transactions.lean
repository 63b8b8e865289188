import Mathlib.Data.List.Basic

/-!
Programs that work on a shared store through a session. What a session writes is seen
by itself only until it commits. A statement that fails aborts the transaction, and
until it ends every further statement fails too; a statement in a savepoint is taken
back alone. A program is a tree: at each statement it goes on with what it learns.
-/

namespace Raglogs.Transactions

variable {σ ε α β : Type}

/-- What a session has written since its transaction began. -/
structure Session (σ : Type) where
  writes : List (σ → σ)
  aborted : Bool

namespace Session

def clean : Session σ := ⟨[], false⟩

/-- The store as the session sees it. -/
def view (s : Session σ) (store : σ) : σ := s.writes.foldl (fun store write => write store) store

def write (s : Session σ) (u : σ → σ) : Session σ := { s with writes := s.writes ++ [u] }

def abort (s : Session σ) : Session σ := { s with aborted := true }

/-- What a read gives. -/
def read (s : Session σ) (store : σ) : Option σ := if s.aborted then none else some (s.view store)

/-- Execute a statement: the session after it, and what it sees if it did not fail. -/
def exec (s : Session σ) (store : σ) (guarded : Bool) (statement : σ → Option (σ → σ)) :
    Session σ × Option σ :=
  if s.aborted then (s, none)
  else
    match statement (s.view store) with
    | some u => (s.write u, some (u (s.view store)))
    | none => (if guarded then s else s.abort, none)

/-- The store after the end of the transaction; an aborted one leaves nothing. -/
def commit (s : Session σ) (store : σ) : σ := if s.aborted then store else s.view store

@[simp]
theorem clean_aborted : (clean : Session σ).aborted = false := rfl

@[simp]
theorem clean_writes : (clean : Session σ).writes = [] := rfl

@[simp]
theorem clean_view (store : σ) : (clean : Session σ).view store = store := rfl

@[simp]
theorem write_aborted (s : Session σ) (u : σ → σ) : (s.write u).aborted = s.aborted := rfl

@[simp]
theorem view_write (s : Session σ) (u : σ → σ) (store : σ) :
    (s.write u).view store = u (s.view store) := by
  rw [view, view, write, List.foldl_append]
  rfl

theorem exec_of_aborted {s : Session σ} (h : s.aborted = true) (store : σ) (guarded : Bool)
    (statement : σ → Option (σ → σ)) : s.exec store guarded statement = (s, none) := by
  rw [exec, if_pos h]

theorem exec_of_some {s : Session σ} (h : s.aborted = false) {store : σ} (guarded : Bool)
    {statement : σ → Option (σ → σ)} {u : σ → σ} (hu : statement (s.view store) = some u) :
    s.exec store guarded statement = (s.write u, some (u (s.view store))) := by
  rw [exec, if_neg (by rw [h]; exact Bool.false_ne_true), hu]

theorem exec_of_none {s : Session σ} (h : s.aborted = false) {store : σ} (guarded : Bool)
    {statement : σ → Option (σ → σ)} (hnone : statement (s.view store) = none) :
    s.exec store guarded statement = (if guarded then s else s.abort, none) := by
  rw [exec, if_neg (by rw [h]; exact Bool.false_ne_true), hnone]

theorem commit_of_not_aborted {s : Session σ} (h : s.aborted = false) (store : σ) :
    s.commit store = s.view store := by
  rw [commit, if_neg (by rw [h]; exact Bool.false_ne_true)]

end Session

/-- A program of a session. -/
inductive Script (σ ε α : Type)
  | ret (a : α)
  | raise (e : ε)
  | read (next : Option σ → Script σ ε α)
  | exec (guarded : Bool) (statement : σ → Option (σ → σ)) (next : Option σ → Script σ ε α)
  | commit (next : Script σ ε α)

/-- What a program leaves: the store, the session, and its value or exception. -/
structure Ran (σ ε α : Type) where
  store : σ
  session : Session σ
  result : Except ε α

namespace Script

def bind : Script σ ε α → (α → Script σ ε β) → Script σ ε β
  | .ret a, f => f a
  | .raise e, _ => .raise e
  | .read next, f => .read (fun seen => (next seen).bind f)
  | .exec guarded statement next, f => .exec guarded statement (fun seen => (next seen).bind f)
  | .commit next, f => .commit (next.bind f)

def tryCatch : Script σ ε α → (ε → Script σ ε α) → Script σ ε α
  | .ret a, _ => .ret a
  | .raise e, f => f e
  | .read next, f => .read (fun seen => (next seen).tryCatch f)
  | .exec guarded statement next, f =>
      .exec guarded statement (fun seen => (next seen).tryCatch f)
  | .commit next, f => .commit (next.tryCatch f)

/-- Run a program to its end, with no other session at work. -/
def run : Script σ ε α → σ → Session σ → Ran σ ε α
  | .ret a, store, s => ⟨store, s, .ok a⟩
  | .raise e, store, s => ⟨store, s, .error e⟩
  | .read next, store, s => (next (s.read store)).run store s
  | .exec guarded statement next, store, s =>
      (next (s.exec store guarded statement).2).run store (s.exec store guarded statement).1
  | .commit next, store, s => next.run (s.commit store) .clean

/-- One instruction of a program: the store, and what is left unless the program ends. -/
def step : Script σ ε α → σ → Session σ → σ × Option (Session σ × Script σ ε α)
  | .ret _, store, s => (s.commit store, none)
  | .raise _, store, _ => (store, none)
  | .read next, store, s => (store, some (s, next (s.read store)))
  | .exec guarded statement next, store, s =>
      (store, some ((s.exec store guarded statement).1, next (s.exec store guarded statement).2))
  | .commit next, store, s => (s.commit store, some (.clean, next))

/-- A program in a session of its own: its end commits, an exception rolls back. -/
def session (script : Script σ ε α) (store : σ) : σ :=
  match script.run store .clean with
  | ⟨store, s, .ok _⟩ => s.commit store
  | ⟨store, _, .error _⟩ => store

theorem run_bind (script : Script σ ε α) (f : α → Script σ ε β) :
    ∀ (store : σ) (s : Session σ), (script.bind f).run store s =
      match script.run store s with
      | ⟨store, s, .ok a⟩ => (f a).run store s
      | ⟨store, s, .error e⟩ => ⟨store, s, .error e⟩ := by
  induction script with
  | ret a => exact fun _ _ => rfl
  | raise e => exact fun _ _ => rfl
  | read next ih => exact fun store s => ih (s.read store) store s
  | exec guarded statement next ih => exact fun store s => ih _ store _
  | commit next ih => exact fun store s => ih (s.commit store) .clean

theorem run_tryCatch (script : Script σ ε α) (f : ε → Script σ ε α) :
    ∀ (store : σ) (s : Session σ), (script.tryCatch f).run store s =
      match script.run store s with
      | ⟨store, s, .ok a⟩ => ⟨store, s, .ok a⟩
      | ⟨store, s, .error e⟩ => (f e).run store s := by
  induction script with
  | ret a => exact fun _ _ => rfl
  | raise e => exact fun _ _ => rfl
  | read next ih => exact fun store s => ih (s.read store) store s
  | exec guarded statement next ih => exact fun store s => ih _ store _
  | commit next ih => exact fun store s => ih (s.commit store) .clean

/-! Invariants. -/

/-- Every write of a program has a property. -/
def All (Q : (σ → σ) → Prop) : Script σ ε α → Prop
  | .ret _ => True
  | .raise _ => True
  | .read next => ∀ seen, (next seen).All Q
  | .exec _ statement next =>
      (∀ view u, statement view = some u → Q u) ∧ ∀ seen, (next seen).All Q
  | .commit next => next.All Q

/-- A write keeps a property of the store. -/
def Keeps (P : σ → Prop) (u : σ → σ) : Prop := ∀ store, P store → P (u store)

theorem All.mono {Q Q' : (σ → σ) → Prop} (h : ∀ u, Q u → Q' u) {script : Script σ ε α}
    (hscript : script.All Q) : script.All Q' := by
  induction script with
  | ret a => trivial
  | raise e => trivial
  | read next ih => exact fun seen => ih seen (hscript seen)
  | exec guarded statement next ih =>
    exact ⟨fun view u hu => h u (hscript.1 view u hu), fun seen => ih seen (hscript.2 seen)⟩
  | commit next ih => exact ih hscript

theorem All.bind {Q : (σ → σ) → Prop} {script : Script σ ε α} {f : α → Script σ ε β}
    (hscript : script.All Q) (hf : ∀ a, (f a).All Q) : (script.bind f).All Q := by
  induction script with
  | ret a => exact hf a
  | raise e => trivial
  | read next ih => exact fun seen => ih seen (hscript seen)
  | exec guarded statement next ih => exact ⟨hscript.1, fun seen => ih seen (hscript.2 seen)⟩
  | commit next ih => exact ih hscript

theorem view_of_keeps {P : σ → Prop} {s : Session σ} (hs : ∀ u ∈ s.writes, Keeps P u) {store : σ}
    (h : P store) : P (s.view store) := by
  obtain ⟨writes, aborted⟩ := s
  induction writes generalizing store with
  | nil => exact h
  | cons u writes ih =>
    exact ih (hs u List.mem_cons_self store h) (fun v hv => hs v (List.mem_cons_of_mem u hv))

/-- What a statement leaves in the session. -/
theorem exec_keeps {P : σ → Prop} {s : Session σ} (hs : ∀ u ∈ s.writes, Keeps P u) (store : σ)
    (guarded : Bool) {statement : σ → Option (σ → σ)}
    (hstatement : ∀ view u, statement view = some u → Keeps P u) :
    ∀ u ∈ (s.exec store guarded statement).1.writes, Keeps P u := by
  unfold Session.exec
  split
  · exact hs
  · split
    · rename_i u hu
      intro v hv
      rcases List.mem_append.mp hv with hv | hv
      · exact hs v hv
      · rw [List.mem_singleton.mp hv]
        exact hstatement _ u hu
    · split
      · exact hs
      · exact hs

/-- A property that every write keeps holds of the store after a run and of what the
session sees. -/
theorem run_keeps {P : σ → Prop} {script : Script σ ε α} (hscript : script.All (Keeps P)) :
    ∀ {store : σ} {s : Session σ}, P store → (∀ u ∈ s.writes, Keeps P u) →
      P (script.run store s).store ∧ ∀ u ∈ (script.run store s).session.writes, Keeps P u := by
  induction script with
  | ret a => exact fun h hs => ⟨h, hs⟩
  | raise e => exact fun h hs => ⟨h, hs⟩
  | read next ih => exact fun h hs => ih _ (hscript _) h hs
  | exec guarded statement next ih =>
    exact fun h hs => ih _ (hscript.2 _) h (exec_keeps hs _ guarded hscript.1)
  | commit next ih =>
    intro store s h hs
    refine ih hscript ?_ (fun u hu => absurd hu List.not_mem_nil)
    unfold Session.commit
    split
    · exact h
    · exact view_of_keeps hs h

end Script

end Raglogs.Transactions

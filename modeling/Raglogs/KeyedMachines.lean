import Raglogs.Dicts

/-!
Machines kept one for each key, over arbitrary keys, states, inputs and outputs. A
machine is made when its key is first seen. What a key's machine answers, and the
state it is left in, is what the machine alone does on the inputs of that key.
-/

namespace Raglogs.KeyedMachines

open Dicts

variable {κ S I O : Type*} [DecidableEq κ]

structure Machine (κ S I O : Type*) where
  init : κ → I → S
  step : κ → S → I → O × S

namespace Machine

variable (m : Machine κ S I O)

/-- The machine of one key, made by its first input. -/
def react (k : κ) (state : Option S) (i : I) : O × S := m.step k (state.getD (m.init k i)) i

def run (k : κ) : Option S → List I → List (I × O)
  | _, [] => []
  | state, i :: rest => (i, (m.react k state i).1) :: run k (some (m.react k state i).2) rest

/-- The state after some inputs. -/
def after (k : κ) : Option S → List I → Option S
  | state, [] => state
  | state, i :: rest => after k (some (m.react k state i).2) rest

/-- Answer one input with the machine of its key. -/
def serve (store : Dict κ S) (k : κ) (i : I) : O × Dict κ S :=
  ((m.react k (store.lookup k) i).1, store.insert k (m.react k (store.lookup k) i).2)

def serveAll : Dict κ S → List (κ × I) → List (κ × I × O)
  | _, [] => []
  | store, (k, i) :: rest => (k, i, (m.serve store k i).1) :: serveAll (m.serve store k i).2 rest

def storeAfter : Dict κ S → List (κ × I) → Dict κ S
  | store, [] => store
  | store, (k, i) :: rest => storeAfter (m.serve store k i).2 rest

/-- The inputs of a key. -/
def inputsOf (k : κ) (l : List (κ × I)) : List I := (l.filter (fun p => p.1 = k)).map Prod.snd

/-- What the machine of a key answered. -/
def answersOf (k : κ) (l : List (κ × I × O)) : List (I × O) :=
  (l.filter (fun p => p.1 = k)).map Prod.snd

omit [DecidableEq κ] in
/-- Every input is answered, in order. -/
theorem map_fst_run (k : κ) (state : Option S) (l : List I) :
    (m.run k state l).map Prod.fst = l := by
  induction l generalizing state with
  | nil => rfl
  | cons i rest ih => rw [run, List.map_cons, ih]

theorem inputsOf_cons (k k' : κ) (i : I) (rest : List (κ × I)) :
    inputsOf k ((k', i) :: rest) =
      if k' = k then i :: inputsOf k rest else inputsOf k rest := by
  unfold inputsOf
  by_cases hk : k' = k <;> simp [hk]

theorem answersOf_cons (k k' : κ) (a : I × O) (rest : List (κ × I × O)) :
    answersOf k ((k', a) :: rest) =
      if k' = k then a :: answersOf k rest else answersOf k rest := by
  unfold answersOf
  by_cases hk : k' = k <;> simp [hk]

theorem lookup_serve (store : Dict κ S) (k k' : κ) (i : I) :
    (m.serve store k i).2.lookup k' =
      if k' = k then some (m.react k (store.lookup k) i).2 else store.lookup k' :=
  lookup_insert_eq _ _ _ _

/-- A key's answers are those of its machine on its inputs. -/
theorem answersOf_serveAll (k : κ) (store : Dict κ S) (l : List (κ × I)) :
    answersOf k (m.serveAll store l) = m.run k (store.lookup k) (inputsOf k l) := by
  induction l generalizing store with
  | nil => rfl
  | cons p rest ih =>
    obtain ⟨k', i⟩ := p
    rw [serveAll, answersOf_cons, inputsOf_cons, ih, lookup_serve]
    by_cases hk : k' = k
    · subst hk
      rw [if_pos rfl, if_pos rfl, if_pos rfl, run, serve]
    · rw [if_neg hk, if_neg hk, if_neg (Ne.symm hk)]

/-- A key's state is that of its machine after its inputs. -/
theorem lookup_storeAfter (k : κ) (store : Dict κ S) (l : List (κ × I)) :
    (m.storeAfter store l).lookup k = m.after k (store.lookup k) (inputsOf k l) := by
  induction l generalizing store with
  | nil => rfl
  | cons p rest ih =>
    obtain ⟨k', i⟩ := p
    rw [storeAfter, ih, lookup_serve, inputsOf_cons]
    by_cases hk : k' = k
    · subst hk
      rw [if_pos rfl, if_pos rfl, after]
    · rw [if_neg hk, if_neg (Ne.symm hk)]

end Machine

end Raglogs.KeyedMachines

import Mathlib.Data.List.Basic
import Mathlib.Data.List.Infix
import Mathlib.Tactic.Tauto

/-!
Fragments of one stream among the elements of a sequence, over arbitrary contents. A
scanner that holds fragments back and lets them go at anything foreign yields every
run of fragments in one piece exactly if no run that is finished later is interrupted.
-/

namespace Raglogs.FragmentRuns

variable {α : Type*}

/-- A fragment of the stream, a last fragment of it, or something else. -/
inductive Symbol (α : Type*)
  | part (a : α)
  | last (a : α)
  | foreign

/-- What the scanner yields of the stream, piece by piece. -/
def scan : List α → List (Symbol α) → List (List α)
  | held, [] => if held.isEmpty then [] else [held]
  | held, .part a :: l => scan (held ++ [a]) l
  | held, .last a :: l => (held ++ [a]) :: scan [] l
  | held, .foreign :: l => if held.isEmpty then scan [] l else held :: scan [] l

/-- The finished runs of the stream, whatever stands between their fragments. -/
def runs : List α → List (Symbol α) → List (List α)
  | _, [] => []
  | held, .part a :: l => runs (held ++ [a]) l
  | held, .last a :: l => (held ++ [a]) :: runs [] l
  | held, .foreign :: l => runs held l

/-- The contents of the stream. -/
def contents : List (Symbol α) → List α
  | [] => []
  | .part a :: l => a :: contents l
  | .last a :: l => a :: contents l
  | .foreign :: l => contents l

/-- A run ends in these elements. -/
def Finishes (l : List (Symbol α)) : Prop := ∃ a, Symbol.last a ∈ l

/-- Something foreign stands behind a fragment whose run ends later. -/
def Interrupted (l : List (Symbol α)) : Prop :=
  ∃ before a after, l = before ++ .part a :: .foreign :: after ∧ Finishes after

/-- The same, behind fragments that are held back. -/
def InterruptedFrom (held : List α) (l : List (Symbol α)) : Prop :=
  (held ≠ [] ∧ ∃ after, l = .foreign :: after ∧ Finishes after) ∨ Interrupted l

/-- Nothing is lost of the stream. -/
theorem flatten_scan (held : List α) (l : List (Symbol α)) :
    (scan held l).flatten = held ++ contents l := by
  induction l generalizing held with
  | nil => cases held <;> simp [scan, contents]
  | cons x l ih =>
    cases x with
    | part a => simp [scan, contents, ih]
    | last a => simp [scan, contents, ih]
    | foreign => cases held <;> simp [scan, contents, ih]

theorem interrupted_cons_part (a : α) (l : List (Symbol α)) :
    Interrupted (.part a :: l) ↔
      (∃ after, l = .foreign :: after ∧ Finishes after) ∨ Interrupted l := by
  constructor
  · rintro ⟨before, b, after, heq, hfinishes⟩
    cases before with
    | nil =>
      obtain ⟨-, rfl⟩ := List.cons.inj heq
      exact Or.inl ⟨after, rfl, hfinishes⟩
    | cons x before =>
      obtain ⟨-, rfl⟩ := List.cons.inj heq
      exact Or.inr ⟨before, b, after, rfl, hfinishes⟩
  · rintro (⟨after, rfl, hfinishes⟩ | ⟨before, b, after, rfl, hfinishes⟩)
    · exact ⟨[], a, after, rfl, hfinishes⟩
    · exact ⟨.part a :: before, b, after, rfl, hfinishes⟩

theorem interrupted_cons {x : Symbol α} (hx : ∀ a, x ≠ .part a) (l : List (Symbol α)) :
    Interrupted (x :: l) ↔ Interrupted l := by
  constructor
  · rintro ⟨before, b, after, heq, hfinishes⟩
    cases before with
    | nil => exact absurd (List.cons.inj heq).1 (hx b)
    | cons y before =>
      obtain ⟨-, rfl⟩ := List.cons.inj heq
      exact ⟨before, b, after, rfl, hfinishes⟩
  · rintro ⟨before, b, after, rfl, hfinishes⟩
    exact ⟨x :: before, b, after, rfl, hfinishes⟩

theorem Interrupted.finishes {l : List (Symbol α)} (h : Interrupted l) : Finishes l := by
  obtain ⟨before, b, after, rfl, a, ha⟩ := h
  exact ⟨a, by simp [ha]⟩

/-- The first finished run goes on from what is held. -/
theorem runs_eq_cons {l : List (Symbol α)} (h : Finishes l) (held : List α) :
    ∃ more rest, more ≠ [] ∧ runs held l = (held ++ more) :: rest := by
  obtain ⟨b, hb⟩ := h
  induction l generalizing held with
  | nil => cases hb
  | cons x l ih =>
    cases x with
    | part a =>
      obtain ⟨more, rest, -, hrest⟩ := ih (held ++ [a]) (by simpa using hb)
      exact ⟨a :: more, rest, by simp, by simp [runs, hrest]⟩
    | last a => exact ⟨[a], runs [] l, by simp, rfl⟩
    | foreign =>
      obtain ⟨more, rest, hmore, hrest⟩ := ih held (by simpa using hb)
      exact ⟨more, rest, hmore, hrest⟩

theorem runs_eq_nil {l : List (Symbol α)} (h : ¬ Finishes l) (held : List α) :
    runs held l = [] := by
  induction l generalizing held with
  | nil => rfl
  | cons x l ih =>
    have hrest : ¬ Finishes l := fun ⟨a, ha⟩ => h ⟨a, List.mem_cons_of_mem x ha⟩
    cases x with
    | part a => exact ih hrest _
    | last a => exact absurd ⟨a, List.mem_cons_self⟩ h
    | foreign => exact ih hrest _

/-- Every finished run is yielded in one piece exactly if none is interrupted. -/
theorem runs_prefix_scan_iff (held : List α) (l : List (Symbol α)) :
    runs held l <+: scan held l ↔ ¬ InterruptedFrom held l := by
  induction l generalizing held with
  | nil => simp [runs, InterruptedFrom, Interrupted]
  | cons x l ih =>
    cases x with
    | part a =>
      rw [runs, scan, ih]
      simp [InterruptedFrom, interrupted_cons_part]
    | last a =>
      rw [runs, scan, List.cons_prefix_cons, ih]
      simp [InterruptedFrom, interrupted_cons (x := Symbol.last a) (by simp)]
    | foreign =>
      have hrest := interrupted_cons (x := (Symbol.foreign : Symbol α)) (by simp) l
      by_cases hheld : held = []
      · subst hheld
        rw [runs, scan, List.isEmpty_nil, if_pos rfl, ih]
        simp [InterruptedFrom, hrest]
      · rw [runs, scan, if_neg (by simpa using hheld)]
        have hfrom : InterruptedFrom held (.foreign :: l) ↔ Finishes l := by
          simp only [InterruptedFrom, hrest, hheld, ne_eq, not_false_eq_true, true_and,
            List.cons.injEq]
          constructor
          · rintro (⟨after, rfl, hfinishes⟩ | h)
            · exact hfinishes
            · exact h.finishes
          · exact fun h => Or.inl ⟨l, rfl, h⟩
        rw [hfrom]
        by_cases hfinishes : Finishes l
        · obtain ⟨more, rest, hmore, hruns⟩ := runs_eq_cons hfinishes held
          rw [hruns, List.cons_prefix_cons]
          simp [hfinishes, hmore]
        · simp [runs_eq_nil hfinishes, hfinishes]

end Raglogs.FragmentRuns

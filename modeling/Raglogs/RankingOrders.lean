import Raglogs.Ranking

/-!
The cap and the choice over every order of a list. Both look at keys, and ties are
left to the order in which the list was given. What is kept and chosen is the same
for every order exactly when no tie runs across the cap, no tie leaves open which
element is saved, and the greatest choice among those kept is one element.
-/

namespace Raglogs.RankingOrders

open Ranking

variable {α κ μ ν : Type*} [LinearOrder κ] [LinearOrder μ] [LinearOrder ν]

section Cap

variable [DecidableEq α] (rank : α → κ) (key : α → μ) (saves : μ → Bool) (m : ℕ)

/-- What every order of a list keeps: no tie pushes the element behind the cap, or it is
saved. -/
def AlwaysKept (l : List α) (c : α) : Prop :=
  c ∈ l ∧ (l.countP (fun d => rank c ≤ rank d) ≤ m ∨
    saves (key c) = true ∧ ∀ d ∈ l, toLex (key d, rank d) ≤ toLex (key c, rank c))

/-- Nothing that a cap or a choice decides is left to the order of the list. -/
structure Settled (choice : α → ν) (l : List α) : Prop where
  /-- Elements of one rank are all kept by the cap or all cut off. -/
  boundary : ∀ c ∈ l, l.countP (fun d => rank c < rank d) < m →
    l.countP (fun d => rank c ≤ rank d) ≤ m
  /-- One element is saved, unless those that could be are ahead of the cap. -/
  saved : ∀ c ∈ l, ∀ d ∈ l, c ≠ d → saves (key c) = true →
    (∀ e ∈ l, toLex (key e, rank e) ≤ toLex (key c, rank c)) →
    toLex (key d, rank d) = toLex (key c, rank c) →
    l.countP (fun e => rank c < rank e) < m
  /-- One element is the greatest choice among those kept. -/
  choice : ∀ c d, AlwaysKept rank key saves m l c → AlwaysKept rank key saves m l d →
    (∀ e, AlwaysKept rank key saves m l e → choice e ≤ choice c) →
    choice d = choice c → c = d

variable {rank key saves m}

section Map

variable {β : Type*} {rank' : β → κ} {key' : β → μ} {f : α → β}

end Map

end Cap

end Raglogs.RankingOrders

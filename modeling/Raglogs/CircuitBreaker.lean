import Mathlib.Data.Int.Order.Basic
import Mathlib.Logic.Function.Basic

/-!
The circuit breaker of the language model and the calls it admits. A call records its
result on the breaker as it is then, whatever the breaker was when the call was admitted,
and some exceptions record nothing. How often the breaker has opened is counted here to
tell which results are late.
-/

namespace Raglogs.CircuitBreaker

variable {τ : Type} {n : ℕ}

inductive BreakerState
  | closed
  | opened
  | halfOpen
deriving DecidableEq

structure Breaker (τ : Type) where
  failures : ℕ
  openedAt : Option τ
  probeInFlight : Bool

/-- The state at an instant; `cooling` tells whether some of the cooldown remains. -/
def stateUnlocked (cooling : τ → τ → Bool) (b : Breaker τ) (now : τ) : BreakerState :=
  match b.openedAt with
  | none => .closed
  | some openedAt => if cooling openedAt now then .opened else .halfOpen

/-- Whether the provider may be called; in half-open state one probe is. -/
def allowRequest (cooling : τ → τ → Bool) (b : Breaker τ) (now : τ) : Bool × Breaker τ :=
  match stateUnlocked cooling b now with
  | .closed => (true, b)
  | .opened => (false, b)
  | .halfOpen => if b.probeInFlight then (false, b) else (true, { b with probeInFlight := true })

def recordSuccess (_ : Breaker τ) : Breaker τ := ⟨0, none, false⟩

def opens (threshold : ℤ) (b : Breaker τ) : Bool :=
  0 < threshold ∧ threshold ≤ (b.failures + 1 : ℕ)

def recordFailure (threshold : ℤ) (b : Breaker τ) (now : τ) : Breaker τ where
  failures := b.failures + 1
  openedAt := if opens threshold b then some now else b.openedAt
  probeInFlight := false

/-- How a call ends. -/
inductive Outcome
  | success
  | providerError
  | budgetExceeded
  | circuitOpen
deriving DecidableEq

inductive Call
  | waiting
  | refused
  /-- Admitted, as a probe or not, after this many openings. -/
  | inFlight (probe : Bool) (epoch : ℕ)
  | ended (outcome : Outcome)
deriving DecidableEq

structure World (n : ℕ) (τ : Type) where
  breaker : Breaker τ
  openings : ℕ
  calls : Fin n → Call

inductive Event (n : ℕ) (τ : Type)
  | enter (call : Fin n) (now : τ)
  | finish (call : Fin n) (outcome : Outcome) (now : τ)

/-- The settings of the breaker. -/
structure Policy (τ : Type) where
  threshold : ℤ
  cooling : τ → τ → Bool

def admitCall (p : Policy τ) (w : World n τ) (i : Fin n) (now : τ) : World n τ :=
  match w.calls i with
  | .waiting =>
      let allowed := allowRequest p.cooling w.breaker now
      let probe := decide (stateUnlocked p.cooling w.breaker now = .halfOpen)
      { w with
        breaker := allowed.2
        calls := Function.update w.calls i
          (if allowed.1 then .inFlight probe w.openings else .refused) }
  | _ => w

/-- The record of a result. A budget or an open circuit inside the call records none. -/
def recordOutcome (p : Policy τ) (b : Breaker τ) (outcome : Outcome) (now : τ) : Breaker τ :=
  match outcome with
  | .success => recordSuccess b
  | .providerError => recordFailure p.threshold b now
  | .budgetExceeded => b
  | .circuitOpen => b

def finishCall (p : Policy τ) (w : World n τ) (i : Fin n) (outcome : Outcome) (now : τ) :
    World n τ :=
  match w.calls i with
  | .inFlight _ _ =>
      { breaker := recordOutcome p w.breaker outcome now
        openings :=
          if outcome = .providerError ∧ opens p.threshold w.breaker = true then w.openings + 1
          else w.openings
        calls := Function.update w.calls i (.ended outcome) }
  | _ => w

def stepCall (p : Policy τ) (w : World n τ) : Event n τ → World n τ
  | .enter i now => admitCall p w i now
  | .finish i outcome now => finishCall p w i outcome now

/-- No call has started and the flag is clear. -/
structure Start (w : World n τ) : Prop where
  waiting : ∀ i, w.calls i = .waiting
  clear : w.breaker.probeInFlight = false

/-! What the breaker owes. -/

structure StateSafe (w : World n τ) : Prop where
  /-- One probe at most is in flight. -/
  one_probe : ∀ i j epoch epoch', w.calls i = .inFlight true epoch →
    w.calls j = .inFlight true epoch' → i = j
  /-- With no call in flight the flag is clear. -/
  flag_clear : (∀ i probe epoch, w.calls i ≠ .inFlight probe epoch) →
    w.breaker.probeInFlight = false

/-- A call that was admitted before the breaker last opened. -/
def Late (w : World n τ) (i : Fin n) : Prop :=
  ∃ probe epoch, w.calls i = .inFlight probe epoch ∧ epoch < w.openings

/-- The end of a late call neither closes the breaker nor frees the place of a probe. -/
def StepSafe (p : Policy τ) (w : World n τ) : Event n τ → Prop
  | .enter _ _ => True
  | .finish i outcome now => Late w i →
      (w.breaker.openedAt ≠ none → (finishCall p w i outcome now).breaker.openedAt ≠ none) ∧
        (w.breaker.probeInFlight = true →
          (finishCall p w i outcome now).breaker.probeInFlight = true)

/-- Every state and every step of a run is safe. -/
def SafeRun (p : Policy τ) : World n τ → List (Event n τ) → Prop
  | w, [] => StateSafe w
  | w, event :: rest => StateSafe w ∧ StepSafe p w event ∧ SafeRun p (stepCall p w event) rest

/-- A late call does not succeed unless the breaker is closed, and does not fail while a
probe is in flight; a probe ends with a result. -/
def meets (w : World n τ) : Event n τ → Bool
  | .enter _ _ => true
  | .finish i outcome _ =>
      match w.calls i with
      | .inFlight probe epoch =>
          match outcome with
          | .success => !(decide (epoch < w.openings) && w.breaker.openedAt.isSome)
          | .providerError => !(decide (epoch < w.openings) && w.breaker.probeInFlight)
          | _ => !probe
      | _ => true

def allMeet (p : Policy τ) : World n τ → List (Event n τ) → Bool
  | _, [] => true
  | w, event :: rest => meets w event && allMeet p (stepCall p w event) rest

/-! Invariant. -/

/-- Who is in flight in which state of the breaker. -/
structure Inv (w : World n τ) : Prop where
  epoch_le : ∀ i probe epoch, w.calls i = .inFlight probe epoch → epoch ≤ w.openings
  /-- A call admitted since the last opening, and not as a probe, has found no opening. -/
  regular : ∀ i, w.calls i = .inFlight false w.openings → w.breaker.openedAt = none
  probe : ∀ i epoch, w.calls i = .inFlight true epoch →
    epoch = w.openings ∧ w.breaker.openedAt ≠ none ∧ w.breaker.probeInFlight = true
  one_probe : ∀ i j epoch epoch', w.calls i = .inFlight true epoch →
    w.calls j = .inFlight true epoch' → i = j
  flagged : w.breaker.probeInFlight = true → ∃ i epoch, w.calls i = .inFlight true epoch

theorem Inv.stateSafe {w : World n τ} (h : Inv w) : StateSafe w := by
  refine ⟨h.one_probe, fun hnone => ?_⟩
  cases hflag : w.breaker.probeInFlight with
  | false => rfl
  | true =>
    obtain ⟨i, epoch, hi⟩ := h.flagged hflag
    exact absurd hi (hnone i true epoch)

theorem Inv.no_probe_of_closed {w : World n τ} (h : Inv w) (hclosed : w.breaker.openedAt = none) :
    (∀ i epoch, w.calls i ≠ .inFlight true epoch) ∧ w.breaker.probeInFlight = false := by
  have hnone : ∀ i epoch, w.calls i ≠ .inFlight true epoch :=
    fun i epoch hi => (h.probe i epoch hi).2.1 hclosed
  refine ⟨hnone, ?_⟩
  cases hflag : w.breaker.probeInFlight with
  | false => rfl
  | true =>
    obtain ⟨i, epoch, hi⟩ := h.flagged hflag
    exact absurd hi (hnone i epoch)

theorem update_inFlight {calls : Fin n → Call} {i j : Fin n} {c : Call} {probe : Bool} {epoch : ℕ}
    (h : Function.update calls i c j = .inFlight probe epoch) :
    (j = i ∧ c = .inFlight probe epoch) ∨ (j ≠ i ∧ calls j = .inFlight probe epoch) := by
  by_cases hj : j = i
  · subst hj
    rw [Function.update_self] at h
    exact .inl ⟨rfl, h⟩
  · rw [Function.update_of_ne hj] at h
    exact .inr ⟨hj, h⟩

/-- A call leaves; the others see another breaker. -/
theorem Inv.leave {w : World n τ} (h : Inv w) {i : Fin n} {c : Call}
    (hc : ∀ probe epoch, c ≠ .inFlight probe epoch) {b : Breaker τ} {openings : ℕ}
    (hle : w.openings ≤ openings)
    (hregular : openings = w.openings → w.breaker.openedAt = none → b.openedAt = none)
    (hprobe : ∀ j epoch, j ≠ i → w.calls j = .inFlight true epoch →
      openings = w.openings ∧ b.openedAt = w.breaker.openedAt ∧ b.probeInFlight = true)
    (hflagged : b.probeInFlight = true →
      w.breaker.probeInFlight = true ∧ ∀ epoch, w.calls i ≠ .inFlight true epoch) :
    Inv ⟨b, openings, Function.update w.calls i c⟩ := by
  have hother : ∀ j probe epoch, Function.update w.calls i c j = .inFlight probe epoch →
      j ≠ i ∧ w.calls j = .inFlight probe epoch :=
    fun j probe epoch hj => (update_inFlight hj).resolve_left (fun hself => hc _ _ hself.2)
  refine ⟨fun j probe epoch hj => ?_, fun j hj => ?_, fun j epoch hj => ?_,
    fun j k epoch epoch' hj hk => ?_, fun hflag => ?_⟩
  · exact Nat.le_trans (h.epoch_le j probe epoch (hother j probe epoch hj).2) hle
  · have hold := (hother j false openings hj).2
    have hsame : openings = w.openings :=
      Nat.le_antisymm (h.epoch_le j false openings hold) hle
    rw [hsame] at hold
    exact hregular hsame (h.regular j hold)
  · obtain ⟨hne, hold⟩ := hother j true epoch hj
    obtain ⟨hsame, hopened, hflag⟩ := hprobe j epoch hne hold
    obtain ⟨hepoch, hsome, -⟩ := h.probe j epoch hold
    exact ⟨hepoch.trans hsame.symm, by rw [hopened]; exact hsome, hflag⟩
  · exact h.one_probe j k epoch epoch' (hother j true epoch hj).2 (hother k true epoch' hk).2
  · obtain ⟨hold, hnot⟩ := hflagged hflag
    obtain ⟨j, epoch, hj⟩ := h.flagged hold
    have hne : j ≠ i := by
      rintro rfl
      exact hnot epoch hj
    exact ⟨j, epoch, (Function.update_of_ne hne c w.calls).trans hj⟩

theorem Inv.enter {w : World n τ} (h : Inv w) (p : Policy τ) (i : Fin n) (now : τ) :
    Inv (admitCall p w i now) := by
  unfold admitCall
  split
  · rename_i hwaiting
    have hnot : ∀ probe epoch, w.calls i ≠ .inFlight probe epoch := by
      intro probe epoch hi
      rw [hwaiting] at hi
      cases hi
    have hrefused : Inv ⟨w.breaker, w.openings, Function.update w.calls i .refused⟩ :=
      h.leave (fun _ _ hc => by cases hc) (Nat.le_refl _) (fun _ hclosed => hclosed)
        (fun j epoch _ hj => ⟨rfl, rfl, (h.probe j epoch hj).2.2⟩)
        (fun hflag => ⟨hflag, hnot true⟩)
    cases hopened : w.breaker.openedAt with
    | none =>
      have hstate : stateUnlocked p.cooling w.breaker now = .closed := by
        rw [stateUnlocked, hopened]
      simp only [allowRequest, hstate]
      obtain ⟨hnone, hclear⟩ := h.no_probe_of_closed hopened
      refine ⟨fun j probe epoch hj => ?_, fun _ _ => hopened, fun j epoch hj => ?_,
        fun j k epoch epoch' hj _ => ?_, fun hflag => ?_⟩
      · rcases update_inFlight hj with ⟨-, hnew⟩ | ⟨-, hold⟩
        · cases hnew
          exact Nat.le_refl _
        · exact h.epoch_le j probe epoch hold
      · rcases update_inFlight hj with ⟨-, hnew⟩ | ⟨-, hold⟩
        · cases hnew
        · exact absurd hold (hnone j epoch)
      · rcases update_inFlight hj with ⟨-, hnew⟩ | ⟨-, hold⟩
        · cases hnew
        · exact absurd hold (hnone j epoch)
      · exact absurd (hflag.symm.trans hclear) Bool.noConfusion
    | some openedAt =>
      cases hcooling : p.cooling openedAt now with
      | true =>
        have hstate : stateUnlocked p.cooling w.breaker now = .opened := by
          simp [stateUnlocked, hopened, hcooling]
        simp only [allowRequest, hstate]
        exact hrefused
      | false =>
        have hstate : stateUnlocked p.cooling w.breaker now = .halfOpen := by
          simp [stateUnlocked, hopened, hcooling]
        simp only [allowRequest, hstate]
        cases hflag : w.breaker.probeInFlight with
        | true => exact hrefused
        | false =>
          have hnone : ∀ j epoch, w.calls j ≠ .inFlight true epoch := by
            intro j epoch hj
            rw [(h.probe j epoch hj).2.2] at hflag
            cases hflag
          have hself : ∀ j epoch, Function.update w.calls i
              (.inFlight true w.openings) j = .inFlight true epoch →
                j = i ∧ epoch = w.openings := by
            intro j epoch hj
            rcases update_inFlight hj with ⟨hji, hnew⟩ | ⟨-, hold⟩
            · cases hnew
              exact ⟨hji, rfl⟩
            · exact absurd hold (hnone j epoch)
          refine ⟨fun j probe epoch hj => ?_, fun j hj => ?_, fun j epoch hj => ?_,
            fun j k epoch epoch' hj hk => ?_, fun _ => ⟨i, w.openings, Function.update_self ..⟩⟩
          · rcases update_inFlight hj with ⟨-, hnew⟩ | ⟨-, hold⟩
            · cases hnew
              exact Nat.le_refl _
            · exact h.epoch_le j probe epoch hold
          · rcases update_inFlight hj with ⟨-, hnew⟩ | ⟨-, hold⟩
            · cases hnew
            · exact h.regular j hold
          · refine ⟨(hself j epoch hj).2, ?_, rfl⟩
            rw [hopened]
            exact Option.some_ne_none openedAt
          · exact (hself j epoch hj).1.trans (hself k epoch' hk).1.symm
  · exact h

/-- The result of a call clears the flag, and no other probe is in flight. -/
theorem Inv.result {w : World n τ} (h : Inv w) {i : Fin n} {probe : Bool} {epoch : ℕ}
    (hi : w.calls i = .inFlight probe epoch) {outcome : Outcome} {b : Breaker τ} {openings : ℕ}
    (hclear : b.probeInFlight = false) (hle : w.openings ≤ openings)
    (hregular : openings = w.openings → w.breaker.openedAt = none → b.openedAt = none)
    (hnone : probe = false → w.breaker.probeInFlight = false) :
    Inv ⟨b, openings, Function.update w.calls i (.ended outcome)⟩ := by
  refine h.leave (fun _ _ hc => by cases hc) hle hregular (fun j epoch' hne hj => ?_)
    (fun hflag => by rw [hclear] at hflag; cases hflag)
  cases probe with
  | true => exact absurd (h.one_probe j i epoch' epoch hj hi) hne
  | false =>
    have hflag := (h.probe j epoch' hj).2.2
    rw [hnone rfl] at hflag
    cases hflag

/-- A call that is no probe and ends with a result finds no probe in flight. -/
theorem Inv.no_probe_of_regular {w : World n τ} (h : Inv w) {i : Fin n} {epoch : ℕ}
    (hi : w.calls i = .inFlight false epoch)
    (hlate : epoch < w.openings → w.breaker.openedAt = none ∨ w.breaker.probeInFlight = false) :
    w.breaker.probeInFlight = false := by
  rcases Nat.lt_or_ge epoch w.openings with hlt | hge
  · rcases hlate hlt with hclosed | hclear
    · exact (h.no_probe_of_closed hclosed).2
    · exact hclear
  · have hsame : epoch = w.openings := Nat.le_antisymm (h.epoch_le i false epoch hi) hge
    exact (h.no_probe_of_closed (h.regular i (hsame ▸ hi))).2

theorem Inv.finish {w : World n τ} (h : Inv w) (p : Policy τ) {i : Fin n} {outcome : Outcome}
    {now : τ} (hmeets : meets w (.finish i outcome now) = true) :
    Inv (finishCall p w i outcome now) := by
  unfold finishCall
  split
  · rename_i probe epoch hi
    have hflag : probe = false → outcome = .success ∨ outcome = .providerError →
        w.breaker.probeInFlight = false := by
      rintro rfl houtcome
      refine h.no_probe_of_regular hi (fun hlt => ?_)
      rcases houtcome with rfl | rfl
      · left
        simpa [meets, hi, hlt] using hmeets
      · right
        simpa [meets, hi, hlt] using hmeets
    have hleft : outcome = .budgetExceeded ∨ outcome = .circuitOpen → probe = false := by
      rintro (rfl | rfl) <;> simpa [meets, hi] using hmeets
    have hquiet : probe = false →
        Inv ⟨w.breaker, w.openings, Function.update w.calls i (.ended outcome)⟩ := by
      rintro rfl
      refine h.leave (fun _ _ hc => by cases hc) (Nat.le_refl _) (fun _ hclosed => hclosed)
        (fun j epoch' _ hj => ⟨rfl, rfl, (h.probe j epoch' hj).2.2⟩)
        (fun hset => ⟨hset, fun epoch' hprobe => ?_⟩)
      rw [hi] at hprobe
      cases hprobe
    cases outcome with
    | success =>
      exact h.result hi rfl (Nat.le_refl _) (fun _ _ => rfl) (fun hp => hflag hp (.inl rfl))
    | providerError =>
      refine h.result hi rfl ?_ ?_ (fun hp => hflag hp (.inr rfl))
      · split
        · exact Nat.le_succ _
        · exact Nat.le_refl _
      · intro hsame hclosed
        cases hopens : opens p.threshold w.breaker with
        | true =>
          rw [if_pos ⟨rfl, hopens⟩] at hsame
          exact absurd hsame (Nat.succ_ne_self _)
        | false => simp [recordOutcome, recordFailure, hopens, hclosed]
    | budgetExceeded => exact hquiet (hleft (.inl rfl))
    | circuitOpen => exact hquiet (hleft (.inr rfl))
  · exact h

theorem inv_step {w : World n τ} (h : Inv w) (p : Policy τ) {event : Event n τ}
    (hmeets : meets w event = true) : Inv (stepCall p w event) := by
  cases event with
  | enter i now => exact h.enter p i now
  | finish i outcome now => exact h.finish p hmeets

theorem Inv.stepSafe {w : World n τ} (h : Inv w) (p : Policy τ) {event : Event n τ}
    (hmeets : meets w event = true) : StepSafe p w event := by
  cases event with
  | enter i now => trivial
  | finish i outcome now =>
    rintro ⟨probe, epoch, hi, hlate⟩
    simp only [finishCall, hi]
    cases outcome with
    | success =>
      have hclosed : w.breaker.openedAt = none := by simpa [meets, hi, hlate] using hmeets
      have hclear := (h.no_probe_of_closed hclosed).2
      exact ⟨fun hopened => absurd hclosed hopened,
        fun hflag => absurd (hflag.symm.trans hclear) Bool.noConfusion⟩
    | providerError =>
      have hclear : w.breaker.probeInFlight = false := by simpa [meets, hi, hlate] using hmeets
      refine ⟨fun hopened => ?_, fun hflag => absurd (hflag.symm.trans hclear) Bool.noConfusion⟩
      simp only [recordOutcome, recordFailure]
      split
      · exact Option.some_ne_none now
      · exact hopened
    | budgetExceeded => exact ⟨id, id⟩
    | circuitOpen => exact ⟨id, id⟩

theorem inv_start {w : World n τ} (h : Start w) : Inv w := by
  have hnot : ∀ i probe epoch, w.calls i ≠ .inFlight probe epoch := by
    intro i probe epoch hi
    rw [h.waiting i] at hi
    cases hi
  exact ⟨fun i probe epoch hi => absurd hi (hnot i probe epoch),
    fun i hi => absurd hi (hnot i _ _), fun i epoch hi => absurd hi (hnot i _ _),
    fun i _ epoch _ hi _ => absurd hi (hnot i _ _),
    fun hflag => absurd (hflag.symm.trans h.clear) Bool.noConfusion⟩

theorem Inv.safeRun (p : Policy τ) (events : List (Event n τ)) : ∀ {w : World n τ}, Inv w →
    allMeet p w events = true → SafeRun p w events := by
  induction events with
  | nil => exact fun h _ => h.stateSafe
  | cons event rest ih =>
    intro w h hmeet
    obtain ⟨hfirst, hrest⟩ := Bool.and_eq_true_iff.mp hmeet
    exact ⟨h.stateSafe, h.stepSafe p hfirst, ih (inv_step h p hfirst) hrest⟩

/-- A run in which every step meets the condition is safe throughout. -/
theorem safeRun_of_meet (p : Policy τ) {w : World n τ} (hstart : Start w)
    (events : List (Event n τ)) (hmeet : allMeet p w events = true) : SafeRun p w events :=
  (inv_start hstart).safeRun p events hmeet

/-! Four calls. -/

/-- One failure opens the breaker, for ten seconds. -/
def samplePolicy : Policy ℤ := ⟨1, fun openedAt now => now < openedAt + 10⟩

def idleWorld : World 4 ℤ := ⟨⟨0, none, false⟩, 0, fun _ => .waiting⟩

theorem idleWorld_start : Start idleWorld := ⟨fun _ => rfl, rfl⟩

/-- A call fails, and after the cooldown a probe succeeds. -/
def probeRun : List (Event 4 ℤ) :=
  [.enter 1 0, .finish 1 .providerError 0, .enter 2 10, .enter 3 11, .finish 2 .success 12]

theorem safeRun_of_meet_probe : SafeRun samplePolicy idleWorld probeRun :=
  safeRun_of_meet samplePolicy idleWorld_start probeRun (by decide +kernel)

/-- Call 0 was admitted before the breaker opened and fails while call 2 is the probe; when
the new cooldown is over call 3 is admitted as another. -/
def lateRun : List (Event 4 ℤ) :=
  [.enter 0 0, .enter 1 0, .finish 1 .providerError 0, .enter 2 10, .finish 0 .providerError 11,
    .enter 3 30]

/-- A probe whose call ends with an exceeded budget. -/
def budgetRun : List (Event 4 ℤ) :=
  [.enter 1 0, .finish 1 .providerError 0, .enter 2 10, .finish 2 .budgetExceeded 11]

/-- Two probes are in flight at the end of the one run, and at the end of the other the flag
is set with no call in flight. -/
theorem late_failure_not_safe :
    ¬SafeRun samplePolicy idleWorld lateRun ∧ ¬SafeRun samplePolicy idleWorld budgetRun := by
  constructor
  · rintro ⟨-, -, -, -, -, -, -, -, -, -, -, -, hlast⟩
    have hsame := hlast.one_probe 2 3 1 2 rfl rfl
    exact absurd hsame (by decide)
  · rintro ⟨-, -, -, -, -, -, -, -, hlast⟩
    have hclear := hlast.flag_clear (fun i probe epoch hi => by
      match i with
      | 0 => cases hi
      | 1 => cases hi
      | 2 => cases hi
      | 3 => cases hi)
    cases hclear

end Raglogs.CircuitBreaker

import Raglogs.Differ

/-!
The direction of a change. A quotient of counts is rounded to a double before it is
compared, so the threshold is reached a little below one and a half, and its inverse
a little above two thirds. The two directions mirror each other unless a quotient
lies between the threshold and where it is reached, which takes counts from `2 ^ 52` on.
-/

namespace Raglogs.DirectionLaws

open Doubles Differ

/-- From here on a quotient is rounded to the threshold or above it. -/
def increasedFrom : ℚ := 3 / 2 - 1 / 2 ^ 53

/-- Below this a quotient is rounded to the inverse of the threshold or below it. -/
def decreasedBelow : ℚ := 2 / 3 + 1 / (3 * 2 ^ 54)

theorem changeThreshold_le_iff {q : ℚ} (hq : 0 < q) :
    changeThreshold ≤ roundDouble q ↔ increasedFrom ≤ q := by
  have h := even_le_roundDouble (k := 0) (n := 3 * 2 ^ 51) (by norm_num) (by norm_num)
    (by norm_num) (by norm_num) hq
  have hthreshold : ((3 * 2 ^ 51 : ℤ) : ℚ) * 2 ^ ((0 : ℤ) - 52) = changeThreshold := by
    norm_num [changeThreshold]
  have hedge : (((3 * 2 ^ 51 : ℤ) : ℚ) - 1 / 2) * 2 ^ ((0 : ℤ) - 52) = increasedFrom := by
    norm_num [increasedFrom]
  rwa [hthreshold, hedge] at h

/-- The double next to two thirds, in units of its last place. -/
def twoThirds : ℤ := 6004799503160661

theorem roundDouble_le_twoThirds {q : ℚ} (hq : 0 < q) :
    roundDouble q ≤ (twoThirds : ℚ) * 2 ^ ((-1 : ℤ) - 52) ↔ q < decreasedBelow := by
  have h := roundDouble_le_odd (k := -1) (n := twoThirds) (by norm_num) (by norm_num [twoThirds])
    (by norm_num [twoThirds]) (by norm_num [twoThirds]) hq
  have hedge : ((twoThirds : ℚ) + 1 / 2) * 2 ^ ((-1 : ℤ) - 52) = decreasedBelow := by
    norm_num [twoThirds, decreasedBelow]
  rwa [hedge] at h

theorem roundDouble_inverse :
    roundDouble (1 / changeThreshold) = (twoThirds : ℚ) * 2 ^ ((-1 : ℤ) - 52) := by
  have hpos : (0 : ℚ) < 1 / changeThreshold := by norm_num [changeThreshold]
  apply le_antisymm
  · rw [roundDouble_le_twoThirds hpos]
    norm_num [changeThreshold, decreasedBelow]
  · rw [roundDouble_of_binade (k := -1) (by norm_num) hpos
      (by norm_num [changeThreshold]) (by norm_num [changeThreshold])]
    refine mul_le_mul_of_nonneg_right (Int.cast_le.mpr ?_) (two_zpow_pos _).le
    apply le_roundHalfEven
    norm_num [twoThirds, changeThreshold]

/-- What a quotient of counts says, before it is rounded. -/
def change (q : ℚ) : Direction :=
  if increasedFrom ≤ q then .increased
  else if q < decreasedBelow then .decreased
  else .stable

/-- The direction that two counts give. -/
def directionOf (countA countB : Option ℕ) : Except OverflowError Direction :=
  ClusterDiff.direction ⟨"", "", ∅, countA, countB⟩

/-- The direction of a fingerprint that both windows have. -/
theorem directionOf_some {a b : ℕ} (ha : 0 < a) (hb : 0 < b) :
    directionOf (some a) (some b) =
      if (doubleLimit : ℚ) ≤ a / b then .error .division else .ok (change (a / b)) := by
  have hpos : (0 : ℚ) < a / b := by positivity
  have hmax : max b 1 = b := max_eq_left hb
  unfold directionOf ClusterDiff.direction
  simp only [hmax, trueDiv, roundDouble_overflows_iff hpos]
  by_cases hover : (doubleLimit : ℚ) ≤ a / b
  · rw [if_pos hover, if_pos hover]
    rfl
  · rw [if_neg hover, if_neg hover]
    unfold change
    rw [roundDouble_inverse]
    simp only [bind, Except.bind, changeThreshold_le_iff hpos, roundDouble_le_twoThirds hpos]
    split
    · rfl
    · split <;> rfl

/-- Two counts are neither new nor gone. -/
theorem directionOf_both (a b : ℕ) :
    directionOf (some a) (some b) ≠ .ok .new ∧
      directionOf (some a) (some b) ≠ .ok .disappeared := by
  unfold directionOf ClusterDiff.direction
  simp only [bind, Except.bind, pure, Except.pure]
  cases trueDiv a (max b 1) with
  | error e => simp
  | ok ratio =>
    simp only
    split
    · simp
    · split <;> simp

theorem directionOf_eq_new_iff {countA countB : Option ℕ} :
    directionOf countA countB = .ok .new ↔ countA ≠ none ∧ countB = none := by
  cases countA with
  | none => exact iff_of_false (fun h => absurd (Except.ok.inj h) (by decide)) (by simp)
  | some a =>
    cases countB with
    | none => exact iff_of_true rfl (by simp)
    | some b => exact iff_of_false (directionOf_both a b).1 (by simp)

theorem directionOf_eq_disappeared_iff {countA countB : Option ℕ} :
    directionOf countA countB = .ok .disappeared ↔ countA = none := by
  cases countA with
  | none => exact iff_of_true rfl rfl
  | some a =>
    cases countB with
    | none => exact iff_of_false (fun h => absurd (Except.ok.inj h) (by decide)) (by simp)
    | some b => exact iff_of_false (directionOf_both a b).2 (by simp)

/-! The two directions. -/

/-- The bucket of the same fingerprint when the windows are swapped. -/
def swap : Direction → Direction
  | .new => .disappeared
  | .disappeared => .new
  | .increased => .decreased
  | .decreased => .increased
  | .stable => .stable

@[simp]
theorem swap_swap (d : Direction) : swap (swap d) = d := by
  cases d <;> rfl

theorem swap_injective : Function.Injective swap := fun d e h => by
  rw [← swap_swap d, h, swap_swap]

/-- The quotient is in range, and one that is an increase is a decrease the other way. -/
def Reversible (a b : ℕ) : Prop :=
  (a : ℚ) / b < doubleLimit ∧ (increasedFrom ≤ (a : ℚ) / b → (b : ℚ) / a < decreasedBelow)

section Inverses

variable {x y : ℚ}

/-- A decrease one way is an increase the other way. -/
theorem increasedFrom_le_of_lt (hy : 0 < y) (hxy : x * y = 1) (h : y < decreasedBelow) :
    increasedFrom ≤ x := by
  by_contra hlt
  rw [not_le] at hlt
  have hpos : (0 : ℚ) < increasedFrom := by norm_num [increasedFrom]
  have hprod : x * y < increasedFrom * decreasedBelow :=
    mul_lt_mul_of_pos' hlt h hy hpos
  have hbound : increasedFrom * decreasedBelow < 1 := by norm_num [increasedFrom, decreasedBelow]
  linarith

/-- No change is an increase both ways. -/
theorem not_both_increased (hxy : x * y = 1) (hx : increasedFrom ≤ x) :
    ¬increasedFrom ≤ y := by
  intro hy
  have hone : (1 : ℚ) < increasedFrom := by norm_num [increasedFrom]
  have hprod : increasedFrom * increasedFrom ≤ x * y :=
    mul_le_mul hx hy (by linarith) (by linarith)
  nlinarith

theorem change_swap_iff (hx : 0 < x) (hy : 0 < y) (hxy : x * y = 1) :
    change y = swap (change x) ↔
      (increasedFrom ≤ x → y < decreasedBelow) ∧ (increasedFrom ≤ y → x < decreasedBelow) := by
  have hyx : y * x = 1 := by rw [mul_comm, hxy]
  by_cases hincx : increasedFrom ≤ x
  · have hincy := not_both_increased hxy hincx
    have hx' : change x = .increased := if_pos hincx
    rw [hx']
    unfold change
    rw [if_neg hincy]
    simp only [swap, hincx, hincy, true_implies, false_implies, and_true]
    split
    · rename_i hdec
      exact iff_of_true rfl hdec
    · rename_i hdec
      exact iff_of_false (by simp) hdec
  · by_cases hdecx : x < decreasedBelow
    · have hincy := increasedFrom_le_of_lt hx hyx hdecx
      unfold change
      rw [if_neg hincx, if_pos hdecx, if_pos hincy]
      exact iff_of_true rfl ⟨fun h => absurd h hincx, fun _ => hdecx⟩
    · have hdecy : ¬y < decreasedBelow := fun h =>
        hincx (increasedFrom_le_of_lt hy hxy h)
      have hx' : change x = .stable := by
        unfold change
        rw [if_neg hincx, if_neg hdecx]
      rw [hx']
      unfold change
      rw [if_neg hdecy]
      simp only [swap, hincx, hdecx, false_implies, true_and, imp_false]
      split
      · rename_i hincy
        exact iff_of_false (by simp) (fun h => h hincy)
      · rename_i hincy
        exact iff_of_true rfl hincy

end Inverses

/-- Both ways are in range and mirror each other, exactly for reversible counts. -/
theorem change_mirrors_iff {a b : ℕ} (ha : 0 < a) (hb : 0 < b) :
    ((a : ℚ) / b < doubleLimit ∧ (b : ℚ) / a < doubleLimit ∧
      change ((b : ℚ) / a) = swap (change ((a : ℚ) / b))) ↔ Reversible a b ∧ Reversible b a := by
  have hxy : ((a : ℚ) / b) * ((b : ℚ) / a) = 1 := by field_simp
  rw [change_swap_iff (by positivity) (by positivity) hxy]
  unfold Reversible
  tauto

/-- Two counts have a direction that is mirrored when they are swapped, exactly if they
are reversible or one of them is missing. -/
theorem mirrored_direction_iff {countA countB : Option ℕ} (hposA : ∀ a ∈ countA, 0 < a)
    (hposB : ∀ b ∈ countB, 0 < b) (hsome : countA ≠ none ∨ countB ≠ none) :
    (∃ d, directionOf countA countB = .ok d ∧ directionOf countB countA = .ok (swap d)) ↔
      ∀ a ∈ countA, ∀ b ∈ countB, Reversible a b ∧ Reversible b a := by
  cases countA with
  | none =>
    cases countB with
    | none => exact absurd hsome (by simp)
    | some b => exact iff_of_true ⟨.disappeared, rfl, rfl⟩ (by simp)
  | some a =>
    cases countB with
    | none => exact iff_of_true ⟨.new, rfl, rfl⟩ (by simp)
    | some b =>
      have ha := hposA a rfl
      have hb := hposB b rfl
      rw [directionOf_some ha hb, directionOf_some hb ha]
      simp only [Option.mem_some_iff, forall_eq']
      rw [← change_mirrors_iff ha hb, ← not_le, ← not_le]
      constructor
      · rintro ⟨d, hd, hd'⟩
        split at hd
        · exact absurd hd (by simp)
        · split at hd'
          · exact absurd hd' (by simp)
          · rename_i hin hin'
            refine ⟨hin, hin', ?_⟩
            rw [Except.ok.inj hd]
            exact Except.ok.inj hd'
      · rintro ⟨hin, hin', hswap⟩
        exact ⟨_, if_neg hin, by rw [if_neg hin', hswap]⟩

/-- Counts below `2 ^ 52` are reversible. -/
theorem reversible_of_lt {a b : ℕ} (ha : 0 < a) (hb : 0 < b) (hlta : a < 2 ^ 52)
    (hltb : b < 2 ^ 52) : Reversible a b := by
  have haq : (0 : ℚ) < a := by exact_mod_cast ha
  have hbq : (1 : ℚ) ≤ b := by exact_mod_cast hb
  have hltaq : (a : ℚ) < 2 ^ 52 := by exact_mod_cast hlta
  have hltbq : (b : ℚ) < 2 ^ 52 := by exact_mod_cast hltb
  constructor
  · have hle : (a : ℚ) / b ≤ a := div_le_self haq.le hbq
    have hlimit := two_pow_le_doubleLimit
    linarith
  · intro hinc
    rw [le_div_iff₀ (by linarith)] at hinc
    rw [div_lt_iff₀ haq]
    -- the counts are integers, so three b and two a are equal or one apart
    by_contra hno
    rw [not_lt] at hno
    unfold increasedFrom at hinc
    unfold decreasedBelow at hno
    have hgap : (2 : ℚ) * a + 1 ≤ 3 * b := by
      have hlt : (2 : ℚ) * a < 3 * b := by nlinarith
      have hlt' : 2 * a < 3 * b := by exact_mod_cast hlt
      exact_mod_cast hlt'
    nlinarith

end Raglogs.DirectionLaws

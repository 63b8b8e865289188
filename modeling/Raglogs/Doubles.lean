import Mathlib.Algebra.Order.Field.Power
import Mathlib.Data.Int.Log
import Mathlib.Data.Rat.Floor
import Mathlib.Tactic.FieldSimp
import Mathlib.Tactic.Linarith
import Mathlib.Tactic.NormNum
import Mathlib.Tactic.Positivity
import Mathlib.Tactic.Ring

/-!
Rounding to doubles. A number is rounded to fifty-three significant bits, or to the
last place of the subnormal ones, and of two nearest doubles to the one whose last
bit is even. A comparison with a double is decided by the half-way point next to it.
-/

namespace Raglogs.Doubles

/-! Rounding to integers. -/

/-- The nearest integer; of two nearest ones the even one. -/
def roundHalfEven (x : ℚ) : ℤ :=
  let below := ⌊x⌋
  let part := x - below
  if part < 1 / 2 then below
  else if 1 / 2 < part then below + 1
  else if below % 2 = 0 then below
  else below + 1

theorem floor_bounds (x : ℚ) : (⌊x⌋ : ℚ) ≤ x ∧ x < (⌊x⌋ : ℚ) + 1 :=
  ⟨Int.floor_le x, Int.lt_floor_add_one x⟩

/-- An even integer is reached from half a unit below it on. -/
theorem even_le_roundHalfEven {n : ℤ} (hn : n % 2 = 0) (x : ℚ) :
    n ≤ roundHalfEven x ↔ (n : ℚ) - 1 / 2 ≤ x := by
  obtain ⟨hlow, hhigh⟩ := floor_bounds x
  have hbelow : n ≤ ⌊x⌋ ↔ (n : ℚ) ≤ ⌊x⌋ := Int.cast_le.symm
  have habove : n ≤ ⌊x⌋ + 1 ↔ (n : ℚ) ≤ ⌊x⌋ + 1 :=
    ⟨fun h => by exact_mod_cast h, fun h => by exact_mod_cast h⟩
  have hgap : ¬n ≤ ⌊x⌋ → (⌊x⌋ : ℚ) + 1 ≤ n := by
    intro h
    have hlt : ⌊x⌋ + 1 ≤ n := by omega
    exact_mod_cast hlt
  unfold roundHalfEven
  simp only
  split
  · rename_i hpart
    rw [hbelow]
    constructor
    · intro h
      linarith
    · intro h
      by_contra hno
      have hle := hgap (fun h => hno (hbelow.mp h))
      linarith
  · rename_i hpart
    split
    · rename_i hpart'
      rw [habove]
      constructor
      · intro h
        linarith
      · intro h
        by_contra hno
        have hle : (⌊x⌋ : ℚ) + 2 ≤ n := by
          have hlt : ⌊x⌋ + 2 ≤ n := by
            have hno' : ¬n ≤ ⌊x⌋ + 1 := fun h => hno (habove.mp h)
            omega
          exact_mod_cast hlt
        linarith
    · rename_i hpart'
      have hhalf : x = ⌊x⌋ + 1 / 2 := by linarith
      have hiff : ((n : ℚ) - 1 / 2 ≤ x) ↔ n ≤ ⌊x⌋ + 1 := by
        rw [habove]
        constructor <;> intro h <;> linarith
      rw [hiff]
      split
      · omega
      · omega

/-- An odd integer is passed from half a unit above it on. -/
theorem roundHalfEven_le_odd {n : ℤ} (hn : n % 2 = 1) (x : ℚ) :
    roundHalfEven x ≤ n ↔ x < (n : ℚ) + 1 / 2 := by
  have hnext := even_le_roundHalfEven (n := n + 1) (by omega) x
  rw [← not_lt, ← Int.add_one_le_iff, hnext, not_le]
  push_cast
  constructor <;> intro h <;> linarith

theorem le_roundHalfEven {n : ℤ} {x : ℚ} (h : (n : ℚ) ≤ x) : n ≤ roundHalfEven x := by
  have hfloor := Int.le_floor.mpr h
  unfold roundHalfEven
  simp only
  split
  · exact hfloor
  · split
    · omega
    · split <;> omega

theorem roundHalfEven_le {n : ℤ} {x : ℚ} (h : x ≤ n) : roundHalfEven x ≤ n := by
  obtain ⟨hlow, hhigh⟩ := floor_bounds x
  have hfloor : ⌊x⌋ ≤ n := by
    have hle : (⌊x⌋ : ℚ) ≤ n := le_trans hlow h
    exact_mod_cast hle
  rcases Int.lt_or_eq_of_le hfloor with hlt | heq
  · unfold roundHalfEven
    simp only
    split
    · exact hfloor
    · split
      · omega
      · split <;> omega
  · have hpart : x - ⌊x⌋ < 1 / 2 := by
      rw [heq]
      linarith
    unfold roundHalfEven
    simp only [if_pos hpart]
    exact hfloor

/-! Doubles. -/

/-- The exponent of the last bit kept. -/
def lastPlace (q : ℚ) : ℤ := max (Int.log 2 q - 52) (-1074)

/-- The nearest double of a number that is not negative, without a bound above. -/
def roundDouble (q : ℚ) : ℚ := roundHalfEven (q / 2 ^ lastPlace q) * 2 ^ lastPlace q

theorem two_zpow_pos (k : ℤ) : (0 : ℚ) < 2 ^ k := zpow_pos (by norm_num) k

theorem roundDouble_nonneg {q : ℚ} (hq : 0 ≤ q) : 0 ≤ roundDouble q := by
  have hpos := two_zpow_pos (lastPlace q)
  have hle : 0 ≤ roundHalfEven (q / 2 ^ lastPlace q) := by
    apply le_roundHalfEven
    rw [Int.cast_zero]
    exact div_nonneg hq hpos.le
  exact mul_nonneg (by exact_mod_cast hle) hpos.le

theorem two_zpow_le_iff {k : ℤ} {q : ℚ} (hq : 0 < q) : 2 ^ k ≤ q ↔ k ≤ Int.log 2 q := by
  have h := Int.zpow_le_iff_le_log (b := 2) (by norm_num) hq (x := k)
  simpa using h

theorem lt_two_zpow_iff {k : ℤ} {q : ℚ} (hq : 0 < q) : q < 2 ^ k ↔ Int.log 2 q < k := by
  have h := Int.lt_zpow_iff_log_lt (b := 2) (by norm_num) hq (x := k)
  simpa using h

/-- A number below a power of two is not rounded past it. -/
theorem roundDouble_le_two_zpow {k : ℤ} (hk : -1074 ≤ k) {q : ℚ} (hq : 0 < q)
    (h : q < 2 ^ k) : roundDouble q ≤ 2 ^ k := by
  have hplace : lastPlace q ≤ k := by
    have hlog := (lt_two_zpow_iff hq).mp h
    unfold lastPlace
    omega
  obtain ⟨j, hj⟩ := Int.eq_ofNat_of_zero_le (show 0 ≤ k - lastPlace q by omega)
  have hsplit : (2 : ℚ) ^ k = ((2 ^ j : ℤ) : ℚ) * 2 ^ lastPlace q := by
    have hsum : k = (j : ℤ) + lastPlace q := by omega
    rw [hsum, zpow_add₀ (by norm_num)]
    push_cast
    rw [zpow_natCast]
  have hpos := two_zpow_pos (lastPlace q)
  have hle : roundHalfEven (q / 2 ^ lastPlace q) ≤ 2 ^ j := by
    apply roundHalfEven_le
    rw [div_le_iff₀ hpos, ← hsplit]
    exact h.le
  unfold roundDouble
  rw [hsplit]
  have hle' : ((roundHalfEven (q / 2 ^ lastPlace q) : ℤ) : ℚ) ≤ ((2 ^ j : ℤ) : ℚ) :=
    Int.cast_le.mpr hle
  exact mul_le_mul_of_nonneg_right hle' hpos.le

/-- A number from a power of two on is not rounded below it. -/
theorem two_zpow_le_roundDouble {k : ℤ} (hk : -1074 ≤ k) {q : ℚ} (hq : 0 < q)
    (h : 2 ^ k ≤ q) : 2 ^ k ≤ roundDouble q := by
  have hlog := (two_zpow_le_iff hq).mp h
  have htop : (2 : ℚ) ^ Int.log 2 q ≤ q := (two_zpow_le_iff hq).mpr (le_refl _)
  have hplace : lastPlace q ≤ Int.log 2 q := by
    unfold lastPlace
    omega
  obtain ⟨j, hj⟩ := Int.eq_ofNat_of_zero_le (show 0 ≤ Int.log 2 q - lastPlace q by omega)
  have hsplit : (2 : ℚ) ^ Int.log 2 q = ((2 ^ j : ℤ) : ℚ) * 2 ^ lastPlace q := by
    have hsum : Int.log 2 q = (j : ℤ) + lastPlace q := by omega
    conv_lhs => rw [hsum]
    rw [zpow_add₀ (by norm_num)]
    push_cast
    rw [zpow_natCast]
  have hpos := two_zpow_pos (lastPlace q)
  have hle : (2 ^ j : ℤ) ≤ roundHalfEven (q / 2 ^ lastPlace q) := by
    apply le_roundHalfEven
    rw [le_div_iff₀ hpos, ← hsplit]
    exact htop
  have hle' : ((2 ^ j : ℤ) : ℚ) ≤ ((roundHalfEven (q / 2 ^ lastPlace q) : ℤ) : ℚ) :=
    Int.cast_le.mpr hle
  have hmono : (2 : ℚ) ^ k ≤ 2 ^ Int.log 2 q := zpow_le_zpow_right₀ (by norm_num) hlog
  refine le_trans hmono ?_
  unfold roundDouble
  rw [hsplit]
  exact mul_le_mul_of_nonneg_right hle' hpos.le

/-- In the binade from `2 ^ k` on the last place is that of fifty-three bits. -/
theorem roundDouble_of_binade {k : ℤ} (hk : -1022 ≤ k) {q : ℚ} (hq : 0 < q)
    (hlow : 2 ^ k ≤ q) (hhigh : q < 2 ^ (k + 1)) :
    roundDouble q = roundHalfEven (q / 2 ^ (k - 52)) * 2 ^ (k - 52) := by
  have hlog : Int.log 2 q = k := by
    have hge := (two_zpow_le_iff hq).mp hlow
    have hlt := (lt_two_zpow_iff hq).mp hhigh
    omega
  have hplace : lastPlace q = k - 52 := by
    unfold lastPlace
    omega
  unfold roundDouble
  rw [hplace]

theorem two_zpow_eq_lastPlace (k : ℤ) : (2 : ℚ) ^ k = 2 ^ 52 * 2 ^ (k - 52) := by
  have hsum : k = ((52 : ℕ) : ℤ) + (k - 52) := by omega
  conv_lhs => rw [hsum]
  rw [zpow_add₀ (by norm_num), zpow_natCast]

theorem two_zpow_succ_eq_lastPlace (k : ℤ) : (2 : ℚ) ^ (k + 1) = 2 ^ 53 * 2 ^ (k - 52) := by
  rw [zpow_add₀ (by norm_num), two_zpow_eq_lastPlace k]
  ring

/-- A double with an even last bit is reached from half a last place below it on. -/
theorem even_le_roundDouble {k n : ℤ} (hk : -1022 ≤ k) (hn : n % 2 = 0) (hlow : 2 ^ 52 < n)
    (hhigh : n ≤ 2 ^ 53) {q : ℚ} (hq : 0 < q) :
    (n : ℚ) * 2 ^ (k - 52) ≤ roundDouble q ↔ ((n : ℚ) - 1 / 2) * 2 ^ (k - 52) ≤ q := by
  have hpos := two_zpow_pos (k - 52)
  have hlow' : (2 ^ 52 : ℚ) + 1 ≤ n := by
    have hle : (2 ^ 52 : ℤ) + 1 ≤ n := hlow
    exact_mod_cast hle
  have hhigh' : (n : ℚ) ≤ 2 ^ 53 := by exact_mod_cast hhigh
  rcases lt_or_ge q (2 ^ k) with hbelow | hfrom
  · -- below the binade neither side holds
    have hround := roundDouble_le_two_zpow (by omega) hq hbelow
    rw [two_zpow_eq_lastPlace k] at hround hbelow
    constructor
    · intro h
      have hcancel := le_of_mul_le_mul_right (h.trans hround) hpos
      linarith
    · intro h
      have hcancel := lt_of_mul_lt_mul_right (h.trans_lt hbelow) hpos.le
      linarith
  · rcases lt_or_ge q (2 ^ (k + 1)) with hwithin | habove
    · rw [roundDouble_of_binade hk hq hfrom hwithin, mul_le_mul_iff_left₀ hpos, Int.cast_le,
        even_le_roundHalfEven hn, le_div_iff₀ hpos]
    · have hround := two_zpow_le_roundDouble (by omega) hq habove
      rw [two_zpow_succ_eq_lastPlace k] at hround habove
      constructor
      · intro _
        refine le_trans ?_ habove
        exact mul_le_mul_of_nonneg_right (by linarith) hpos.le
      · intro _
        exact (mul_le_mul_of_nonneg_right hhigh' hpos.le).trans hround

/-- A double with an odd last bit is passed from half a last place above it on. -/
theorem roundDouble_le_odd {k n : ℤ} (hk : -1022 ≤ k) (hn : n % 2 = 1) (hlow : 2 ^ 52 ≤ n)
    (hhigh : n < 2 ^ 53) {q : ℚ} (hq : 0 < q) :
    roundDouble q ≤ (n : ℚ) * 2 ^ (k - 52) ↔ q < ((n : ℚ) + 1 / 2) * 2 ^ (k - 52) := by
  have hpos := two_zpow_pos (k - 52)
  have hlow' : (2 ^ 52 : ℚ) ≤ n := by exact_mod_cast hlow
  have hhigh' : (n : ℚ) + 1 ≤ 2 ^ 53 := by
    have hle : n + 1 ≤ 2 ^ 53 := hhigh
    exact_mod_cast hle
  rcases lt_or_ge q (2 ^ k) with hbelow | hfrom
  · have hround := roundDouble_le_two_zpow (by omega) hq hbelow
    rw [two_zpow_eq_lastPlace k] at hround hbelow
    constructor
    · intro _
      refine hbelow.trans_le ?_
      exact mul_le_mul_of_nonneg_right (by linarith) hpos.le
    · intro _
      exact hround.trans (mul_le_mul_of_nonneg_right hlow' hpos.le)
  · rcases lt_or_ge q (2 ^ (k + 1)) with hwithin | habove
    · rw [roundDouble_of_binade hk hq hfrom hwithin, mul_le_mul_iff_left₀ hpos, Int.cast_le,
        roundHalfEven_le_odd hn, div_lt_iff₀ hpos]
    · -- above the binade neither side holds
      have hround := two_zpow_le_roundDouble (by omega) hq habove
      rw [two_zpow_succ_eq_lastPlace k] at hround habove
      constructor
      · intro h
        have hcancel := le_of_mul_le_mul_right (hround.trans h) hpos
        linarith
      · intro h
        have hcancel := lt_of_mul_lt_mul_right (habove.trans_lt h) hpos.le
        linarith

/-! The largest double. -/

/-- What is rounded up to the power of two after the largest double: from half a last
place below that power on. -/
def doubleLimit : ℕ := (2 ^ 54 - 1) * 2 ^ 970

theorem doubleLimit_eq : (doubleLimit : ℚ) = (2 ^ 54 - 1) * 2 ^ 970 := by
  unfold doubleLimit
  rw [Nat.cast_mul, Nat.cast_pow, Nat.cast_ofNat]
  norm_num only

theorem two_pow_le_doubleLimit : (2 : ℚ) ^ 52 ≤ doubleLimit := by
  have hone : (1 : ℚ) ≤ 2 ^ 970 := one_le_pow₀ (by norm_num)
  calc (2 : ℚ) ^ 52 ≤ (2 ^ 54 - 1) * 1 := by norm_num
    _ ≤ (2 ^ 54 - 1) * 2 ^ 970 := mul_le_mul_of_nonneg_left hone (by norm_num)
    _ = doubleLimit := doubleLimit_eq.symm

theorem doubleLimit_pos : 0 < doubleLimit := by
  have hpow : (0 : ℚ) < 2 ^ 52 := by positivity
  exact_mod_cast hpow.trans_le two_pow_le_doubleLimit

theorem roundDouble_overflows_iff {q : ℚ} (hq : 0 < q) :
    2 ^ 1024 ≤ roundDouble q ↔ (doubleLimit : ℚ) ≤ q := by
  have h := even_le_roundDouble (k := 1023) (n := 2 ^ 53) (by norm_num) (by norm_num)
    (by norm_num) le_rfl hq
  have hplace : ((1023 : ℤ) - 52) = ((971 : ℕ) : ℤ) := by norm_num
  have htop : ((2 ^ 53 : ℤ) : ℚ) * 2 ^ 971 = 2 ^ 1024 := by
    rw [Int.cast_pow, Int.cast_ofNat, ← pow_add]
  have hedge : (((2 ^ 53 : ℤ) : ℚ) - 1 / 2) * 2 ^ 971 = (doubleLimit : ℚ) := by
    have hhalf : ∀ x : ℚ, (2 ^ 53 - 1 / 2) * (x * 2) = (2 ^ 54 - 1) * x := fun x => by ring
    rw [doubleLimit_eq, pow_succ (2 : ℚ) 970, Int.cast_pow, Int.cast_ofNat, hhalf]
  rw [hplace, zpow_natCast] at h
  rwa [htop, hedge] at h

end Raglogs.Doubles

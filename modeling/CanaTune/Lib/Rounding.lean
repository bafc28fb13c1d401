import CanaTune.Lib.Scalar

/-! Rounded arithmetic. Every operation gives the nearest number of some precision, ties to the even one; the range of the
    exponents is not limited. -/

namespace CanaTune

/-- How the result of an operation, and a square root, is rounded, up to a relative error. -/
structure Arithmetic (K : Type) [Scalar K] where
  round : K → K
  sqrt : K → K
  eps : K
  round_near : ∀ x, |x - round x| ≤ eps * |x|
  sqrt_near : ∀ x, 0 ≤ x → 0 ≤ sqrt x ∧ (1 - eps) ^ 2 * x ≤ sqrt x ^ 2 ∧ sqrt x ^ 2 ≤ (1 + eps) ^ 2 * x

/-- Rounding to an integer moves a number by half of one at most. -/
theorem abs_sub_roundEven_le {K : Type} [Scalar K] (x : K) : |x - Scalar.roundEven x| ≤ 1 / 2 := by
  have hlow := Int.floor_le x
  have hhigh := Int.lt_floor_add_one x
  unfold Scalar.roundEven
  split_ifs with hdown hup
  · rw [abs_of_nonneg (by linarith)]
    exact hdown.le
  · rw [abs_le]
    push_cast
    constructor <;> linarith
  · rw [abs_of_nonneg (by linarith)]
    linarith
  · rw [abs_le]
    push_cast
    constructor <;> linarith

namespace Arithmetic
variable {K : Type} [Scalar K]

/-- Nothing is rounded. -/
noncomputable def exact : Arithmetic ℝ where
  round := id
  sqrt := Scalar.sqrt
  eps := 0
  round_near x := by simp
  sqrt_near x hx := by
    have hsq : Scalar.sqrt x ^ 2 = x := Real.sq_sqrt hx
    rw [hsq]
    exact ⟨Real.sqrt_nonneg x, by simp, by simp⟩

/-! ### The nearest number -/

/-- The distance of two numbers of `p` bits next to `x`. -/
def unit (p : ℕ) (x : K) : K := 2 ^ (Int.log 2 |x| + 1 - p)

def nearest (p : ℕ) (x : K) : K := Scalar.roundEven (x / unit p x) * unit p x

theorem unit_pos (p : ℕ) (x : K) : 0 < unit p x := zpow_pos two_pos _

/-- A number has `p` bits before its unit. -/
theorem unit_le (p : ℕ) {x : K} (hx : x ≠ 0) : unit p x ≤ 2 * (2 ^ p)⁻¹ * |x| := by
  have hlow := Int.zpow_log_le_self (R := K) (b := 2) (by norm_num) (abs_pos.mpr hx)
  rw [Nat.cast_ofNat] at hlow
  calc unit p x = 2 * (2 ^ p)⁻¹ * 2 ^ Int.log 2 |x| := by
        rw [unit, zpow_sub₀ two_ne_zero, zpow_add_one₀ two_ne_zero, zpow_natCast]
        ring
    _ ≤ 2 * (2 ^ p)⁻¹ * |x| := mul_le_mul_of_nonneg_left hlow (by positivity)

/-- Rounding is off by half a unit at most. -/
theorem abs_sub_nearest_le (p : ℕ) (x : K) : |x - nearest p x| ≤ unit p x / 2 := by
  have hpos := unit_pos p x
  have hsplit : x - nearest p x = (x / unit p x - Scalar.roundEven (x / unit p x)) * unit p x := by
    rw [nearest, sub_mul, div_mul_cancel₀ _ hpos.ne']
  rw [hsplit, abs_mul, abs_of_pos hpos]
  calc |x / unit p x - Scalar.roundEven (x / unit p x)| * unit p x
      ≤ 1 / 2 * unit p x := mul_le_mul_of_nonneg_right (abs_sub_roundEven_le _) hpos.le
    _ = unit p x / 2 := by ring

theorem nearest_near (p : ℕ) (x : K) : |x - nearest p x| ≤ (2 ^ p)⁻¹ * |x| := by
  rcases eq_or_ne x 0 with rfl | hx
  · have hzero : nearest p (0 : K) = 0 := by simp [nearest, Scalar.roundEven]
    simp [hzero]
  · linarith [abs_sub_nearest_le p x, unit_le p hx]

/-! ### The nearest square root -/

/-- The unit of a square root, from its square. -/
def sqrtUnit (p : ℕ) (x : ℚ) : ℚ := 2 ^ (Int.log 2 x / 2 + 1 - p)

/-- The square root is compared with the middle between the two numbers around it. -/
def nearestSqrt (p : ℕ) (x : ℚ) : ℚ :=
  let square := x / sqrtUnit p x ^ 2
  let low := Nat.sqrt ⌊square⌋₊
  let middle : ℚ := low + 1 / 2
  let root :=
    if square < middle ^ 2 then low
    else if middle ^ 2 < square then low + 1
    else if low % 2 = 0 then low else low + 1
  root * sqrtUnit p x

theorem sqrtUnit_le (p : ℕ) {x : ℚ} (hx : 0 < x) : (sqrtUnit p x : ℝ) ≤ 2 * (2 ^ p)⁻¹ * Real.sqrt x := by
  have hlow := Int.zpow_log_le_self (R := ℚ) (b := 2) (by norm_num) hx
  rw [Nat.cast_ofNat] at hlow
  have hhalf : ((2 : ℝ) ^ (Int.log 2 x / 2)) ≤ Real.sqrt x := by
    refine Real.le_sqrt_of_sq_le ?_
    have hexp : (2 : ℚ) ^ (Int.log 2 x / 2 * 2) ≤ 2 ^ Int.log 2 x := zpow_le_zpow_right₀ (by norm_num) (by omega)
    have hle : (((2 : ℚ) ^ (Int.log 2 x / 2) : ℚ) : ℝ) ^ 2 ≤ x := by
      rw [zpow_mul, zpow_ofNat] at hexp
      exact_mod_cast hexp.trans hlow
    simpa using hle
  have hunit : (sqrtUnit p x : ℝ) = 2 * (2 ^ p)⁻¹ * 2 ^ (Int.log 2 x / 2) := by
    rw [sqrtUnit, zpow_sub₀ two_ne_zero, zpow_add_one₀ two_ne_zero, zpow_natCast]
    push_cast
    ring
  rw [hunit]
  exact mul_le_mul_of_nonneg_left hhalf (by positivity)

/-- The nearest square root is off by half a unit at most. -/
theorem abs_sqrt_sub_nearestSqrt_le (p : ℕ) {x : ℚ} (hx : 0 ≤ x) :
    |Real.sqrt x - nearestSqrt p x| ≤ (sqrtUnit p x : ℝ) / 2 := by
  have hunit : 0 < sqrtUnit p x := zpow_pos two_pos _
  generalize hu : sqrtUnit p x = u at hunit
  have hpos : (0 : ℝ) < u := by exact_mod_cast hunit
  set square := x / u ^ 2 with hsquare
  have hsquare0 : 0 ≤ square := by positivity
  have hroot : Real.sqrt x = Real.sqrt square * u := by
    rw [hsquare, Rat.cast_div, Rat.cast_pow, Real.sqrt_div' _ (sq_nonneg _), Real.sqrt_sq hpos.le,
      div_mul_cancel₀ _ hpos.ne']
  set low := Nat.sqrt ⌊square⌋₊ with hlow
  have hge : (low : ℝ) ≤ Real.sqrt square := by
    refine Real.le_sqrt_of_sq_le ?_
    have hle : ((low ^ 2 : ℕ) : ℚ) ≤ square := (Nat.cast_le.mpr (Nat.sqrt_le' _)).trans (Nat.floor_le hsquare0)
    exact_mod_cast hle
  have hlt : Real.sqrt square < low + 1 := by
    rw [Real.sqrt_lt' (by positivity)]
    have hlt : square < ((low + 1) ^ 2 : ℕ) := (Nat.floor_lt hsquare0).mp (Nat.sqrt_lt'.mp (Nat.lt_succ_self _))
    exact_mod_cast hlt
  -- The middle decides on which side the square root lies.
  have hbelow : square ≤ ((low : ℚ) + 1 / 2) ^ 2 → Real.sqrt square ≤ low + 1 / 2 := fun h => by
    have h : (square : ℝ) ≤ ((((low : ℚ) + 1 / 2) ^ 2 : ℚ) : ℝ) := by exact_mod_cast h
    push_cast at h
    exact Real.sqrt_le_iff.mpr ⟨by positivity, h⟩
  have habove : ((low : ℚ) + 1 / 2) ^ 2 ≤ square → (low : ℝ) + 1 / 2 ≤ Real.sqrt square := fun h => by
    have h : ((((low : ℚ) + 1 / 2) ^ 2 : ℚ) : ℝ) ≤ square := by exact_mod_cast h
    push_cast at h
    exact Real.le_sqrt_of_sq_le h
  have hnear : ∀ root : ℕ, |Real.sqrt square - root| ≤ 1 / 2 → |Real.sqrt x - (root * u : ℚ)| ≤ (u : ℝ) / 2 := by
    intro root h
    rw [hroot, Rat.cast_mul, Rat.cast_natCast, ← sub_mul, abs_mul, abs_of_pos hpos]
    linarith [mul_le_mul_of_nonneg_right h hpos.le]
  unfold nearestSqrt
  rw [hu]
  dsimp only
  rw [← hsquare, ← hlow]
  refine hnear _ (abs_le.mpr ?_)
  split_ifs with hdown hup heven
  · have hle := hbelow hdown.le
    constructor <;> linarith
  · have hle := habove hup.le
    push_cast
    constructor <;> linarith
  · have hle := hbelow (not_lt.mp hup)
    constructor <;> linarith
  · have hle := habove (not_lt.mp hdown)
    push_cast
    constructor <;> linarith

theorem nearestSqrt_nonneg (p : ℕ) (x : ℚ) : 0 ≤ nearestSqrt p x :=
  mul_nonneg (Nat.cast_nonneg _) (zpow_pos two_pos _).le

theorem nearestSqrt_near (p : ℕ) {x : ℚ} (hx : 0 ≤ x) :
    (1 - (2 ^ p)⁻¹) ^ 2 * x ≤ nearestSqrt p x ^ 2 ∧ nearestSqrt p x ^ 2 ≤ (1 + (2 ^ p)⁻¹) ^ 2 * x := by
  rcases hx.eq_or_lt with rfl | hpos
  · have hzero : nearestSqrt p 0 = 0 := by simp [nearestSqrt]
    simp [hzero]
  have hroot : Real.sqrt x ^ 2 = x := Real.sq_sqrt (by exact_mod_cast hx)
  have hclose : |Real.sqrt x - nearestSqrt p x| ≤ (2 ^ p)⁻¹ * Real.sqrt x := by
    linarith [abs_sqrt_sub_nearestSqrt_le p hx, sqrtUnit_le p hpos]
  obtain ⟨hhigh, hlow⟩ := abs_le.mp hclose
  have hpow : (1 : ℝ) ≤ 2 ^ p := one_le_pow₀ one_le_two
  have hsmall : ((2 : ℝ) ^ p)⁻¹ ≤ 1 := inv_le_one_of_one_le₀ hpow
  have hnonneg : (0 : ℝ) ≤ nearestSqrt p x := by exact_mod_cast nearestSqrt_nonneg p x
  have hbelow : ((1 - (2 ^ p)⁻¹) * Real.sqrt x) ^ 2 ≤ (nearestSqrt p x : ℝ) ^ 2 :=
    pow_le_pow_left₀ (mul_nonneg (by linarith) (Real.sqrt_nonneg x)) (by linarith) 2
  have habove : (nearestSqrt p x : ℝ) ^ 2 ≤ ((1 + (2 ^ p)⁻¹) * Real.sqrt x) ^ 2 :=
    pow_le_pow_left₀ hnonneg (by linarith) 2
  rw [mul_pow, hroot] at hbelow habove
  constructor
  · rw [← Rat.cast_le (K := ℝ)]
    push_cast
    exact hbelow
  · rw [← Rat.cast_le (K := ℝ)]
    push_cast
    exact habove

/-- The floats of the program, within the range of their exponents. -/
def binary64 : Arithmetic ℚ where
  round := nearest 53
  sqrt := nearestSqrt 53
  eps := (2 ^ 53)⁻¹
  round_near := nearest_near 53
  sqrt_near x hx := ⟨nearestSqrt_nonneg 53 x, nearestSqrt_near 53 hx⟩

end Arithmetic
end CanaTune

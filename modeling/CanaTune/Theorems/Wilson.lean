import CanaTune.Theorems.SlackBounds
import CanaTune.Controller.Locator

/-! The Wilson bound is the larger root of a quadratic in the rate. It lies between the rate and 1, grows with the
    violations, and is the same in the admission and in the locator. -/

namespace CanaTune

/-! ### The larger root -/

/-- The bound of a rate `p` over `n` requests. -/
noncomputable def wilsonRoot (p n z : ℝ) : ℝ :=
  (p + z * z / (2 * n) + z * Real.sqrt (p * (1 - p) / n + z * z / (4 * n * n))) / (1 + z * z / n)

/-- The quadratic in `u` whose larger root is the bound. -/
noncomputable def wilsonGap (p n z u : ℝ) : ℝ := (u - p) ^ 2 - z * z / n * (u * (1 - u))

section Root
variable {p q n z u : ℝ}

theorem scale_pos (hn : 0 < n) : 0 < 1 + z * z / n := by
  have h := mul_self_nonneg z
  positivity

/-- The square of the distance to the centre, through the quadratic. -/
theorem sq_centre (hn : 0 < n) (hp0 : 0 ≤ p) (hp1 : p ≤ 1) (u : ℝ) :
    ((1 + z * z / n) * u - (p + z * z / (2 * n))) ^ 2
      = (1 + z * z / n) * wilsonGap p n z u
        + (z * Real.sqrt (p * (1 - p) / n + z * z / (4 * n * n))) ^ 2 := by
  have hvariance : 0 ≤ p * (1 - p) := mul_nonneg hp0 (sub_nonneg.mpr hp1)
  have hsq := mul_self_nonneg z
  rw [mul_pow, Real.sq_sqrt (by positivity), wilsonGap]
  field_simp
  ring

/-- Strictly inside the roots a value is below the bound. -/
theorem lt_wilsonRoot (hn : 0 < n) (hp0 : 0 ≤ p) (hp1 : p ≤ 1) (hz : 0 ≤ z) (h : wilsonGap p n z u < 0) :
    u < wilsonRoot p n z := by
  have hsq := sq_centre (z := z) hn hp0 hp1 u
  have hscaled := mul_neg_of_pos_of_neg (scale_pos (z := z) hn) h
  have hhalf : 0 ≤ z * Real.sqrt (p * (1 - p) / n + z * z / (4 * n * n)) := mul_nonneg hz (Real.sqrt_nonneg _)
  have hlt : (1 + z * z / n) * u - (p + z * z / (2 * n)) < z * Real.sqrt (p * (1 - p) / n + z * z / (4 * n * n)) := by
    refine lt_of_pow_lt_pow_left₀ 2 hhalf ?_
    linarith
  rw [wilsonRoot, lt_div_iff₀ (scale_pos hn)]
  linarith

theorem wilsonGap_root (hn : 0 < n) (hp0 : 0 ≤ p) (hp1 : p ≤ 1) : wilsonGap p n z (wilsonRoot p n z) = 0 := by
  have hsq := sq_centre (z := z) hn hp0 hp1 (wilsonRoot p n z)
  have hcentre : (1 + z * z / n) * wilsonRoot p n z - (p + z * z / (2 * n))
      = z * Real.sqrt (p * (1 - p) / n + z * z / (4 * n * n)) := by
    rw [wilsonRoot, mul_div_cancel₀ _ (scale_pos hn).ne']
    ring
  rw [hcentre] at hsq
  have hzero : (1 + z * z / n) * wilsonGap p n z (wilsonRoot p n z) = 0 := by linarith
  exact (mul_eq_zero.mp hzero).resolve_left (scale_pos hn).ne'

theorem wilsonRoot_le_one (hn : 0 < n) (hp0 : 0 ≤ p) (hp1 : p ≤ 1) : wilsonRoot p n z ≤ 1 := by
  have hsq := sq_centre (z := z) hn hp0 hp1 1
  have hgap : wilsonGap p n z 1 = (1 - p) ^ 2 := by
    rw [wilsonGap]
    ring
  have hcentre : 0 ≤ (1 + z * z / n) * 1 - (p + z * z / (2 * n)) := by
    have hhalf : (1 + z * z / n) * 1 - (p + z * z / (2 * n)) = 1 - p + z * z / (2 * n) := by
      field_simp
      ring
    have hsq' := mul_self_nonneg z
    have hrest : 0 ≤ z * z / (2 * n) := by positivity
    linarith
  -- The radius is at most the distance from the centre to 1, by their squares.
  have hle : z * Real.sqrt (p * (1 - p) / n + z * z / (4 * n * n)) ≤ (1 + z * z / n) * 1 - (p + z * z / (2 * n)) := by
    refine le_of_sq_le_sq ?_ hcentre
    have hscaled : 0 ≤ (1 + z * z / n) * (1 - p) ^ 2 := mul_nonneg (scale_pos hn).le (sq_nonneg _)
    rw [hsq, hgap]
    linarith
  rw [wilsonRoot, div_le_one (scale_pos hn)]
  linarith

theorem le_wilsonRoot (hn : 0 < n) (hp0 : 0 ≤ p) (hp1 : p ≤ 1) (hz : 0 ≤ z) : p ≤ wilsonRoot p n z := by
  have hsq := sq_centre (z := z) hn hp0 hp1 p
  have hvariance : 0 ≤ p * (1 - p) := mul_nonneg hp0 (sub_nonneg.mpr hp1)
  have hgap : wilsonGap p n z p ≤ 0 := by
    have hsq' := mul_self_nonneg z
    have hrest : 0 ≤ z * z / n * (p * (1 - p)) := by positivity
    rw [wilsonGap, sub_self]
    linarith
  have hhalf : 0 ≤ z * Real.sqrt (p * (1 - p) / n + z * z / (4 * n * n)) := mul_nonneg hz (Real.sqrt_nonneg _)
  have hle : (1 + z * z / n) * p - (p + z * z / (2 * n)) ≤ z * Real.sqrt (p * (1 - p) / n + z * z / (4 * n * n)) := by
    refine le_of_sq_le_sq ?_ hhalf
    have hscaled := mul_nonpos_of_nonneg_of_nonpos (scale_pos (z := z) hn).le hgap
    linarith
  rw [wilsonRoot, le_div_iff₀ (scale_pos hn)]
  linarith

/-- A higher rate has a higher bound: the lower rate's bound lies strictly inside the higher rate's roots. -/
theorem wilsonRoot_lt (hn : 0 < n) (hp0 : 0 ≤ p) (hpq : p < q) (hq1 : q ≤ 1) (hz : 0 ≤ z) :
    wilsonRoot p n z < wilsonRoot q n z := by
  have hp1 := hpq.le.trans hq1
  have hq0 := hp0.trans hpq.le
  rcases lt_or_ge (wilsonRoot p n z) q with hlt | hge
  · exact hlt.trans_le (le_wilsonRoot hn hq0 hq1 hz)
  · refine lt_wilsonRoot hn hq0 hq1 hz ?_
    have hroot := wilsonGap_root (z := z) hn hp0 hp1
    have hcloser : (wilsonRoot p n z - q) ^ 2 < (wilsonRoot p n z - p) ^ 2 :=
      pow_lt_pow_left₀ (by linarith) (by linarith) two_ne_zero
    rw [wilsonGap] at hroot ⊢
    linarith

end Root

/-! ### The two versions -/

section Counts
variable {k k' n : ℤ} {z : ℝ}

theorem wilsonUcb_eq (hn : 1 ≤ n) (k : ℤ) (z : ℝ) : wilsonUcb k n z = wilsonRoot (k / n) n z := by
  rw [wilsonUcb, if_neg (by omega)]
  rfl

theorem rate_mem (hn : 1 ≤ n) (h0 : 0 ≤ k) (h1 : k ≤ n) : (0 : ℝ) < n ∧ 0 ≤ (k : ℝ) / n ∧ (k : ℝ) / n ≤ 1 := by
  have hn' : (0 : ℝ) < n := by exact_mod_cast hn
  have h0' : (0 : ℝ) ≤ k := by exact_mod_cast h0
  exact ⟨hn', by positivity, (div_le_one hn').mpr (by exact_mod_cast h1)⟩

theorem wilsonUcb_mem (hn : 1 ≤ n) (h0 : 0 ≤ k) (h1 : k ≤ n) (hz : 0 ≤ z) :
    (k : ℝ) / n ≤ wilsonUcb k n z ∧ wilsonUcb k n z ≤ 1 := by
  obtain ⟨hn', hp0, hp1⟩ := rate_mem hn h0 h1
  rw [wilsonUcb_eq hn]
  exact ⟨le_wilsonRoot hn' hp0 hp1 hz, wilsonRoot_le_one hn' hp0 hp1⟩

/-- The two bounds agree, lie between the rate and 1 and grow with the violations; the lower bound made of them lies
    between 0 and the rate. -/
theorem wilsonUcb_sound (hn : 1 ≤ n) (h0 : 0 ≤ k) (h1 : k ≤ n) (hz : 0 ≤ z) :
    Locator.wilsonUcb k n z = wilsonUcb k n z ∧
      ((k : ℝ) / n ≤ wilsonUcb k n z ∧ wilsonUcb k n z ≤ 1) ∧
      (∀ k', k < k' → k' ≤ n → wilsonUcb k n z < wilsonUcb k' n z) ∧
      0 ≤ 1 - wilsonUcb (n - k) n z ∧ 1 - wilsonUcb (n - k) n z ≤ (k : ℝ) / n := by
  obtain ⟨hn', hp0, hp1⟩ := rate_mem hn h0 h1
  have hmem := wilsonUcb_mem hn h0 h1 hz
  refine ⟨?_, hmem, fun k' hlt hle => ?_, ?_⟩
  · have hcut : Locator.wilsonUcb k n z = min 1 (wilsonRoot (k / n) n z) := by
      rw [Locator.wilsonUcb, if_neg (by omega)]
      rfl
    rw [hcut, ← wilsonUcb_eq hn, min_eq_right hmem.2]
  · obtain ⟨-, -, hq1⟩ := rate_mem hn (h0.trans hlt.le) hle
    have hrates : (k : ℝ) / n < k' / n := div_lt_div_of_pos_right (by exact_mod_cast hlt) hn'
    rw [wilsonUcb_eq hn, wilsonUcb_eq hn]
    exact wilsonRoot_lt hn' hp0 hrates hq1 hz
  · have hrest := wilsonUcb_mem (z := z) hn (sub_nonneg.mpr h1) (sub_le_self n h0) hz
    have hrate : ((n - k : ℤ) : ℝ) / n = 1 - k / n := by
      push_cast
      rw [sub_div, div_self hn'.ne']
    rw [hrate] at hrest
    exact ⟨by linarith [hrest.2], by linarith [hrest.1]⟩

/-- One violation in two requests, at one standard deviation. -/
theorem wilsonUcb_sound_half : (1 / 2 : ℝ) ≤ wilsonUcb 1 2 1 ∧ wilsonUcb 1 2 (1 : ℝ) < wilsonUcb 2 2 1 := by
  obtain ⟨-, ⟨hlow, -⟩, hgrows, -⟩ := wilsonUcb_sound (k := 1) (n := 2) (z := 1) (by norm_num) (by norm_num)
    (by norm_num) (by norm_num)
  refine ⟨?_, hgrows 2 (by norm_num) le_rfl⟩
  norm_num at hlow ⊢
  exact hlow

end Counts
end CanaTune

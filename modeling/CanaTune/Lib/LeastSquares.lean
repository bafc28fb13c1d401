import Mathlib

/-! Ridge regression over an ordered field: a solution of the regularised normal equations is a minimiser of the
    penalised sum of squares, and the only one when every component is penalised. -/

namespace CanaTune.LeastSquares
variable {K ι σ : Type*} [Field K] [Fintype ι]

/-- A linear model applied to a sample's features. -/
def linear (w f : ι → K) : K := ∑ i, w i * f i

/-- The squared errors of `w` on the samples, and its weighted distance from the prior `p`. -/
def loss (S : List σ) (x : σ → ι → K) (y : σ → K) (μ p w : ι → K) : K :=
  (S.map fun s => (y s - linear w (x s)) ^ 2).sum + ∑ i, μ i * (w i - p i) ^ 2

def gram (S : List σ) (x : σ → ι → K) (i j : ι) : K := (S.map fun s => x s i * x s j).sum

def moment (S : List σ) (x : σ → ι → K) (y : σ → K) (i : ι) : K := (S.map fun s => x s i * y s).sum

/-- The normal equations, with the penalty on the diagonal. -/
def Normal (S : List σ) (x : σ → ι → K) (y : σ → K) (μ p w : ι → K) : Prop :=
  ∀ i, ∑ j, gram S x i j * w j + μ i * w i = moment S x y i + μ i * p i

/-- `w` fits every sample exactly. -/
def Exact (S : List σ) (x : σ → ι → K) (y : σ → K) (w : ι → K) : Prop := ∀ s ∈ S, y s = linear w (x s)

variable {S : List σ} {x : σ → ι → K} {y : σ → K} {μ p w v d : ι → K}

theorem linear_add (w d f : ι → K) : linear (w + d) f = linear w f + linear d f := by
  rw [linear, linear, linear, ← Finset.sum_add_distrib]
  refine Finset.sum_congr rfl fun i _ => ?_
  rw [Pi.add_apply, add_mul]

theorem sum_linear (S : List σ) (x : σ → ι → K) (d : ι → K) (g : σ → K) :
    (S.map fun s => g s * linear d (x s)).sum = ∑ i, d i * (S.map fun s => x s i * g s).sum := by
  induction S with
  | nil => simp
  | cons s S ih =>
    simp only [List.map_cons, List.sum_cons, mul_add, Finset.sum_add_distrib]
    rw [ih, linear, Finset.mul_sum]
    congr 1
    exact Finset.sum_congr rfl fun i _ => by ring

theorem sum_residual (S : List σ) (x : σ → ι → K) (y : σ → K) (w : ι → K) (i : ι) :
    (S.map fun s => x s i * (y s - linear w (x s))).sum = moment S x y i - ∑ j, gram S x i j * w j := by
  induction S with
  | nil => simp [moment, gram]
  | cons s S ih =>
    simp only [moment, gram, List.map_cons, List.sum_cons, add_mul, Finset.sum_add_distrib] at ih ⊢
    rw [ih, mul_sub, linear, Finset.mul_sum]
    have hterm : ∑ j, x s i * (w j * x s j) = ∑ j, x s i * x s j * w j :=
      Finset.sum_congr rfl fun j _ => by ring
    rw [hterm]
    ring

theorem sum_sq_add (S : List σ) (x : σ → ι → K) (y : σ → K) (w d : ι → K) :
    (S.map fun s => (y s - linear (w + d) (x s)) ^ 2).sum
      = (S.map fun s => (y s - linear w (x s)) ^ 2).sum
        - 2 * (S.map fun s => (y s - linear w (x s)) * linear d (x s)).sum
        + (S.map fun s => linear d (x s) ^ 2).sum := by
  induction S with
  | nil => simp
  | cons s S ih =>
    simp only [List.map_cons, List.sum_cons]
    rw [ih, linear_add]
    ring

/-- From a solution of the normal equations the loss grows by the squares of the step. -/
theorem loss_add (h : Normal S x y μ p w) (d : ι → K) :
    loss S x y μ p (w + d)
      = loss S x y μ p w + ((S.map fun s => linear d (x s) ^ 2).sum + ∑ i, μ i * d i ^ 2) := by
  have hpenalty : ∑ i, μ i * ((w + d) i - p i) ^ 2
      = ∑ i, μ i * (w i - p i) ^ 2 + 2 * ∑ i, d i * (μ i * (w i - p i)) + ∑ i, μ i * d i ^ 2 := by
    rw [Finset.mul_sum, ← Finset.sum_add_distrib, ← Finset.sum_add_distrib]
    refine Finset.sum_congr rfl fun i _ => ?_
    rw [Pi.add_apply]
    ring
  have hcross : (S.map fun s => (y s - linear w (x s)) * linear d (x s)).sum = ∑ i, d i * (μ i * (w i - p i)) := by
    rw [sum_linear]
    refine Finset.sum_congr rfl fun i _ => ?_
    rw [sum_residual]
    linear_combination d i * -h i
  rw [loss, loss, sum_sq_add, hpenalty, hcross]
  ring

/-- What an exact fit by the prior says about the normal equations: the prior solves them. -/
theorem normal_of_exact (h : Exact S x y p) : Normal S x y μ p p := by
  intro i
  have hzero : (S.map fun s => x s i * (y s - linear p (x s))).sum = 0 := by
    refine List.sum_eq_zero fun c hc => ?_
    obtain ⟨s, hs, rfl⟩ := List.mem_map.mp hc
    rw [h s hs, sub_self, mul_zero]
  rw [sum_residual] at hzero
  rw [sub_eq_zero.mp hzero]

/-- A component that no sample has is left to the penalty. -/
theorem eq_prior_of_zero (h : Normal S x y μ p w) {i : ι} (hi : ∀ s ∈ S, x s i = 0) (hμ : μ i ≠ 0) : w i = p i := by
  have hgram : ∀ j, gram S x i j = 0 := fun j => List.sum_eq_zero fun c hc => by
    obtain ⟨s, hs, rfl⟩ := List.mem_map.mp hc
    rw [hi s hs, zero_mul]
  have hmoment : moment S x y i = 0 := List.sum_eq_zero fun c hc => by
    obtain ⟨s, hs, rfl⟩ := List.mem_map.mp hc
    rw [hi s hs, zero_mul]
  have heq := h i
  simp only [hgram, hmoment, zero_mul, Finset.sum_const_zero, zero_add] at heq
  exact mul_left_cancel₀ hμ heq

variable [LinearOrder K] [IsStrictOrderedRing K]

omit [Fintype ι] in
theorem sum_sq_nonneg (S : List σ) (f : σ → K) : 0 ≤ (S.map fun s => f s ^ 2).sum :=
  List.sum_nonneg fun c hc => by
    obtain ⟨s, -, rfl⟩ := List.mem_map.mp hc
    exact sq_nonneg _

/-- A solution of the normal equations is a minimiser. -/
theorem loss_min (h : Normal S x y μ p w) (hμ : ∀ i, 0 ≤ μ i) (v : ι → K) : loss S x y μ p w ≤ loss S x y μ p v := by
  have hstep := loss_add h (v - w)
  rw [add_sub_cancel] at hstep
  have hpenalty : 0 ≤ ∑ i, μ i * (v - w) i ^ 2 := Finset.sum_nonneg fun i _ => mul_nonneg (hμ i) (sq_nonneg _)
  rw [hstep]
  exact le_add_of_nonneg_right (add_nonneg (sum_sq_nonneg S _) hpenalty)

/-- With every component penalised it is the only one. -/
theorem loss_unique (h : Normal S x y μ p w) (hμ : ∀ i, 0 < μ i) (hv : loss S x y μ p v ≤ loss S x y μ p w) : v = w := by
  have hstep := loss_add h (v - w)
  rw [add_sub_cancel] at hstep
  have hsquares := sum_sq_nonneg S fun s => linear (v - w) (x s)
  have hpenalty : ∀ i ∈ Finset.univ, 0 ≤ μ i * (v - w) i ^ 2 := fun i _ => mul_nonneg (hμ i).le (sq_nonneg _)
  have hzero : ∑ i, μ i * (v - w) i ^ 2 = 0 := by
    refine le_antisymm ?_ (Finset.sum_nonneg hpenalty)
    linarith
  funext i
  have hi := (Finset.sum_eq_zero_iff_of_nonneg hpenalty).mp hzero i (Finset.mem_univ i)
  have hsq := (mul_eq_zero.mp hi).resolve_left (hμ i).ne'
  exact sub_eq_zero.mp (pow_eq_zero_iff two_ne_zero |>.mp hsq)

/-- The normal equations have one solution when every component is penalised. -/
theorem normal_unique (hw : Normal S x y μ p w) (hv : Normal S x y μ p v) (hμ : ∀ i, 0 < μ i) : v = w :=
  loss_unique hw hμ (loss_min hv (fun i => (hμ i).le) w)

end CanaTune.LeastSquares

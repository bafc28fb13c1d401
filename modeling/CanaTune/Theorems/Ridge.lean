import CanaTune.Lib.LeastSquares
import CanaTune.Theorems.Solve

/-! The predictor's refit is the ridge solution anchored at the prior. The code's matrix is the Gram matrix of the samples
    with the penalty on its diagonal, so what `_solve` returns solves the normal equations, whose solution is the only
    minimiser of the penalised loss. -/

namespace CanaTune
open LeastSquares
variable {K : Type} [Scalar K]

theorem map_range {α : Type} {n : ℕ} (f : ℕ → α) : (List.range n).map f = List.ofFn fun i : Fin n => f i := by
  rw [← List.map_coe_finRange_eq_range, List.map_map, List.ofFn_eq_map]
  rfl

omit [Scalar K] in
theorem listed_range {n : ℕ} (f : ℕ → ℕ → K) :
    ((List.range n).map fun i => (List.range n).map (f i)) = listed (n := n) fun i j => f i j := by
  have hrows : ∀ i, (List.range n).map (f i) = List.ofFn fun j : Fin n => f i j := fun i => map_range (f i)
  simp only [hrows]
  exact map_range fun i => List.ofFn fun j : Fin n => f i j

namespace TtftPredictor
variable {p : TtftPredictor K}

/-- A sample's feature; a missing one counts as 0. -/
def feature (s : List K × K) (i : Fin featureCount) : K := s.1.getD i 0

/-- The mean square of a feature over the samples, or 1 if that is 0. -/
def scaleOf (p : TtftPredictor K) (i : Fin featureCount) : K :=
  let q : K := (p.samples.map fun s => feature s i ^ 2).sum / p.samples.length
  if q = 0 then 1 else q

def penalty (p : TtftPredictor K) (i : Fin featureCount) : K := p.ridge * p.scaleOf i

def priorOf (p : TtftPredictor K) (i : Fin featureCount) : K := p.prior.getD i 0

/-- Squared errors on the samples, and `ridge * scale` times the squared distance from the prior. -/
def objective (p : TtftPredictor K) (c : Fin featureCount → K) : K :=
  loss p.samples feature (·.2) p.penalty p.priorOf c

/-- The matrix of the normal equations. -/
def normalMatrix (p : TtftPredictor K) : Matrix (Fin featureCount) (Fin featureCount) K := fun i j =>
  if i = j then gram p.samples feature i j + p.penalty i else gram p.samples feature i j

def normalVector (p : TtftPredictor K) (i : Fin featureCount) : K :=
  moment p.samples feature (·.2) i + p.penalty i * p.priorOf i

theorem scaleOf_pos (p : TtftPredictor K) (i : Fin featureCount) : 0 < p.scaleOf i := by
  have hsum : 0 ≤ (p.samples.map fun s => feature s i ^ 2).sum := sum_sq_nonneg p.samples fun s => feature s i
  unfold scaleOf
  dsimp only
  split_ifs with h
  · exact one_pos
  · exact lt_of_le_of_ne (div_nonneg hsum (Nat.cast_nonneg _)) (Ne.symm h)

theorem scaleOf_eq (hs : p.samples ≠ []) (i : Fin featureCount) :
    p.scaleOf i = (let q : K := (p.samples.map fun s => s.1.getD i 0 * s.1.getD i 0).sum / (max p.samples.length 1 : ℕ)
      if q = 0 then 1 else q) := by
  rw [max_eq_left (List.length_pos_iff.mpr hs), scaleOf]
  simp only [feature, sq]

theorem refit_eq (hs : p.samples ≠ []) :
    p.refit = match solve (listed p.normalMatrix) (List.ofFn p.normalVector) with
      | some coef => { p with coef }
      | none => p := by
  have hmatrix : listed p.normalMatrix = (List.range featureCount).map fun i => (List.range featureCount).map fun j =>
      if i = j then (p.samples.map fun s => s.1.getD i 0 * s.1.getD j 0).sum
          + p.ridge * (let q : K := (p.samples.map fun s => s.1.getD i 0 * s.1.getD i 0).sum / (max p.samples.length 1 : ℕ)
            if q = 0 then 1 else q)
        else (p.samples.map fun s => s.1.getD i 0 * s.1.getD j 0).sum := by
    rw [listed_range]
    congr 1
    funext i j
    simp only [normalMatrix, penalty, scaleOf_eq hs, gram, feature, Fin.ext_iff]
  have hvector : List.ofFn p.normalVector = (List.range featureCount).map fun i =>
      (p.samples.map fun s => s.1.getD i 0 * s.2).sum
        + p.ridge * (let q : K := (p.samples.map fun s => s.1.getD i 0 * s.1.getD i 0).sum / (max p.samples.length 1 : ℕ)
          if q = 0 then 1 else q) * p.prior.getD i 0 := by
    rw [map_range]
    congr 1
    funext i
    simp only [normalVector, penalty, priorOf, scaleOf_eq hs, moment, feature]
  rw [hmatrix, hvector]
  rfl

/-- What solves the code's system solves the normal equations. -/
theorem normal_of_solves {c : Fin featureCount → K} (h : p.normalMatrix.mulVec c = p.normalVector) :
    Normal p.samples feature (·.2) p.penalty p.priorOf c := by
  intro i
  have hi := congrFun h i
  rw [normalVector] at hi
  rw [← hi, Matrix.mulVec, dotProduct]
  have hsplit : ∀ j, p.normalMatrix i j * c j
      = gram p.samples feature i j * c j + if i = j then p.penalty i * c j else 0 := fun j => by
    rw [normalMatrix]
    split_ifs <;> ring
  simp only [hsplit, Finset.sum_add_distrib, Finset.sum_ite_eq, Finset.mem_univ, if_true]

/-- The refit leaves the coefficients when a column has no pivot, or sets them to the unique minimiser, which keeps the
    prior of a feature that no sample has and the whole prior when it fits exactly. -/
theorem refit_ridge (p : TtftPredictor K) (hs : p.samples ≠ []) (hridge : 0 < p.ridge) :
    (p.refit = p ∧ ∃ col < featureCount, ∃ m,
      eliminated featureCount col (system p.normalMatrix p.normalVector) = some m ∧ NoPivot featureCount m col) ∨
    ∃ c : Fin featureCount → K, p.refit = { p with coef := List.ofFn c } ∧
      (∀ c', p.objective c ≤ p.objective c') ∧ (∀ c', p.objective c' ≤ p.objective c → c' = c) ∧
      (∀ i, (∀ s ∈ p.samples, feature s i = 0) → c i = p.priorOf i) ∧
      (Exact p.samples feature (·.2) p.priorOf → c = p.priorOf) := by
  obtain ⟨hsome, hnone⟩ := solve_spec p.normalMatrix p.normalVector
  have hpenalty : ∀ i, 0 < p.penalty i := fun i => mul_pos hridge (p.scaleOf_pos i)
  rw [refit_eq hs]
  cases hsolved : solve (listed p.normalMatrix) (List.ofFn p.normalVector) with
  | none => exact .inl ⟨rfl, hnone.mp hsolved⟩
  | some coef =>
    obtain ⟨c, rfl, hc, -⟩ := hsome coef hsolved
    have hnormal := normal_of_solves hc
    refine .inr ⟨c, rfl, loss_min hnormal fun i => (hpenalty i).le, fun c' => loss_unique hnormal hpenalty,
      fun i hi => eq_prior_of_zero hnormal hi (hpenalty i).ne', fun hexact => ?_⟩
    exact normal_unique (normal_of_exact hexact) hnormal hpenalty

/-- One sample of the intercept alone, half way to a prior of 10 under a ridge of 1. -/
def halfway : TtftPredictor ℚ where
  hasPrior := true
  prior := [10, 0, 0, 0, 0]
  coef := [10, 0, 0, 0, 0]
  samples := [([1, 0, 0, 0, 0], 20)]
  window := 1
  refitEvery := 1
  ridge := 1
  clipMs := none
  sinceFit := 0

theorem refit_ridge_halfway : halfway.refit.coef = [15, 0, 0, 0, 0] ∧
    ∃ c : Fin featureCount → ℚ, halfway.refit = { halfway with coef := List.ofFn c } ∧
      ∀ c', halfway.objective c ≤ halfway.objective c' := by
  have hcoef : halfway.refit.coef = [15, 0, 0, 0, 0] := by decide +kernel
  refine ⟨hcoef, ?_⟩
  rcases refit_ridge halfway (by simp [halfway]) (by norm_num [halfway]) with ⟨hsame, -⟩ | ⟨c, hc, hmin, -⟩
  · have hkept : halfway.coef ≠ [15, 0, 0, 0, 0] := by decide +kernel
    exact absurd (hsame ▸ hcoef) hkept
  · exact ⟨c, hc, hmin⟩

end TtftPredictor
end CanaTune

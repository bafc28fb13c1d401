import CanaTune.Theorems.Ridge
import CanaTune.Domain.Models
import CanaTune.Lib.Sorted

/-! The length model is a least-squares line over the first column set that gives one with non-negative slopes, lifted so
    that the 95th percentile of the points lies below it. -/

namespace CanaTune
open LeastSquares
variable {K : Type} [Scalar K] {points : List (K × K × K)} {cols : List ℕ}

/-! ### The normal equations -/

/-- The features of a point in a column set: the intercept and the columns. -/
def columnFeatures (cols : List ℕ) (p : K × K × K) (i : Fin (cols.length + 1)) : K :=
  (1 :: cols.map (pointColumn p)).getD i 0

theorem solveColumns_eq (points : List (K × K × K)) (cols : List ℕ) :
    solveColumns points cols = solve (listed (gram points (columnFeatures cols)))
      (List.ofFn (moment points (columnFeatures cols) (·.2.2))) := by
  have hmatrix : listed (gram points (columnFeatures cols)) = (List.range (cols.length + 1)).map fun i =>
      (List.range (cols.length + 1)).map fun j => ((points.map fun p => 1 :: cols.map (pointColumn p)).map
        fun r => r.getD i 0 * r.getD j 0).sum := by
    rw [listed_range]
    congr 1
    funext i j
    rw [List.map_map]
    rfl
  have hvector : List.ofFn (moment points (columnFeatures cols) (·.2.2)) = (List.range (cols.length + 1)).map fun i =>
      (((points.map fun p => 1 :: cols.map (pointColumn p)).zip points).map fun e => e.1.getD i 0 * e.2.2.2).sum := by
    rw [map_range]
    congr 1
    funext i
    have hzip : (points.map fun p => 1 :: cols.map (pointColumn p)).zip points
        = points.map fun p => (1 :: cols.map (pointColumn p), p) := by
      rw [List.zip_map_left, List.zip, List.zipWith_self, List.map_map]
      rfl
    rw [hzip, List.map_map]
    rfl
  rw [hmatrix, hvector]
  rfl

/-- What `_solve` returns is a vector of the column set's size that solves its normal equations. -/
theorem solveColumns_normal {solution : List K} (h : solveColumns points cols = some solution) :
    ∃ w : Fin (cols.length + 1) → K, solution = List.ofFn w ∧
      Normal points (columnFeatures cols) (·.2.2) 0 0 w := by
  rw [solveColumns_eq] at h
  obtain ⟨hsome, -⟩ := solve_spec (gram points (columnFeatures cols)) (moment points (columnFeatures cols) (·.2.2))
  obtain ⟨w, rfl, hw, -⟩ := hsome solution h
  refine ⟨w, rfl, fun i => ?_⟩
  have hi : ∑ j, gram points (columnFeatures cols) i j * w j = moment points (columnFeatures cols) (·.2.2) i :=
    congrFun hw i
  rw [hi]
  simp

/-! ### Lines -/

/-- The squared errors of a line on the points. -/
def squares (points : List (K × K × K)) (alpha beta gamma : K) : K :=
  (points.map fun p => (p.2.2 - (alpha + beta * p.1 + gamma * p.2.1)) ^ 2).sum

/-- The slopes of columns that are not fitted are 0. -/
def Within (cols : List ℕ) (beta gamma : K) : Prop := (0 ∉ cols → beta = 0) ∧ (1 ∉ cols → gamma = 0)

/-- The components of a line in a column set. -/
def lineVector (cols : List ℕ) (alpha beta gamma : K) (i : Fin (cols.length + 1)) : K :=
  (alpha :: cols.map fun c => if c = 0 then beta else gamma).getD i 0

theorem linear_lineVector (hcols : cols ∈ columnSets) {alpha beta gamma : K} (h : Within cols beta gamma)
    (p : K × K × K) :
    linear (lineVector cols alpha beta gamma) (columnFeatures cols p) = alpha + beta * p.1 + gamma * p.2.1 := by
  obtain ⟨hbeta, hgamma⟩ := h
  simp only [columnSets, List.mem_cons, List.not_mem_nil, or_false] at hcols
  rcases hcols with rfl | rfl | rfl
  · simp [linear, lineVector, columnFeatures, pointColumn, Fin.sum_univ_succ]
    ring
  · have hzero := hgamma (by simp)
    simp [linear, lineVector, columnFeatures, pointColumn, Fin.sum_univ_succ, hzero]
  · have hzero := hbeta (by simp)
    simp [linear, lineVector, columnFeatures, pointColumn, Fin.sum_univ_succ, hzero]

theorem loss_lineVector (hcols : cols ∈ columnSets) {alpha beta gamma : K} (h : Within cols beta gamma) :
    loss points (columnFeatures cols) (·.2.2) 0 0 (lineVector cols alpha beta gamma)
      = squares points alpha beta gamma := by
  rw [loss, squares]
  simp only [linear_lineVector hcols h, Pi.zero_apply, zero_mul, Finset.sum_const_zero, add_zero]

/-- The solution of a column set as a line. -/
theorem lineVector_solution (hcols : cols ∈ columnSets) (w : Fin (cols.length + 1) → K) :
    let slopes := cols.zip (List.ofFn w).tail
    lineVector cols ((List.ofFn w).getD 0 0) ((slopes.lookup 0).getD 0) ((slopes.lookup 1).getD 0) = w ∧
      Within cols ((slopes.lookup 0).getD 0) ((slopes.lookup 1).getD 0) := by
  simp only [columnSets, List.mem_cons, List.not_mem_nil, or_false] at hcols
  rcases hcols with rfl | rfl | rfl
  · refine ⟨?_, by simp [Within]⟩
    funext i
    fin_cases i <;> simp [lineVector, List.lookup]
  · refine ⟨?_, by simp [Within, List.lookup]⟩
    funext i
    fin_cases i <;> simp [lineVector, List.lookup]
  · refine ⟨?_, by simp [Within, List.lookup]⟩
    funext i
    fin_cases i <;> simp [lineVector, List.lookup]

theorem lookup_slope_nonneg {slopes : List K} (h : ∀ c ∈ slopes, 0 ≤ c) (c : ℕ) :
    0 ≤ ((cols.zip slopes).lookup c).getD 0 := by
  cases hfound : (cols.zip slopes).lookup c with
  | none => exact le_rfl
  | some slope =>
    obtain ⟨before, after, hsplit, -⟩ := List.lookup_eq_some_iff.mp hfound
    have hmem : (c, slope) ∈ cols.zip slopes := by rw [hsplit]; simp
    exact h slope (List.of_mem_zip hmem).2

/-! ### The percentile -/

theorem p95Index_eq {n : ℕ} (hn : 1 ≤ n) :
    (p95Index K n : ℤ) = ⌊(95 / 100 * ((n : K) - 1) + 1 / 2 : K)⌋ ∧ p95Index K n < n := by
  have hn' : (1 : K) ≤ n := by exact_mod_cast hn
  have hpos : (0 : K) ≤ 95 / 100 * ((n : K) - 1) + 1 / 2 := by linarith
  have hfloor : (0 : ℤ) ≤ ⌊(95 / 100 * ((n : K) - 1) + 1 / 2 : K)⌋ := Int.floor_nonneg.mpr hpos
  have hlt : ⌊(95 / 100 * ((n : K) - 1) + 1 / 2 : K)⌋ < (n : ℤ) := by
    rw [Int.floor_lt]
    push_cast
    linarith
  rw [p95Index, Scalar.toInt, if_pos hpos]
  omega

theorem mem_residuals_count (points : List (K × K × K)) (alpha beta gamma bound : K) :
    (residuals points alpha beta gamma).countP (fun x => decide (x ≤ bound))
      = points.countP fun p => decide (p.2.2 - (alpha + beta * p.1 + gamma * p.2.1) ≤ bound) := by
  rw [residuals, (List.perm_insertionSort _ _).countP_eq, List.countP_map]
  rfl

theorem p95_count (hn : 1 ≤ points.length) (coef : DecodeCoef K)
    (h : (residuals points coef.alpha coef.beta coef.gamma).getD (p95Index K points.length) 0 ≤ coef.r95) :
    ⌊(95 / 100 * ((points.length : K) - 1) + 1 / 2 : K)⌋ + 1
      ≤ points.countP fun p => decide (p.2.2 ≤ decodeTpot coef p.1 p.2.1) := by
  obtain ⟨hindex, hlt⟩ := p95Index_eq (K := K) hn
  have hlength : (residuals points coef.alpha coef.beta coef.gamma).length = points.length := by
    rw [residuals, List.length_insertionSort, List.length_map]
  have hi : p95Index K points.length < (residuals points coef.alpha coef.beta coef.gamma).length := hlength.symm ▸ hlt
  have hsorted : (residuals points coef.alpha coef.beta coef.gamma).Pairwise (· ≤ ·) :=
    List.pairwise_insertionSort _ _
  have hcount := lt_countP_sorted hsorted hi
  rw [← List.getD_eq_getElem _ 0 hi, mem_residuals_count] at hcount
  have hmono : (points.countP fun p => decide (p.2.2 - (coef.alpha + coef.beta * p.1 + coef.gamma * p.2.1)
      ≤ (residuals points coef.alpha coef.beta coef.gamma).getD (p95Index K points.length) 0))
      ≤ points.countP fun p => decide (p.2.2 ≤ decodeTpot coef p.1 p.2.1) := by
    refine List.countP_mono_left fun p _ hp => ?_
    rw [decide_eq_true_eq] at hp ⊢
    rw [decodeTpot]
    linarith
  omega

/-! ### The fit -/

/-- The normal equations of a column set are solved with non-negative slopes. -/
def SolvedUpward (points : List (K × K × K)) (cols : List ℕ) : Prop :=
  ∃ solution, solveColumns points cols = some solution ∧ ∀ c ∈ solution.tail, 0 ≤ c

theorem fitColumns_isSome : (fitColumns points cols).isSome ↔ SolvedUpward points cols := by
  unfold fitColumns SolvedUpward
  cases solveColumns points cols with
  | none => simp
  | some solution =>
    simp only [Option.bind_eq_bind, Option.bind_some, Option.some.injEq, exists_eq_left']
    split_ifs with hneg
    · rw [List.any_eq_true] at hneg
      obtain ⟨c, hc, hlt⟩ := hneg
      simp only [Option.isSome_none, Bool.false_eq_true, false_iff, not_forall]
      exact ⟨c, hc, (of_decide_eq_true hlt).not_ge⟩
    · simp only [List.any_eq_true, decide_eq_true_eq, not_exists, not_and, not_lt] at hneg
      simpa using hneg

/-- A line of non-negative slopes that is a least-squares optimum among those of the column set. -/
theorem fitColumns_spec (hcols : cols ∈ columnSets) {coef : DecodeCoef K} (h : fitColumns points cols = some coef) :
    0 ≤ coef.beta ∧ 0 ≤ coef.gamma ∧ Within cols coef.beta coef.gamma ∧
      (∀ a b c, Within cols b c → squares points coef.alpha coef.beta coef.gamma ≤ squares points a b c) ∧
      coef.r95 = max 0 ((residuals points coef.alpha coef.beta coef.gamma).getD (p95Index K points.length) 0) := by
  have hup : SolvedUpward points cols := fitColumns_isSome.mp (h ▸ rfl)
  obtain ⟨solution, hsolution, hslopes⟩ := hup
  have hany : ¬solution.tail.any (· < 0) := by
    rw [List.any_eq_true]
    rintro ⟨c, hc, hlt⟩
    exact (hslopes c hc).not_gt (of_decide_eq_true hlt)
  rw [fitColumns, hsolution] at h
  simp only [Option.bind_eq_bind, Option.bind_some, if_neg hany, Option.some.injEq] at h
  obtain ⟨w, rfl, hnormal⟩ := solveColumns_normal hsolution
  obtain ⟨hvector, hwithin⟩ := lineVector_solution hcols w
  subst h
  refine ⟨lookup_slope_nonneg hslopes 0, lookup_slope_nonneg hslopes 1, hwithin, fun a b c hline => ?_, rfl⟩
  rw [← loss_lineVector hcols hwithin, ← loss_lineVector hcols hline, hvector]
  exact loss_min hnormal (fun _ => le_rfl) _

/-- The length-model fit is an optimal, monotone, p95-bounding model. -/
theorem fitDecodeLength_spec {coef : DecodeCoef K} (h : fitDecodeLength points = some coef) :
    (0 ≤ coef.beta ∧ 0 ≤ coef.gamma ∧ 0 ≤ coef.r95) ∧
      (∃ before cols after, columnSets = before ++ cols :: after ∧
        (∀ c ∈ before, ¬SolvedUpward points c) ∧ SolvedUpward points cols ∧ Within cols coef.beta coef.gamma ∧
        ∀ a b c, Within cols b c → squares points coef.alpha coef.beta coef.gamma ≤ squares points a b c) ∧
      ⌊(95 / 100 * ((points.length : K) - 1) + 1 / 2 : K)⌋ + 1
        ≤ points.countP (fun p => decide (p.2.2 ≤ decodeTpot coef p.1 p.2.1)) ∧
      ∀ running running' kv kv', running ≤ running' → kv ≤ kv' →
        decodeTpot coef running kv ≤ decodeTpot coef running' kv' := by
  rw [fitDecodeLength] at h
  split_ifs at h with hshort
  obtain ⟨before, cols, after, hsplit, hfit, hbefore⟩ := List.findSome?_eq_some_iff.mp h
  -- The first set of columns whose solution has no negative slope, at its place in the list.
  have hcols : cols ∈ columnSets := by rw [hsplit]; simp
  obtain ⟨hbeta, hgamma, hwithin, hmin, hr95⟩ := fitColumns_spec hcols hfit
  refine ⟨⟨hbeta, hgamma, hr95 ▸ le_max_left _ _⟩, ⟨before, cols, after, hsplit, fun c hc hup => ?_,
    fitColumns_isSome.mp (hfit ▸ rfl), hwithin, hmin⟩, ?_, fun X X' kv kv' hX hkv => ?_⟩
  · have hsome := fitColumns_isSome.mpr hup
    rw [hbefore c hc] at hsome
    exact absurd hsome (by simp)
  · exact p95_count (by omega) coef (hr95 ▸ le_max_right _ _)
  · have hx := mul_le_mul_of_nonneg_left hX hbeta
    have hk := mul_le_mul_of_nonneg_left hkv hgamma
    rw [decodeTpot, decodeTpot]
    linarith

/-- Points on a line in the running sequences alone, 10 + X, but for one stall. -/
def stalledPoints : List (ℚ × ℚ × ℚ) := [(1, 0, 11), (2, 0, 12), (3, 0, 13), (4, 0, 20)]

/-- Without spread in the KV tokens the fit falls through to the running sequences. -/
theorem fitDecodeLength_spec_stalled : ∃ coef, fitDecodeLength stalledPoints = some coef ∧ coef.gamma = 0 ∧
    0 ≤ coef.beta ∧ ∀ running running' kv kv', running ≤ running' → kv ≤ kv' →
      decodeTpot coef running kv ≤ decodeTpot coef running' kv' := by
  have hsome : (fitDecodeLength stalledPoints).any fun coef => decide (coef.gamma = 0) := by decide +kernel
  obtain ⟨coef, hcoef, hgamma⟩ := Option.any_eq_true _ _ |>.mp hsome
  obtain ⟨⟨hbeta, -⟩, -, -, hmono⟩ := fitDecodeLength_spec hcoef
  exact ⟨coef, hcoef, of_decide_eq_true hgamma, hbeta, hmono⟩

end CanaTune

import Mathlib

/-! Gauss-Jordan elimination over a field, one pivot at a time. A table of `n` rows is a function of row and column, of
    which only the first `n` rows count. Swapping two rows and reducing the others by the pivot's keeps the vectors that
    every row sends to zero, and after the last column only the diagonal is left. -/

namespace CanaTune.Elimination
variable {K : Type*} [Field K]

/-- Row `r` applied to a vector of `w` components. -/
def apply (w : ℕ) (a : ℕ → ℕ → K) (x : ℕ → K) (r : ℕ) : K := ∑ j ∈ Finset.range w, a r j * x j

/-- Every row sends `x` to zero. -/
def Kills (n w : ℕ) (a : ℕ → ℕ → K) (x : ℕ → K) : Prop := ∀ r < n, apply w a x r = 0

/-- Row `pivot` brought to row `col`, every other row reduced by it. -/
def pivoted (a : ℕ → ℕ → K) (col pivot : ℕ) (r j : ℕ) : K :=
  if r = col then a pivot j
  else a (Equiv.swap col pivot r) j - a (Equiv.swap col pivot r) col / a pivot col * a pivot j

/-- The first `k` columns hold their pivot on the diagonal and nothing else. -/
def Cleared (n k : ℕ) (a : ℕ → ℕ → K) : Prop := ∀ c < k, a c c ≠ 0 ∧ ∀ r < n, r ≠ c → a r c = 0

variable {n w k : ℕ} {a b : ℕ → ℕ → K} {x y : ℕ → K}

/-! ### Solutions -/

theorem apply_congr {r : ℕ} (h : ∀ j < w, a r j = b r j) (hx : ∀ j < w, x j = y j) : apply w a x r = apply w b y r := by
  refine Finset.sum_congr rfl fun j hj => ?_
  rw [h j (Finset.mem_range.mp hj), hx j (Finset.mem_range.mp hj)]

theorem Kills.congr (h : ∀ r < n, ∀ j < w, a r j = b r j) : Kills n w a x ↔ Kills n w b x := by
  constructor
  · intro ha r hr
    rw [← apply_congr (h r hr) fun _ _ => rfl]
    exact ha r hr
  · intro hb r hr
    rw [apply_congr (h r hr) fun _ _ => rfl]
    exact hb r hr

theorem apply_sub (f : K) (p q : ℕ → K) :
    (∑ j ∈ Finset.range w, (p j - f * q j) * x j)
      = (∑ j ∈ Finset.range w, p j * x j) - f * ∑ j ∈ Finset.range w, q j * x j := by
  rw [Finset.mul_sum, ← Finset.sum_sub_distrib]
  refine Finset.sum_congr rfl fun j _ => ?_
  ring

theorem apply_pivoted_col {col pivot : ℕ} : apply w (pivoted a col pivot) x col = apply w a x pivot := by
  simp only [apply, pivoted, if_pos]

theorem apply_pivoted {col pivot r : ℕ} (hr : r ≠ col) :
    apply w (pivoted a col pivot) x r = apply w a x (Equiv.swap col pivot r)
      - a (Equiv.swap col pivot r) col / a pivot col * apply w a x pivot := by
  simp only [apply, pivoted, if_neg hr]
  exact apply_sub _ _ _

theorem swap_lt {col pivot r : ℕ} (hcol : col < n) (hpivot : pivot < n) (hr : r < n) : Equiv.swap col pivot r < n := by
  rw [Equiv.swap_apply_def]
  split_ifs <;> assumption

/-- One step of the elimination keeps what the rows send to zero. -/
theorem kills_pivoted {col pivot : ℕ} (hcol : col < n) (hpivot : pivot < n) :
    Kills n w (pivoted a col pivot) x ↔ Kills n w a x := by
  constructor
  · intro h r hr
    have htop : apply w a x pivot = 0 := by
      have hcol' : apply w (pivoted a col pivot) x col = 0 := h col hcol
      rwa [apply_pivoted_col] at hcol'
    rcases eq_or_ne (Equiv.swap col pivot r) col with heq | hne
    · have hrp : r = pivot := by
        rw [← Equiv.swap_apply_self col pivot r, heq, Equiv.swap_apply_left]
      rw [hrp, htop]
    · have hrow := h _ (swap_lt hcol hpivot hr)
      rwa [apply_pivoted hne, Equiv.swap_apply_self, htop, mul_zero, sub_zero] at hrow
  · intro h r hr
    rcases eq_or_ne r col with rfl | hne
    · rw [apply_pivoted_col]
      exact h pivot hpivot
    · rw [apply_pivoted hne, h pivot hpivot, h _ (swap_lt hcol hpivot hr), mul_zero, sub_zero]

/-! ### Pivots -/

theorem Cleared.congr (hk : k ≤ w) (hkn : k ≤ n) (h : ∀ r < n, ∀ j < w, a r j = b r j) (ha : Cleared n k a) :
    Cleared n k b := by
  intro c hc
  obtain ⟨hdiag, hrest⟩ := ha c hc
  refine ⟨h c (hc.trans_le hkn) c (hc.trans_le hk) ▸ hdiag, fun r hr hne => ?_⟩
  rw [← h r hr c (hc.trans_le hk)]
  exact hrest r hr hne

/-- A step whose pivot is not zero clears one more column and keeps the columns before it. -/
theorem Cleared.pivoted {col pivot : ℕ} (h : Cleared n col a) (hle : col ≤ pivot) (hpivot : pivot < n)
    (hne : a pivot col ≠ 0) : Cleared n (col + 1) (pivoted a col pivot) := by
  intro c hc
  rcases (Nat.lt_succ_iff.mp hc).eq_or_lt with rfl | hlt
  · refine ⟨?_, fun r _ hr => ?_⟩
    · rwa [Elimination.pivoted, if_pos rfl]
    · rw [Elimination.pivoted, if_neg hr, div_mul_cancel₀ _ hne, sub_self]
  · obtain ⟨hdiag, hrest⟩ := h c hlt
    -- An earlier column is zero at the pivot row, so subtracting that row leaves the column as it is.
    have htop : a pivot c = 0 := hrest pivot hpivot (hlt.trans_le hle).ne'
    refine ⟨?_, fun r hr hrc => ?_⟩
    · rw [Elimination.pivoted, if_neg hlt.ne, htop, mul_zero, sub_zero,
        Equiv.swap_apply_of_ne_of_ne hlt.ne (hlt.trans_le hle).ne]
      exact hdiag
    · rw [Elimination.pivoted]
      split_ifs with hcol
      · exact htop
      have hswap : Equiv.swap col pivot r ≠ c := by
        intro heq
        apply hrc
        rw [← Equiv.swap_apply_self col pivot r, heq,
          Equiv.swap_apply_of_ne_of_ne hlt.ne (hlt.trans_le hle).ne]
      rw [htop, mul_zero, sub_zero]
      exact hrest _ (swap_lt (hle.trans_lt hpivot) hpivot hr) hswap

/-- With every column cleared, each row reads one component and the right-hand side. -/
theorem Cleared.apply (h : Cleared n n a) {r : ℕ} (hr : r < n) :
    Elimination.apply (n + 1) a x r = a r r * x r + a r n * x n := by
  rw [Elimination.apply, Finset.sum_range_succ]
  congr 1
  refine Finset.sum_eq_single_of_mem r (Finset.mem_range.mpr hr) fun c hc hne => ?_
  rw [(h c (Finset.mem_range.mp hc)).2 r hr hne.symm, zero_mul]

/-! ### The system behind the table -/

/-- The coefficients of the first `n` columns. -/
def coefficients (n : ℕ) (a : ℕ → ℕ → K) : Matrix (Fin n) (Fin n) K := fun i j => a i j

/-- A vector followed by one more component. -/
def extended (v : Fin n → K) (last : K) (j : ℕ) : K := if h : j < n then v ⟨j, h⟩ else last

omit [Field K] in
theorem extended_lt (v : Fin n → K) (last : K) (i : Fin n) : extended v last i = v i := by
  rw [extended, dif_pos i.2]

omit [Field K] in
theorem extended_last (v : Fin n → K) (last : K) : extended v last n = last := by
  rw [extended, dif_neg (lt_irrefl n)]

theorem apply_extended (v : Fin n → K) (last : K) (i : Fin n) :
    Elimination.apply (n + 1) a (extended v last) i = (coefficients n a).mulVec v i + a i n * last := by
  rw [Elimination.apply, Finset.sum_range_succ, extended_last, Finset.sum_range]
  simp only [extended_lt, Matrix.mulVec, dotProduct, coefficients]

/-- The rows send `(v, -1)` to zero exactly when `v` solves the system. -/
theorem kills_extended (v : Fin n → K) (last : K) :
    Kills n (n + 1) a (extended v last) ↔ (coefficients n a).mulVec v = fun i : Fin n => -(a i n * last) := by
  constructor
  · intro h
    funext i
    have hi := h i i.2
    rw [apply_extended] at hi
    exact eq_neg_of_add_eq_zero_left hi
  · intro h r hr
    have hr' : Elimination.apply (n + 1) a (extended v last) r = _ := apply_extended v last ⟨r, hr⟩
    rw [hr', h]
    exact neg_add_cancel _

/-- A cleared table whose rows kill the same vectors as `a`'s gives the one solution of `a`'s system, which is
    invertible. -/
theorem solved_of_cleared (h : Cleared n n b) (hsame : ∀ x, Kills n (n + 1) b x ↔ Kills n (n + 1) a x) :
    (coefficients n a).mulVec (fun i => b i n / b i i) = (fun i : Fin n => a i n) ∧ IsUnit (coefficients n a) := by
  constructor
  · have hb : Kills n (n + 1) b (extended (fun i : Fin n => b i n / b i i) (-1)) := by
      intro r hr
      rw [h.apply hr, extended_last, extended_lt _ _ ⟨r, hr⟩, mul_div_cancel₀ _ (h r hr).1]
      ring
    rw [(kills_extended _ _).mp ((hsame _).mp hb)]
    funext i
    ring
  · rw [Matrix.isUnit_iff_isUnit_det, isUnit_iff_ne_zero]
    intro hdet
    -- A vector in the kernel would be killed by the cleared rows, which read its entries off the diagonal.
    obtain ⟨v, hv, hzero⟩ := Matrix.exists_mulVec_eq_zero_iff.mpr hdet
    apply hv
    have hkilled : Kills n (n + 1) b (extended v 0) := by
      rw [hsame, kills_extended, hzero]
      funext i
      simp
    funext i
    have hi := hkilled i i.2
    rw [h.apply i.2, extended_last, extended_lt, mul_zero, add_zero] at hi
    exact (mul_eq_zero.mp hi).resolve_left (h i i.2).1

end CanaTune.Elimination

import CanaTune.Domain.Elimination
import CanaTune.Lib.Elimination

/-! `_solve` is sound: what it returns solves the system, which is then invertible; it gives up only at a column where
    every candidate is below the bound. -/

namespace CanaTune
open Elimination (Kills Cleared pivoted coefficients)
variable {K : Type} [Scalar K]

/-! ### Tables -/

/-- `n` rows of a square matrix with its right-hand side. -/
structure Augmented (n : ℕ) (m : List (List K)) : Prop where
  rows : m.length = n
  width : ∀ row ∈ m, row.length = n + 1

section Entries
variable {n col pivot r j : ℕ} {m : List (List K)}

omit [Scalar K] in
theorem Augmented.row_length (hm : Augmented n m) (hr : r < n) : (m.getD r []).length = n + 1 := by
  have hr' : r < m.length := hm.rows.symm ▸ hr
  rw [List.getD_eq_getElem m [] hr']
  exact hm.width _ (List.getElem_mem hr')

/-- Two rows of a table exchanged. -/
def exchanged (m : List (List K)) (col pivot : ℕ) : List (List K) :=
  (m.set col (m.getD pivot [])).set pivot (m.getD col [])

omit [Scalar K] in
theorem exchanged_row (hm : Augmented n m) (hcol : col < n) (hpivot : pivot < n) (r : ℕ) :
    (exchanged m col pivot).getD r [] = m.getD (Equiv.swap col pivot r) [] := by
  have hcol' : col < m.length := hm.rows.symm ▸ hcol
  have hpivot' : pivot < m.length := hm.rows.symm ▸ hpivot
  simp only [exchanged, List.getD_eq_getElem?_getD, List.getElem?_set, List.length_set]
  rcases eq_or_ne pivot r with rfl | hp
  · rw [if_pos rfl, if_pos hpivot', Equiv.swap_apply_right, Option.getD_some]
  rw [if_neg hp]
  rcases eq_or_ne col r with rfl | hc
  · rw [if_pos rfl, if_pos hcol', Equiv.swap_apply_left, Option.getD_some]
  · rw [if_neg hc, Equiv.swap_apply_of_ne_of_ne hc.symm hp.symm]

omit [Scalar K] in
theorem Augmented.exchanged (hm : Augmented n m) (hcol : col < n) (hpivot : pivot < n) :
    Augmented n (exchanged m col pivot) := by
  refine ⟨by simp [CanaTune.exchanged, hm.rows], fun row hrow => ?_⟩
  obtain ⟨r, hr, rfl⟩ := List.mem_iff_getElem.mp hrow
  have hr' : r < n := by simpa [CanaTune.exchanged, hm.rows] using hr
  rw [← List.getD_eq_getElem _ [] hr, exchanged_row hm hcol hpivot]
  exact hm.row_length (Elimination.swap_lt hcol hpivot hr')

/-- Row `r` reduced by row `col`. -/
def reducedRow (m : List (List K)) (col r : ℕ) : List K :=
  (m.getD r []).zipWith (fun a b => a - entry m r col / entry m col col * b) (m.getD col [])

theorem reducedRow_length (hm : Augmented n m) (hcol : col < n) (hr : r < n) :
    (reducedRow m col r).length = n + 1 := by
  rw [reducedRow, List.length_zipWith, hm.row_length hr, hm.row_length hcol, min_self]

theorem reducedRow_getD (hm : Augmented n m) (hcol : col < n) (hr : r < n) (hj : j < n + 1) :
    (reducedRow m col r).getD j 0 = entry m r j - entry m r col / entry m col col * entry m col j := by
  have hj' : j < (reducedRow m col r).length := (reducedRow_length hm hcol hr).symm ▸ hj
  rw [List.getD_eq_getElem _ 0 hj']
  have hrow : j < (m.getD r []).length := (hm.row_length hr).symm ▸ hj
  have htop : j < (m.getD col []).length := (hm.row_length hcol).symm ▸ hj
  have hr0 : entry m r j = (m.getD r [])[j] := List.getD_eq_getElem _ 0 hrow
  have hc0 : entry m col j = (m.getD col [])[j] := List.getD_eq_getElem _ 0 htop
  simp only [reducedRow, List.getElem_zipWith, hr0, hc0]

/-- Every row but `col` reduced by it. -/
def reduced (m : List (List K)) (col : ℕ) : List (List K) :=
  m.mapIdx fun r row => if r = col then row
    else row.zipWith (fun a b => a - entry m r col / entry m col col * b) (m.getD col [])

theorem reduced_row (hr : r < m.length) :
    (reduced m col).getD r [] = if r = col then m.getD r [] else reducedRow m col r := by
  have hr' : r < (reduced m col).length := by simpa [reduced] using hr
  rw [List.getD_eq_getElem _ _ hr']
  simp only [reduced, List.getElem_mapIdx, reducedRow, List.getD_eq_getElem m [] hr]

theorem Augmented.reduced (hm : Augmented n m) (hcol : col < n) : Augmented n (reduced m col) := by
  refine ⟨by simp [CanaTune.reduced, hm.rows], fun row hrow => ?_⟩
  obtain ⟨r, hr, rfl⟩ := List.mem_iff_getElem.mp hrow
  have hr' : r < m.length := by simpa [CanaTune.reduced] using hr
  rw [← List.getD_eq_getElem _ [] hr, reduced_row hr']
  split_ifs
  · exact hm.row_length (hm.rows ▸ hr')
  · exact reducedRow_length hm hcol (hm.rows ▸ hr')

/-- The code's column step is the elimination step on entries. -/
theorem entry_reduced (hm : Augmented n m) (hcol : col < n) (hpivot : pivot < n) (hr : r < n) (hj : j < n + 1) :
    entry (reduced (exchanged m col pivot) col) r j = pivoted (entry m) col pivot r j := by
  have hex := hm.exchanged hcol hpivot
  have hentry : ∀ r j, entry (exchanged m col pivot) r j = entry m (Equiv.swap col pivot r) j := fun r j => by
    rw [entry, exchanged_row hm hcol hpivot, entry]
  have hr' : r < (exchanged m col pivot).length := hex.rows.symm ▸ hr
  rw [entry, reduced_row hr', pivoted]
  split_ifs with hrc
  · rw [← entry, hentry, hrc, Equiv.swap_apply_left]
  · rw [reducedRow_getD hex hcol hr hj]
    simp only [hentry, Equiv.swap_apply_left]

end Entries

/-! ### One column -/

section Columns
variable {n col : ℕ} {m m' : List (List K)}

/-- The candidates for a pivot are below the bound. -/
def NoPivot (n : ℕ) (m : List (List K)) (col : ℕ) : Prop := ∀ r, col ≤ r → r < n → |entry m r col| < 1 / 10 ^ 12

theorem mem_candidates (hcol : col < n) {r : ℕ} : r ∈ List.range' col (n - col) ↔ col ≤ r ∧ r < n := by
  rw [List.mem_range'_1]
  omega

/-- What a column does: it stops without a pivot, or it takes the largest candidate. -/
inductive ColumnStep (n : ℕ) (m : List (List K)) (col : ℕ) : Option (List (List K)) → Prop
  | stop : NoPivot n m col → ColumnStep n m col none
  | pivot (pivot : ℕ) : (List.range' col (n - col)).argmax (fun r => |entry m r col|) = some pivot →
      col ≤ pivot → pivot < n → 1 / 10 ^ 12 ≤ |entry m pivot col| →
      ColumnStep n m col (some (reduced (exchanged m col pivot) col))

theorem columnStep (hcol : col < n) (m : List (List K)) : ColumnStep n m col (solveColumn n m col) := by
  rw [solveColumn]
  cases hmax : (List.range' col (n - col)).argmax fun r => |entry m r col| with
  | none =>
    rw [List.argmax_eq_none, List.range'_eq_nil_iff] at hmax
    omega
  | some pivot =>
    obtain ⟨hle, hlt⟩ := (mem_candidates hcol).mp (List.argmax_mem hmax)
    rw [Option.bind_eq_bind, Option.bind_some]
    split_ifs with hsmall
    · refine .stop fun r hr hrn => ?_
      have hmem : r ∈ List.range' col (n - col) := (mem_candidates hcol).mpr ⟨hr, hrn⟩
      exact (List.le_of_mem_argmax hmem hmax).trans_lt hsmall
    · exact .pivot pivot hmax hle hlt (not_lt.mp hsmall)

theorem ne_zero_of_pivot {x : K} (h : 1 / 10 ^ 12 ≤ |x|) : x ≠ 0 := by
  have hpos : (0 : K) < 1 / 10 ^ 12 := by positivity
  exact abs_pos.mp (hpos.trans_le h)

theorem not_noPivot {pivot : ℕ} (hle : col ≤ pivot) (hlt : pivot < n) (h : 1 / 10 ^ 12 ≤ |entry m pivot col|) :
    ¬NoPivot n m col := fun hno => (hno pivot hle hlt).not_ge h

/-- The state between two columns: the table has its shape, the columns so far are cleared and the rows kill what those
    of the start kill. -/
structure Reached (n k : ℕ) (start m : List (List K)) : Prop where
  shape : Augmented n m
  cleared : Cleared n k (entry m)
  same : ∀ x, Kills n (n + 1) (entry m) x ↔ Kills n (n + 1) (entry start) x

theorem Reached.start (hm : Augmented n m) : Reached n 0 m m := ⟨hm, nofun, fun _ => Iff.rfl⟩

theorem Reached.step {start : List (List K)} (h : Reached n col start m) {pivot : ℕ} (hle : col ≤ pivot)
    (hlt : pivot < n) (hpivot : 1 / 10 ^ 12 ≤ |entry m pivot col|) :
    Reached n (col + 1) start (reduced (exchanged m col pivot) col) := by
  have hcol : col < n := hle.trans_lt hlt
  have hentry : ∀ r < n, ∀ j < n + 1,
      pivoted (entry m) col pivot r j = entry (reduced (exchanged m col pivot) col) r j :=
    fun r hr j hj => (entry_reduced h.shape hcol hlt hr hj).symm
  refine ⟨(h.shape.exchanged hcol hlt).reduced hcol, ?_, fun x => ?_⟩
  · exact (h.cleared.pivoted hle hlt (ne_zero_of_pivot hpivot)).congr (by omega) hcol hentry
  · rw [← Kills.congr hentry, Elimination.kills_pivoted hcol hlt, h.same]

end Columns

/-! ### The whole elimination -/

section Run
variable {n k : ℕ} {start m : List (List K)}

/-- The table after the first `k` columns. -/
def eliminated (n k : ℕ) (start : List (List K)) : Option (List (List K)) := (List.range k).foldlM (solveColumn n) start

theorem eliminated_succ (n k : ℕ) (start : List (List K)) :
    eliminated n (k + 1) start = (eliminated n k start).bind fun m => solveColumn n m k := by
  rw [eliminated, List.range_succ, List.foldlM_append, ← eliminated]
  cases eliminated n k start with
  | none => rfl
  | some m =>
    simp only [List.foldlM_cons, List.foldlM_nil, Option.bind_eq_bind, Option.bind_some, Option.pure_def]
    cases solveColumn n m k <;> rfl

theorem reached (hstart : Augmented n start) : ∀ {k m}, k ≤ n → eliminated n k start = some m → Reached n k start m := by
  intro k
  induction k with
  | zero =>
    intro m _ h
    obtain rfl : start = m := Option.some.inj h
    exact .start hstart
  | succ k ih =>
    intro m hk h
    rw [eliminated_succ] at h
    obtain ⟨before, hbefore, hstep⟩ := Option.bind_eq_some_iff.mp h
    have hreached := ih (Nat.le_of_succ_le hk) hbefore
    have hcolumn := columnStep hk before
    rw [hstep] at hcolumn
    cases hcolumn with
    | pivot pivot _ hle hlt hpivot => exact hreached.step hle hlt hpivot

/-- The elimination stops at the first column without a pivot. -/
theorem eliminated_none : ∀ {k}, k ≤ n →
    (eliminated n k start = none ↔ ∃ col < k, ∃ m, eliminated n col start = some m ∧ NoPivot n m col) := by
  intro k
  induction k with
  | zero =>
    intro _
    constructor
    · exact fun h => absurd h (by simp [eliminated])
    · exact nofun
  | succ k ih =>
    intro hk
    rw [eliminated_succ]
    constructor
    · intro h
      cases hbefore : eliminated n k start with
      | none =>
        obtain ⟨col, hcol, m, hm, hno⟩ := (ih (Nat.le_of_succ_le hk)).mp hbefore
        exact ⟨col, hcol.trans (Nat.lt_succ_self k), m, hm, hno⟩
      | some m =>
        rw [hbefore, Option.bind_some] at h
        have hcolumn := columnStep hk m
        rw [h] at hcolumn
        cases hcolumn with
        | stop hno => exact ⟨k, Nat.lt_succ_self k, m, hbefore, hno⟩
    · rintro ⟨col, hcol, m, hm, hno⟩
      -- A missing pivot in this column stops it here; one in an earlier column stopped it before.
      rcases (Nat.lt_succ_iff.mp hcol).eq_or_lt with rfl | hlt
      · rw [hm, Option.bind_some]
        have hcolumn := columnStep hk m
        generalize solveColumn n m col = next at hcolumn ⊢
        cases hcolumn with
        | stop => rfl
        | pivot pivot _ hle hlt hpivot => exact absurd hno (not_noPivot hle hlt hpivot)
      · rw [(ih (Nat.le_of_succ_le hk)).mpr ⟨col, hlt, m, hm, hno⟩]
        rfl

end Run

/-! ### Row objects -/

namespace RowStore
variable {n col k : ℕ} {s t : RowStore K} {m : List ℕ}

/-- Every reference leads to a row. -/
def Live (s : RowStore K) (m : List ℕ) : Prop := ∀ a ∈ m, a < s.length

omit [Scalar K] in
theorem row_of_extends (h : s <+: t) {a : ℕ} (ha : a < s.length) : t.row a = s.row a := by
  obtain ⟨more, rfl⟩ := h
  exact List.getD_append s more [] a ha

omit [Scalar K] in
theorem table_of_extends (h : s <+: t) (hm : Live s m) : t.table m = s.table m :=
  List.map_congr_left fun a ha => row_of_extends h (hm a ha)

omit [Scalar K] in
theorem Live.made (hm : Live s m) (r : ℕ) (row : List K) : Live (s ++ [row]) (m.set r s.length) := by
  intro a ha
  rw [List.length_append, List.length_singleton]
  rcases List.mem_or_eq_of_mem_set ha with ha | rfl
  · exact (hm a ha).trans (Nat.lt_succ_self _)
  · exact Nat.lt_succ_self _

omit [Scalar K] in
theorem table_made (hm : Live s m) (r : ℕ) (row : List K) :
    (s ++ [row]).table (m.set r s.length) = (s.table m).set r row := by
  have hnew : (s ++ [row]).row s.length = row := by simp [RowStore.row]
  have hold := table_of_extends (List.prefix_append s [row]) hm
  unfold table at hold ⊢
  rw [List.map_set, hnew, hold]

omit [Scalar K] in
theorem table_getD (hr : k < m.length) : (s.table m).getD k [] = s.row (m.getD k 0) := by
  rw [table, List.getD_eq_getElem _ _ (by simpa using hr), List.getD_eq_getElem _ _ hr, List.getElem_map]

omit [Scalar K] in
theorem Live.getD (hm : Live s m) (hr : k < m.length) : m.getD k 0 < s.length := by
  rw [List.getD_eq_getElem _ _ hr]
  exact hm _ (List.getElem_mem hr)

omit [Scalar K] in
theorem exchanged_table (hm : Live s m) {pivot : ℕ} (hcol : col < m.length) (hpivot : pivot < m.length) :
    Live s ((m.set col (m.getD pivot 0)).set pivot (m.getD col 0)) ∧
      s.table ((m.set col (m.getD pivot 0)).set pivot (m.getD col 0)) = exchanged (s.table m) col pivot := by
  constructor
  · intro a ha
    rcases List.mem_or_eq_of_mem_set ha with ha | rfl
    · rcases List.mem_or_eq_of_mem_set ha with ha | rfl
      · exact hm a ha
      · exact hm.getD hpivot
    · exact hm.getD hcol
  · rw [exchanged, table_getD hpivot, table_getD hcol, table, List.map_set, List.map_set, ← table]

/-! ### The inner loop -/

/-- The table while the inner loop has passed the first `k` rows. -/
def reducedTo (T : List (List K)) (col k : ℕ) : List (List K) :=
  T.mapIdx fun r row => if r = col ∨ k ≤ r then row else reducedRow T col r

variable {T : List (List K)}

theorem reducedTo_getD {r : ℕ} (hr : r < T.length) :
    (reducedTo T col k).getD r [] = if r = col ∨ k ≤ r then T.getD r [] else reducedRow T col r := by
  have hr' : r < (reducedTo T col k).length := by simpa [reducedTo] using hr
  rw [List.getD_eq_getElem _ _ hr']
  simp only [reducedTo, List.getElem_mapIdx, List.getD_eq_getElem T [] hr]

theorem reducedTo_length : (reducedTo T col k).length = T.length := List.length_mapIdx

omit [Scalar K] in
theorem eq_of_getD {A B : List (List K)} (hlen : A.length = B.length) (h : ∀ r < A.length, A.getD r [] = B.getD r []) :
    A = B := by
  refine List.ext_getElem hlen fun r ha hb => ?_
  rw [← List.getD_eq_getElem A [] ha, ← List.getD_eq_getElem B [] hb]
  exact h r ha

theorem reducedTo_zero : reducedTo T col 0 = T := by
  refine eq_of_getD reducedTo_length fun r hr => ?_
  rw [reducedTo_length] at hr
  rw [reducedTo_getD hr, if_pos (.inr (Nat.zero_le r))]

theorem reducedTo_all : reducedTo T col T.length = reduced T col := by
  refine eq_of_getD (by simp [reducedTo, reduced]) fun r hr => ?_
  rw [reducedTo_length] at hr
  rw [reducedTo_getD hr, reduced_row hr]
  simp only [hr.not_ge, or_false]

theorem reducedTo_succ_col : reducedTo T col (col + 1) = reducedTo T col col := by
  refine eq_of_getD (reducedTo_length.trans reducedTo_length.symm) fun r hr => ?_
  rw [reducedTo_length] at hr
  have hiff : r = col ∨ col + 1 ≤ r ↔ r = col ∨ col ≤ r := by omega
  rw [reducedTo_getD hr, reducedTo_getD hr]
  simp only [hiff]

theorem reducedTo_succ (hk : k ≠ col) :
    reducedTo T col (k + 1) = (reducedTo T col k).set k (reducedRow T col k) := by
  refine eq_of_getD (by simp [reducedTo]) fun r hr => ?_
  rw [reducedTo_length] at hr
  have hset : ((reducedTo T col k).set k (reducedRow T col k)).getD r []
      = ((if k = r then if k < T.length then some (reducedRow T col k) else none
        else (reducedTo T col k)[r]?) : Option (List K)).getD [] := by
    rw [List.getD_eq_getElem?_getD, List.getElem?_set, reducedTo_length]
  rw [reducedTo_getD hr, hset]
  rcases eq_or_ne k r with rfl | hne
  · rw [if_neg (by omega), if_pos rfl, if_pos hr, Option.getD_some]
  · have hiff : r = col ∨ k + 1 ≤ r ↔ r = col ∨ k ≤ r := by omega
    rw [if_neg hne, ← List.getD_eq_getElem?_getD, reducedTo_getD hr]
    simp only [hiff]

theorem reduceRow_ne (hk : k ≠ col) (hpivot : entry (s.table m) col col ≠ 0) :
    reduceRow col (m, s) k = .ok (m.set k s.length, s ++ [reducedRow (s.table m) col k]) := by
  simp only [reduceRow, if_neg hk, divide, if_neg hpivot]
  rfl

theorem foldlM_snoc {α ε σ : Type} {f : σ → α → Except ε σ} {l : List α} {a : α} {x y : σ}
    (h : l.foldlM f x = .ok y) : (l ++ [a]).foldlM f x = f y a := by
  rw [List.foldlM_append, h]
  simp only [List.foldlM_cons, List.foldlM_nil, bind_pure]
  rfl

/-- The inner loop replaces rows by new objects only, and never divides by zero. -/
theorem reduceRows (hm : Live s m) (hcol : col < m.length) (hpivot : entry (s.table m) col col ≠ 0) :
    ∀ {k}, k ≤ m.length → ∃ m' t, (List.range k).foldlM (reduceRow col) (m, s) = .ok (m', t) ∧ s <+: t ∧ Live t m' ∧
      t.table m' = reducedTo (s.table m) col k := by
  intro k
  induction k with
  | zero =>
    intro _
    exact ⟨m, s, rfl, List.prefix_rfl, hm, reducedTo_zero.symm⟩
  | succ k ih =>
    intro hk
    obtain ⟨m', t, hrun, hext, hlive, htable⟩ := ih (Nat.le_of_succ_le hk)
    have hlen : (s.table m).length = m.length := List.length_map _
    have hrow : (t.table m').getD k [] = (s.table m).getD k [] := by
      rw [htable, reducedTo_getD (hlen.symm ▸ hk), if_pos (.inr le_rfl)]
    have htop : (t.table m').getD col [] = (s.table m).getD col [] := by
      rw [htable, reducedTo_getD (hlen.symm ▸ hcol), if_pos (.inl rfl)]
    have hcorner : entry (t.table m') col col ≠ 0 := by rwa [entry, htop]
    rw [List.range_succ, foldlM_snoc hrun]
    rcases eq_or_ne k col with rfl | hne
    · refine ⟨m', t, ?_, hext, hlive, htable.trans reducedTo_succ_col.symm⟩
      simp only [reduceRow, if_pos]
      rfl
    · have hnew : reducedRow (t.table m') col k = reducedRow (s.table m) col k := by
        simp only [reducedRow, entry, hrow, htop]
      refine ⟨_, _, reduceRow_ne hne hcorner, hext.trans (List.prefix_append _ _), hlive.made k _, ?_⟩
      rw [table_made hlive, hnew, htable, reducedTo_succ hne]

/-! ### The outer loop -/

/-- With row objects the outer loop comes to the same table, and leaves every row there was. -/
theorem eliminate_eq : ∀ {cols : List ℕ} {m : List ℕ} {s : RowStore K}, (∀ c ∈ cols, c < n) → Live s m →
    Augmented n (s.table m) → ∃ r t, eliminate n cols (m, s) = .ok (r, t) ∧ s <+: t ∧
      r.map t.table = cols.foldlM (solveColumn n) (s.table m) := by
  intro cols
  induction cols with
  | nil =>
    intro m s _ _ _
    exact ⟨some m, s, rfl, List.prefix_rfl, rfl⟩
  | cons col cols ih =>
    intro m s hcols hm hshape
    have hcol : col < n := hcols col List.mem_cons_self
    have hlen : m.length = n := by
      rw [← hshape.rows]
      exact (List.length_map _).symm
    -- A column stops both runs at once, or both exchange the same rows and reduce by the same pivot.
    have hcolumn := columnStep hcol (s.table m)
    rw [List.foldlM_cons]
    generalize hnext : solveColumn n (s.table m) col = next at hcolumn ⊢
    cases hcolumn with
    | stop hno =>
      refine ⟨none, s, ?_, List.prefix_rfl, rfl⟩
      rw [eliminate]
      split
      · rfl
      case h_2 pivot hmax =>
        obtain ⟨hle, hlt⟩ := (mem_candidates hcol).mp (List.argmax_mem hmax)
        rw [if_pos (hno pivot hle hlt)]
    | pivot pivot hmax hle hlt hpivot =>
      obtain ⟨hlive, htable⟩ := exchanged_table hm (hlen.symm ▸ hcol) (hlen.symm ▸ hlt)
      have hcorner : entry (exchanged (s.table m) col pivot) col col ≠ 0 := by
        rw [entry, exchanged_row hshape hcol hlt, Equiv.swap_apply_left]
        exact ne_zero_of_pivot hpivot
      have hswapped : ((m.set col (m.getD pivot 0)).set pivot (m.getD col 0)).length = n := by
        rw [List.length_set, List.length_set, hlen]
      obtain ⟨m', t, hrun, hext, hlive', htable'⟩ := reduceRows hlive (hswapped.symm ▸ hcol) (htable.symm ▸ hcorner)
        le_rfl
      have hex := hshape.exchanged hcol hlt
      rw [htable, hswapped, (congrArg _ hex.rows.symm).trans reducedTo_all] at htable'
      obtain ⟨r, u, helim, hext', hresult⟩ := ih (m := m') (s := t)
        (fun c hc => hcols c (List.mem_cons_of_mem _ hc)) hlive' (htable'.symm ▸ hex.reduced hcol)
      refine ⟨r, u, ?_, hext.trans hext', ?_⟩
      · rw [eliminate, hmax]
        simp only [if_neg hpivot.not_gt]
        rw [hswapped] at hrun
        rw [hrun]
        exact helim
      · rw [hresult, htable']
        rfl

omit [Scalar K] in
theorem augment_eq : ∀ {pairs : List (ℕ × K)} {s : RowStore K}, (∀ e ∈ pairs, e.1 < s.length) →
    s <+: (s.augment pairs).2 ∧ Live (s.augment pairs).2 (s.augment pairs).1 ∧
      (s.augment pairs).2.table (s.augment pairs).1 = pairs.map fun e => s.row e.1 ++ [e.2] := by
  intro pairs
  induction pairs with
  | nil =>
    intro s _
    exact ⟨List.prefix_rfl, nofun, rfl⟩
  | cons e pairs ih =>
    intro s h
    have hnew : s <+: s ++ [s.row e.1 ++ [e.2]] := List.prefix_append _ _
    obtain ⟨hext, hlive, htable⟩ := ih (s := s ++ [s.row e.1 ++ [e.2]]) fun e' he' =>
      (h e' (List.mem_cons_of_mem _ he')).trans_le hnew.length_le
    have hlast : s.length < (s ++ [s.row e.1 ++ [e.2]]).length := by simp
    refine ⟨hnew.trans hext, fun a ha => ?_, ?_⟩
    · rcases List.mem_cons.mp ha with rfl | ha
      · exact hlast.trans_le hext.length_le
      · exact hlive a ha
    · have hrow : (s ++ [s.row e.1 ++ [e.2]]).row s.length = s.row e.1 ++ [e.2] := by simp [RowStore.row]
      rw [augment, table, List.map_cons, row_of_extends hext hlast, hrow, ← table, htable, List.map_cons]
      congr 1
      exact List.map_congr_left fun e' he' => by rw [row_of_extends hnew (h e' (List.mem_cons_of_mem _ he'))]

theorem mapM_divide {f g : ℕ → K} : ∀ {l : List ℕ}, (∀ i ∈ l, g i ≠ 0) →
    l.mapM (fun i => divide (f i) (g i)) = .ok (l.map fun i => f i / g i) := by
  intro l
  induction l with
  | nil => exact fun _ => rfl
  | cons i l ih =>
    intro h
    rw [List.mapM_cons, ih fun j hj => h j (List.mem_cons_of_mem _ hj), divide, if_neg (h i List.mem_cons_self)]
    rfl

/-- With row objects `_solve` returns the same answer, divides by no zero and leaves the rows it was given. -/
theorem solve_eq {matrix : List ℕ} {vector : List K} (hlive : Live s matrix)
    (hshape : Augmented vector.length ((s.table matrix).zipWith (fun row v => row ++ [v]) vector)) :
    ∃ t, s.solve matrix vector = .ok (CanaTune.solve (s.table matrix) vector, t) ∧ s <+: t := by
  have hpairs : ∀ e ∈ matrix.zip vector, e.1 < s.length := fun e he => hlive _ (List.of_mem_zip he).1
  obtain ⟨hext, hlive', htable⟩ := augment_eq hpairs
  have hstart : (matrix.zip vector).map (fun e => s.row e.1 ++ [e.2])
      = (s.table matrix).zipWith (fun row v => row ++ [v]) vector := by
    rw [table, List.zipWith_map_left, List.zip, List.map_zipWith]
  rw [hstart] at htable
  have hcols : ∀ c ∈ List.range vector.length, c < vector.length := fun c hc => List.mem_range.mp hc
  obtain ⟨r, t, hrun, hext', hresult⟩ := eliminate_eq hcols hlive' (htable.symm ▸ hshape)
  rw [htable] at hresult
  refine ⟨t, ?_, hext.trans hext'⟩
  rw [RowStore.solve, CanaTune.solve, ← hresult]
  simp only [hrun, bind, Except.bind]
  cases r with
  | none => rfl
  | some m =>
    have hreached := reached hshape le_rfl hresult.symm
    have hdiag : ∀ i ∈ List.range vector.length, entry (t.table m) i i ≠ 0 := fun i hi =>
      (hreached.cleared i (List.mem_range.mp hi)).1
    simp only [mapM_divide hdiag]
    rfl

end RowStore

/-! ### The answer -/

section Answer
variable {n : ℕ}

/-- A matrix as the list of its rows. -/
def listed (A : Matrix (Fin n) (Fin n) K) : List (List K) := List.ofFn fun i => List.ofFn (A i)

/-- The rows of the system with their right-hand sides. -/
def system (A : Matrix (Fin n) (Fin n) K) (b : Fin n → K) : List (List K) :=
  (listed A).zipWith (fun row v => row ++ [v]) (List.ofFn b)

omit [Scalar K] in
theorem system_row (A : Matrix (Fin n) (Fin n) K) (b : Fin n → K) (i : Fin n) :
    (system A b).getD i [] = List.ofFn (A i) ++ [b i] := by
  have hi : (i : ℕ) < (system A b).length := by simp [system, listed]
  rw [List.getD_eq_getElem _ _ hi]
  simp [system, listed]

omit [Scalar K] in
theorem augmented_system (A : Matrix (Fin n) (Fin n) K) (b : Fin n → K) : Augmented n (system A b) := by
  refine ⟨by simp [system, listed], fun row hrow => ?_⟩
  obtain ⟨i, hi, rfl⟩ := List.mem_iff_getElem.mp hrow
  have hi' : i < n := by simpa [system, listed] using hi
  rw [← List.getD_eq_getElem _ [] hi, system_row A b ⟨i, hi'⟩]
  simp

theorem coefficients_system (A : Matrix (Fin n) (Fin n) K) (b : Fin n → K) :
    coefficients n (entry (system A b)) = A := by
  ext i j
  rw [coefficients, entry, system_row, List.getD_eq_getElem _ _ (by simp), List.getElem_append_left (by simp)]
  simp

theorem entry_system_last (A : Matrix (Fin n) (Fin n) K) (b : Fin n → K) (i : Fin n) :
    entry (system A b) i n = b i := by
  rw [entry, system_row, List.getD_eq_getElem _ _ (by simp), List.getElem_append_right (by simp)]
  simp

theorem solve_eq_eliminated (A : Matrix (Fin n) (Fin n) K) (b : Fin n → K) :
    solve (listed A) (List.ofFn b)
      = (eliminated n n (system A b)).map fun m => (List.range n).map fun i => entry m i n / entry m i i := by
  rw [solve, List.length_ofFn]
  cases h : eliminated n n (system A b) with
  | none =>
    rw [eliminated, system] at h
    rw [h]
    rfl
  | some m =>
    rw [eliminated, system] at h
    rw [h]
    rfl

/-- What comes out of the elimination, and when nothing does. -/
theorem solve_spec (A : Matrix (Fin n) (Fin n) K) (b : Fin n → K) :
    (∀ x, solve (listed A) (List.ofFn b) = some x → ∃ v : Fin n → K, x = List.ofFn v ∧ A.mulVec v = b ∧ IsUnit A) ∧
      (solve (listed A) (List.ofFn b) = none ↔
        ∃ col < n, ∃ m, eliminated n col (system A b) = some m ∧ NoPivot n m col) := by
  constructor
  · intro x hx
    rw [solve_eq_eliminated] at hx
    obtain ⟨m, hm, rfl⟩ := Option.map_eq_some_iff.mp hx
    have hreached := reached (augmented_system A b) le_rfl hm
    obtain ⟨hsolved, hunit⟩ := Elimination.solved_of_cleared hreached.cleared hreached.same
    rw [coefficients_system] at hsolved hunit
    refine ⟨fun i => entry m i n / entry m i i, ?_, ?_, hunit⟩
    · rw [← List.map_coe_finRange_eq_range, List.map_map, List.ofFn_eq_map]
      rfl
    · rw [hsolved]
      funext i
      exact entry_system_last A b i
  · rw [solve_eq_eliminated, Option.map_eq_none_iff, eliminated_none le_rfl]

/-- `_solve` is sound, and gives up exactly at a column where every remaining candidate is below the bound. It divides by
    no zero and leaves the rows it was given. -/
theorem solve_sound (A : Matrix (Fin n) (Fin n) K) (b : Fin n → K) :
    (∀ x, solve (listed A) (List.ofFn b) = some x → ∃ v : Fin n → K, x = List.ofFn v ∧ A.mulVec v = b ∧ IsUnit A) ∧
      (solve (listed A) (List.ofFn b) = none ↔
        ∃ col < n, ∃ m, eliminated n col (system A b) = some m ∧ NoPivot n m col) ∧
      (¬IsUnit A → solve (listed A) (List.ofFn b) = none) ∧
      ∀ (s : RowStore K) (matrix : List ℕ), (∀ a ∈ matrix, a < s.length) → s.table matrix = listed A →
        ∃ t, s.solve matrix (List.ofFn b) = .ok (solve (listed A) (List.ofFn b), t) ∧ s <+: t := by
  obtain ⟨hsome, hnone⟩ := solve_spec A b
  refine ⟨hsome, hnone, fun hsingular => ?_, fun s matrix hlive htable => ?_⟩
  · rw [Option.eq_none_iff_forall_ne_some]
    intro x hx
    obtain ⟨-, -, -, hunit⟩ := hsome x hx
    exact hsingular hunit
  · have hshape : Augmented (List.ofFn b).length ((s.table matrix).zipWith (fun row v => row ++ [v]) (List.ofFn b)) := by
      rw [List.length_ofFn, htable]
      exact augmented_system A b
    obtain ⟨t, hrun, hext⟩ := RowStore.solve_eq hlive hshape
    exact ⟨t, htable ▸ hrun, hext⟩

end Answer
end CanaTune

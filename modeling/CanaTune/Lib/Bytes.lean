import Mathlib.Data.List.Infix
import Mathlib.Data.Nat.Find
import Mathlib.Tactic.Common

/-! Byte strings: the first occurrence of a separator, lines, and what appending does to them. -/

namespace CanaTune

abbrev Bytes : Type := List UInt8

namespace Bytes

/-! ### Search -/

/-- `sep` occurs in `l` at position `i`. -/
def Occurs (sep l : Bytes) (i : ℕ) : Prop := sep <+: l.drop i

/-- `bytes.find`: the first position of `sep`. -/
def find (sep : Bytes) : Bytes → Option ℕ
  | [] => if sep.isEmpty then some 0 else none
  | c :: l => if sep.isPrefixOf (c :: l) then some 0 else (find sep l).map (· + 1)

theorem find_eq_some {sep l : Bytes} {i : ℕ} :
    find sep l = some i ↔ Occurs sep l i ∧ i ≤ l.length ∧ ∀ j < i, ¬Occurs sep l j := by
  induction l generalizing i with
  | nil =>
    cases sep with
    | nil => cases i <;> simp [find, Occurs]
    | cons a sep => simp [find, Occurs]
  | cons c l ih =>
    by_cases hpre : sep <+: c :: l
    · rw [find, if_pos (List.isPrefixOf_iff_prefix.mpr hpre)]
      constructor
      · rintro ⟨⟩
        exact ⟨hpre, Nat.zero_le _, fun j hj => absurd hj (Nat.not_lt_zero j)⟩
      · rintro ⟨-, -, hfirst⟩
        rcases i.eq_zero_or_pos with rfl | hi
        · rfl
        · exact absurd hpre (hfirst 0 hi)
    · rw [find, if_neg fun h => hpre (List.isPrefixOf_iff_prefix.mp h), Option.map_eq_some_iff]
      constructor
      · rintro ⟨k, hk, rfl⟩
        obtain ⟨hocc, hle, hfirst⟩ := ih.mp hk
        refine ⟨hocc, Nat.succ_le_succ hle, fun j hj => ?_⟩
        cases j with
        | zero => exact hpre
        | succ j => exact hfirst j (Nat.lt_of_succ_lt_succ hj)
      · rintro ⟨hocc, hle, hfirst⟩
        cases i with
        | zero => exact absurd hocc hpre
        | succ k =>
          exact ⟨k, ih.mpr ⟨hocc, Nat.le_of_succ_le_succ hle, fun j hj => hfirst (j + 1) (Nat.succ_lt_succ hj)⟩, rfl⟩

theorem Occurs.length_le {sep l : Bytes} {i : ℕ} (h : Occurs sep l i) (hi : i ≤ l.length) : i + sep.length ≤ l.length := by
  have hle := List.IsPrefix.length_le h
  rw [List.length_drop] at hle
  omega

theorem find_eq_none {sep l : Bytes} (hsep : sep ≠ []) : find sep l = none ↔ ∀ i, ¬Occurs sep l i := by
  constructor
  · intro hnone i hocc
    have hi : i ≤ l.length := by
      by_contra hlt
      have hempty : l.drop i = [] := List.drop_eq_nil_of_le (by omega)
      exact hsep (List.prefix_nil.mp (hempty ▸ hocc))
    have hex : ∃ i, Occurs sep l i := ⟨i, hocc⟩
    classical
    have hsome : find sep l = some (Nat.find hex) :=
      find_eq_some.mpr ⟨Nat.find_spec hex, (Nat.find_min' hex hocc).trans hi, fun j hj => Nat.find_min hex hj⟩
    rw [hnone] at hsome
    cases hsome
  · intro hno
    cases hfind : find sep l with
    | none => rfl
    | some i => exact absurd (find_eq_some.mp hfind).1 (hno i)

theorem Occurs.append {sep l : Bytes} {i : ℕ} (h : Occurs sep l i) (hi : i ≤ l.length) (m : Bytes) :
    Occurs sep (l ++ m) i := by
  unfold Occurs at h ⊢
  rw [List.drop_append_of_le_length hi]
  exact h.trans (List.prefix_append _ _)

/-- An occurrence within the first part is one of the first part. -/
theorem Occurs.of_append {sep l m : Bytes} {i : ℕ} (h : Occurs sep (l ++ m) i) (hi : i + sep.length ≤ l.length) :
    Occurs sep l i := by
  unfold Occurs at h ⊢
  rw [List.drop_append_of_le_length (by omega)] at h
  exact List.prefix_of_prefix_length_le h (List.prefix_append _ _) (by rw [List.length_drop]; omega)

theorem occurs_add {sep p l : Bytes} {i : ℕ} : Occurs sep (p ++ l) (p.length + i) ↔ Occurs sep l i := by
  rw [Occurs, List.drop_append, List.drop_eq_nil_of_le (by omega), List.nil_append, Nat.add_sub_cancel_left, Occurs]

/-- More bytes behind do not move the first occurrence. -/
theorem find_append {sep l : Bytes} {i : ℕ} (h : find sep l = some i) (m : Bytes) : find sep (l ++ m) = some i := by
  obtain ⟨hocc, hi, hfirst⟩ := find_eq_some.mp h
  refine find_eq_some.mpr ⟨hocc.append hi m, hi.trans (by simp), fun j hj hj' => ?_⟩
  have hle := hocc.length_le hi
  exact hfirst j hj (hj'.of_append (by omega))

/-- The two parts around the first occurrence. -/
theorem split_of_find {sep l : Bytes} {i : ℕ} (h : find sep l = some i) :
    l = l.take i ++ (sep ++ l.drop (i + sep.length)) := by
  obtain ⟨⟨rest, hrest⟩, -, -⟩ := find_eq_some.mp h
  have hdrop : l.drop (i + sep.length) = rest := by
    rw [← List.drop_drop, ← hrest, List.drop_left]
  rw [hdrop, hrest, List.take_append_drop]

/-! ### Lines -/

/-- `bytes.splitlines`: a line ends at LF, CR LF or CR; what follows the last end is a line if it is not empty. -/
def splitlines : Bytes → List Bytes
  | [] => []
  | 13 :: 10 :: rest => [] :: splitlines rest
  | 13 :: rest => [] :: splitlines rest
  | 10 :: rest => [] :: splitlines rest
  | c :: rest =>
    match splitlines rest with
    | [] => [[c]]
    | line :: lines => (c :: line) :: lines

theorem splitlines_cons {c : UInt8} (hlf : c ≠ 10) (hcr : c ≠ 13) (rest : Bytes) :
    splitlines (c :: rest) = match splitlines rest with
      | [] => [[c]]
      | line :: lines => (c :: line) :: lines := by
  rw [splitlines]
  · exact fun _ h _ => hcr h
  · exact hcr
  · exact hlf

theorem splitlines_cr {rest : Bytes} (h : rest.head? ≠ some 10) : splitlines (13 :: rest) = [] :: splitlines rest := by
  rw [splitlines]
  rintro rest' rfl
  exact h rfl

theorem splitlines_eq_nil {l : Bytes} : splitlines l = [] ↔ l = [] := by
  constructor
  · intro h
    fun_cases splitlines l with
    | case1 => rfl
    | case5 c rest h1 h2 h3 hnil => rw [splitlines_cons h3 h2, hnil] at h; cases h
    | case6 c rest h1 h2 h3 line lines hlines => rw [splitlines_cons h3 h2, hlines] at h; cases h
    | _ => simp_all [splitlines]
  · rintro rfl
    rfl

/-- A line feed ends the lines before it. -/
theorem splitlines_append (x y : Bytes) : splitlines (x ++ 10 :: y) = splitlines (x ++ [10]) ++ splitlines y := by
  fun_induction splitlines x with
  | case1 => simp [splitlines]
  | case2 rest ih => simpa [splitlines] using ih
  -- A lone CR ends the line; no LF follows it, whatever is appended.
  | case3 rest hrest ih =>
    cases rest with
    | nil => simp [splitlines]
    | cons d rest =>
      have hd : ∀ z : Bytes, (d :: rest ++ z).head? ≠ some 10 := by
        intro z hz
        exact hrest rest (by rw [Option.some.inj hz])
      show splitlines (13 :: (d :: rest ++ 10 :: y)) = splitlines (13 :: (d :: rest ++ [10])) ++ splitlines y
      rw [splitlines_cr (hd _), splitlines_cr (hd _), ih]
      rfl
  | case4 rest ih => simpa [splitlines] using ih
  | case5 c rest h1 h2 h3 hnil ih =>
    obtain rfl := splitlines_eq_nil.mp hnil
    rw [List.cons_append, splitlines_cons h3 h2, List.cons_append, splitlines_cons h3 h2]
    simp [splitlines]
  | case6 c rest h1 h2 h3 line lines hlines ih =>
    rw [List.cons_append, splitlines_cons h3 h2, ih, List.cons_append, splitlines_cons h3 h2]
    cases hends : splitlines (rest ++ [10]) with
    | nil => simp [splitlines_eq_nil] at hends
    | cons line' lines' => rfl

/-- At the end it closes the last line, or adds an empty one. -/
theorem splitlines_lf (x : Bytes) : splitlines (x ++ [10]) = splitlines x ∨
    splitlines (x ++ [10]) = splitlines x ++ [[]] := by
  fun_induction splitlines x with
  | case1 => exact .inr rfl
  | case2 rest ih => simpa [splitlines] using ih
  | case3 rest hrest ih =>
    cases rest with
    | nil => exact .inl rfl
    | cons d rest =>
      have hd : (d :: rest ++ [10]).head? ≠ some 10 := by
        intro hz
        exact hrest rest (by rw [Option.some.inj hz])
      rw [List.cons_append, splitlines_cr hd]
      exact ih.imp (fun h => by rw [h]) fun h => by rw [h, List.cons_append]
  | case4 rest ih => simpa [splitlines] using ih
  | case5 c rest h1 h2 h3 hnil ih =>
    obtain rfl := splitlines_eq_nil.mp hnil
    exact .inl (by rw [List.cons_append, splitlines_cons h3 h2]; simp [splitlines])
  | case6 c rest h1 h2 h3 line lines hlines ih =>
    rw [List.cons_append, splitlines_cons h3 h2]
    rw [hlines] at ih
    exact ih.imp (fun h => by rw [h]) fun h => by rw [h]; rfl

/-- Lines chosen by a test that no empty line passes do not see where a line feed ends them. -/
theorem filter_splitlines_append {p : Bytes → Bool} (hp : p [] = false) (x y : Bytes) :
    (splitlines (x ++ 10 :: y)).filter p = (splitlines x).filter p ++ (splitlines y).filter p := by
  rw [splitlines_append, List.filter_append]
  rcases splitlines_lf x with h | h
  · rw [h]
  · rw [h, List.filter_append, List.filter_cons_of_neg (by simp [hp]), List.filter_nil, List.append_nil]

end Bytes
end CanaTune

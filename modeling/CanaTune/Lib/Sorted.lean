import Mathlib

/-! Lists of ordered values: their maximum, how many elements lie on each side of one of a sorted list, what a window
    over sorted times keeps, and a list along which a measure falls. -/

namespace CanaTune
variable {α : Type*} [LinearOrder α]

theorem le_foldl_max {l : List α} {x a : α} (h : x ≤ a ∨ x ∈ l) : x ≤ l.foldl max a := by
  induction l generalizing a with
  | nil => exact h.resolve_right List.not_mem_nil
  | cons y l ih =>
    refine ih ?_
    rcases h with h | h
    · exact .inl (h.trans (le_max_left a y))
    rcases List.mem_cons.mp h with rfl | h
    · exact .inl (le_max_right a x)
    · exact .inr h

theorem foldl_max_le {l : List α} {a b : α} (ha : a ≤ b) (hl : ∀ x ∈ l, x ≤ b) : l.foldl max a ≤ b := by
  induction l generalizing a with
  | nil => exact ha
  | cons y l ih => exact ih (max_le ha (hl y List.mem_cons_self)) fun x hx => hl x (List.mem_cons_of_mem y hx)

/-- The elements up to index `i` of a sorted list are at most its element `i`. -/
theorem lt_countP_sorted {l : List α} (h : l.Pairwise (· ≤ ·)) {i : ℕ} (hi : i < l.length) :
    i < l.countP fun x => decide (x ≤ l[i]) := by
  have hreached : (l.take (i + 1)).countP (fun x => decide (x ≤ l[i])) = i + 1 := by
    have hlength : (l.take (i + 1)).length = i + 1 := by rw [List.length_take, min_eq_left hi]
    rw [List.countP_eq_length.mpr, hlength]
    intro x hx
    rw [decide_eq_true_eq]
    obtain ⟨j, hj, rfl⟩ := List.mem_iff_getElem.mp hx
    rw [hlength] at hj
    rw [List.getElem_take]
    rcases (Nat.lt_succ_iff.mp hj).eq_or_lt with rfl | hlt
    · exact le_rfl
    · exact List.pairwise_iff_getElem.mp h _ _ _ _ hlt
  have hsub := (List.take_sublist (i + 1) l).countP_le (p := fun x => decide (x ≤ l[i]))
  rw [hreached] at hsub
  exact hsub

theorem countP_eq_length_of_le_head {x c : α} {l : List α} (h : (x :: l).Pairwise (· ≤ ·)) (hc : c ≤ x) :
    (x :: l).countP (fun y => decide (c ≤ y)) = (x :: l).length := by
  rw [List.countP_eq_length]
  intro y hy
  rw [decide_eq_true_eq]
  rcases List.mem_cons.mp hy with rfl | hy
  · exact hc
  · exact hc.trans ((List.pairwise_cons.mp h).1 y hy)

/-- Element `i` of a sorted list reaches `c` exactly when as many elements as stand from it on do. -/
theorem le_getElem_sorted {l : List α} (h : l.Pairwise (· ≤ ·)) {i : ℕ} (hi : i < l.length) (c : α) :
    c ≤ l[i] ↔ l.length - i ≤ l.countP fun x => decide (c ≤ x) := by
  induction l generalizing i with
  | nil => exact absurd hi (Nat.not_lt_zero i)
  | cons x l ih =>
    have hrest := (List.pairwise_cons.mp h).2
    rcases le_or_gt c x with hcx | hcx
    · have hall := countP_eq_length_of_le_head h hcx
      have hmem : c ≤ (x :: l)[i] := by
        rcases List.mem_cons.mp (List.getElem_mem hi) with heq | hin
        · rw [heq]
          exact hcx
        · exact hcx.trans ((List.pairwise_cons.mp h).1 _ hin)
      rw [hall]
      exact iff_of_true hmem (Nat.sub_le _ _)
    · have hskip : (x :: l).countP (fun y => decide (c ≤ y)) = l.countP fun y => decide (c ≤ y) := by
        rw [List.countP_cons_of_neg]
        simpa using hcx
      rw [hskip]
      cases i with
      | zero =>
        have hle := List.countP_le_length (p := fun y => decide (c ≤ y)) (l := l)
        simp only [List.getElem_cons_zero, List.length_cons]
        exact iff_of_false hcx.not_ge (by omega)
      | succ i =>
        have hi' : i < l.length := Nat.lt_of_succ_lt_succ hi
        simp only [List.getElem_cons_succ, List.length_cons, Nat.add_sub_add_right]
        exact ih hrest hi'

/-- Dropping what is too old from the front of sorted times leaves what is recent enough. -/
theorem dropWhile_eq_filter {β : Type*} {time : β → α} {l : List β} (h : (l.map time).Pairwise (· ≤ ·)) (c : α) :
    (l.dropWhile fun e => decide (time e < c)) = l.filter fun e => decide (c ≤ time e) := by
  induction l with
  | nil => rfl
  | cons e l ih =>
    rw [List.map_cons, List.pairwise_cons] at h
    rcases lt_or_ge (time e) c with hlt | hge
    · rw [List.dropWhile_cons_of_pos (by simpa using hlt), List.filter_cons_of_neg (by simpa using hlt)]
      exact ih h.2
    · rw [List.dropWhile_cons_of_neg (by simpa using hge), eq_comm, List.filter_eq_self]
      intro e' he'
      rw [decide_eq_true_eq]
      rcases List.mem_cons.mp he' with rfl | he'
      · exact hge
      · exact hge.trans (h.1 _ (List.mem_map_of_mem he'))

/-- Where each change lowers a measure, nothing comes back once it was left. -/
theorem nodup_destutter_of_falls {β γ : Type*} [DecidableEq β] [Preorder γ] (m : β → γ) {l : List β}
    (h : l.IsChain fun a b => b = a ∨ m b < m a) : (l.destutter (· ≠ ·)).Nodup := by
  have htrans : IsTrans β fun a b => b = a ∨ m b < m a := ⟨fun a b c hab hbc => by
    rcases hab with rfl | hab
    · exact hbc
    rcases hbc with rfl | hbc
    · exact .inr hab
    · exact .inr (hbc.trans hab)⟩
  have hsub := (h.pairwise.sublist (List.destutter_sublist (· ≠ ·) l)).isChain
  have hfalls : (l.destutter (· ≠ ·)).IsChain fun a b => m b < m a :=
    List.isChain_iff_getElem.mpr fun i hi =>
      (List.isChain_iff_getElem.mp hsub i hi).resolve_left
        (List.isChain_iff_getElem.mp (List.isChain_destutter (· ≠ ·) l) i hi).symm
  have hfallsTrans : IsTrans β fun a b => m b < m a := ⟨fun a b c hab hbc => hbc.trans hab⟩
  exact hfalls.pairwise.imp fun hab heq => (heq ▸ hab).false

end CanaTune

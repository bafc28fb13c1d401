import Mathlib

/-! Piecewise linear functions through a list of knots. The graph relates a number to the value on the line through two
    neighbouring knots around it; with strictly increasing knots it is a function, it stays between the values at the
    two knots, and it is monotone wherever the values are. -/

namespace CanaTune.Piecewise
variable {K : Type*} [Field K]

/-- The value at `x` on the line through `(x0, y0)` and `(x1, y1)`. -/
def line (x0 y0 x1 y1 x : K) : K := y0 + (y1 - y0) * (x - x0) / (x1 - x0)

section Line
variable {x0 y0 x1 y1 x y : K}

@[simp] theorem line_left : line x0 y0 x1 y1 x0 = y0 := by simp [line]

theorem line_right (h : x0 ≠ x1) : line x0 y0 x1 y1 x1 = y1 := by
  have hwidth : x1 - x0 ≠ 0 := sub_ne_zero.mpr h.symm
  rw [line, mul_div_assoc, div_self hwidth, mul_one]
  exact add_sub_cancel y0 y1

theorem line_neg : line x0 (-y0) x1 (-y1) x = -line x0 y0 x1 y1 x := by
  unfold line
  ring

variable [LinearOrder K] [IsStrictOrderedRing K]

theorem line_mono (hlt : x0 < x1) (hy : y0 ≤ y1) (hxy : x ≤ y) : line x0 y0 x1 y1 x ≤ line x0 y0 x1 y1 y := by
  have hwidth : 0 ≤ x1 - x0 := (sub_pos.mpr hlt).le
  have hrise : 0 ≤ y1 - y0 := sub_nonneg.mpr hy
  unfold line
  gcongr

/-- Between its ends a line stays between its values there. -/
theorem line_mem (hlt : x0 < x1) (h0 : x0 ≤ x) (h1 : x ≤ x1) : line x0 y0 x1 y1 x ∈ Set.uIcc y0 y1 := by
  have hright : line x0 y0 x1 y1 x1 = y1 := line_right hlt.ne
  rcases le_total y0 y1 with hy | hy
  · rw [Set.uIcc_of_le hy]
    constructor
    · calc y0 = line x0 y0 x1 y1 x0 := line_left.symm
        _ ≤ line x0 y0 x1 y1 x := line_mono hlt hy h0
    · calc line x0 y0 x1 y1 x ≤ line x0 y0 x1 y1 x1 := line_mono hlt hy h1
        _ = y1 := hright
  · -- Turned upside down the line rises.
    have hneg : -y0 ≤ -y1 := neg_le_neg hy
    rw [Set.uIcc_of_ge hy]
    constructor
    · have hle := line_mono hlt hneg h1
      rw [line_neg, line_neg, hright] at hle
      exact neg_le_neg_iff.mp hle
    · have hle := line_mono hlt hneg h0
      rw [line_neg, line_neg, line_left] at hle
      exact neg_le_neg_iff.mp hle

end Line

/-! ### The graph -/

variable [LinearOrder K] {α : Type*} {px py : α → K} {knots : List α} {a b : α} {x y v w : K}

/-- The piecewise linear function through the knots, at `px` with the values `py`, takes the value `v` at `x`. -/
def Graph (px py : α → K) (knots : List α) (x v : K) : Prop :=
  ∃ a b, [a, b] <:+: knots ∧ px a ≤ x ∧ x ≤ px b ∧ v = line (px a) (py a) (px b) (py b) x

/-- The knots stand in strictly increasing order. -/
def Increasing (px : α → K) (knots : List α) : Prop := knots.Pairwise fun a b => px a < px b

omit [Field K] in
theorem Increasing.neighbours (hinc : Increasing px knots) (hab : [a, b] <:+: knots) : px a < px b := by
  have hpair : [a, b].Pairwise fun a b => px a < px b := hinc.sublist hab.sublist
  exact (List.pairwise_cons.mp hpair).1 b List.mem_cons_self

omit [Field K] in
/-- No knot stands between two neighbours. -/
theorem Increasing.apart (hinc : Increasing px knots) (hab : [a, b] <:+: knots) {e : α} (he : e ∈ knots) :
    px e ≤ px a ∨ px b ≤ px e := by
  obtain ⟨before, after, rfl⟩ := hab
  obtain ⟨hfront, -, hback⟩ := List.pairwise_append.mp hinc
  rcases List.mem_append.mp he with he | he
  · rcases List.mem_append.mp he with he | he
    · have hea : px e < px a := (List.pairwise_append.mp hfront).2.2 e he a List.mem_cons_self
      exact .inl hea.le
    · rcases List.mem_pair.mp he with rfl | rfl
      · exact .inl le_rfl
      · exact .inr le_rfl
  · exact .inr (hback b (by simp) e he).le

/-- The first segment holds `x`, or the graph of the other knots does. -/
theorem graph_cons {c d : α} {rest : List α} :
    Graph px py (c :: d :: rest) x v ↔
      (px c ≤ x ∧ x ≤ px d ∧ v = line (px c) (py c) (px d) (py d) x) ∨ Graph px py (d :: rest) x v := by
  constructor
  · rintro ⟨a, b, hab, ha, hb, rfl⟩
    rcases List.infix_cons_iff.mp hab with hfirst | hrest
    · obtain ⟨rfl, hb'⟩ := List.cons_prefix_cons.mp hfirst
      obtain ⟨rfl, -⟩ := List.cons_prefix_cons.mp hb'
      exact .inl ⟨ha, hb, rfl⟩
    · exact .inr ⟨a, b, hrest, ha, hb, rfl⟩
  · rintro (⟨hc, hd, rfl⟩ | ⟨a, b, hab, ha, hb, rfl⟩)
    · exact ⟨c, d, ⟨[], rest, rfl⟩, hc, hd, rfl⟩
    · exact ⟨a, b, List.infix_cons hab, ha, hb, rfl⟩

theorem not_graph_nil : ¬Graph px py [] x v := by
  rintro ⟨a, b, hab, -⟩
  exact absurd hab.length_le (by simp)

theorem not_graph_singleton : ¬Graph px py [a] x v := by
  rintro ⟨b, c, hbc, -⟩
  exact absurd hbc.length_le (by simp)

/-- Turning the values upside down turns the graph. -/
theorem Graph.neg (h : Graph px py knots x v) : Graph px (fun a => -py a) knots x (-v) := by
  obtain ⟨a, b, hab, ha, hb, rfl⟩ := h
  exact ⟨a, b, hab, ha, hb, line_neg.symm⟩

/-- The graph starts at its first knot. -/
theorem Graph.first_le (hinc : Increasing px (a :: knots)) (h : Graph px py (a :: knots) x v) : px a ≤ x := by
  obtain ⟨b, c, hbc, hb, -, -⟩ := h
  have hmem : b ∈ a :: knots := hbc.subset List.mem_cons_self
  rcases List.mem_cons.mp hmem with rfl | hmem
  · exact hb
  · exact ((List.pairwise_cons.mp hinc).1 b hmem).le.trans hb

/-- At its first knot the graph takes that knot's value only. -/
theorem Graph.at_first (hinc : Increasing px (a :: knots)) (h : Graph px py (a :: knots) (px a) v) : v = py a := by
  obtain ⟨b, c, hbc, hb, -, rfl⟩ := h
  have hmem : b ∈ a :: knots := hbc.subset List.mem_cons_self
  rcases List.mem_cons.mp hmem with rfl | hmem
  · exact line_left
  · exact absurd hb ((List.pairwise_cons.mp hinc).1 b hmem).not_ge

/-- The graph of increasing knots is a function. -/
theorem Graph.unique (hinc : Increasing px knots) (hv : Graph px py knots x v) (hw : Graph px py knots x w) :
    v = w := by
  induction knots with
  | nil => exact absurd hv not_graph_nil
  | cons c knots ih =>
    rcases knots with - | ⟨d, rest⟩
    · exact absurd hv not_graph_singleton
    have htail := (List.pairwise_cons.mp hinc).2
    have hcd : px c < px d := (List.pairwise_cons.mp hinc).1 d List.mem_cons_self
    -- Two segments share at most the knot between them, where each takes the knot's value.
    have hmeet : ∀ {v w : K}, x ≤ px d → v = line (px c) (py c) (px d) (py d) x → Graph px py (d :: rest) x w → v = w := by
      rintro v w hle rfl hw
      obtain rfl : x = px d := le_antisymm hle (hw.first_le htail)
      rw [line_right hcd.ne, hw.at_first htail]
    rcases graph_cons.mp hv with ⟨-, hle, hv⟩ | hv <;> rcases graph_cons.mp hw with ⟨-, hle', hw⟩ | hw
    · rw [hv, hw]
    · exact hmeet hle hv hw
    · exact (hmeet hle' hw hv).symm
    · exact ih htail hv hw

/-- Every knot among two or more is on the graph. -/
theorem graph_knot (hinc : Increasing px knots) (hlen : 2 ≤ knots.length) (ha : a ∈ knots) :
    Graph px py knots (px a) (py a) := by
  induction knots with
  | nil => simp at ha
  | cons c knots ih =>
    rcases knots with - | ⟨d, rest⟩
    · simp at hlen
    obtain ⟨habove, htail⟩ := List.pairwise_cons.mp hinc
    have hcd : px c < px d := habove d List.mem_cons_self
    rcases List.mem_cons.mp ha with rfl | ha
    · exact graph_cons.mpr (.inl ⟨le_rfl, hcd.le, line_left.symm⟩)
    rcases rest with - | ⟨e, rest⟩
    · obtain rfl := List.mem_singleton.mp ha
      exact graph_cons.mpr (.inl ⟨hcd.le, le_rfl, (line_right hcd.ne).symm⟩)
    · exact graph_cons.mpr (.inr (ih htail (by simp) ha))

variable [IsStrictOrderedRing K]

/-- The value lies between the values at the two neighbouring knots around `x`. -/
theorem Graph.around (hinc : Increasing px knots) (h : Graph px py knots x v) :
    ∃ a b, [a, b] <:+: knots ∧ px a ≤ x ∧ x ≤ px b ∧ v ∈ Set.uIcc (py a) (py b) := by
  obtain ⟨a, b, hab, ha, hb, rfl⟩ := h
  exact ⟨a, b, hab, ha, hb, line_mem (hinc.neighbours hab) ha hb⟩

/-- Where the values rise, no value of the graph is below the first one. -/
theorem Graph.first_le_value (hinc : Increasing px (a :: knots))
    (hrise : (a :: knots).Pairwise fun a b => py a ≤ py b) (h : Graph px py (a :: knots) x v) : py a ≤ v := by
  obtain ⟨b, c, hbc, -, -, hv⟩ := h.around hinc
  have hpair : [b, c].Pairwise fun a b => py a ≤ py b := hrise.sublist hbc.sublist
  rw [Set.uIcc_of_le ((List.pairwise_cons.mp hpair).1 c List.mem_cons_self)] at hv
  have hmem : b ∈ a :: knots := hbc.subset List.mem_cons_self
  rcases List.mem_cons.mp hmem with rfl | hmem
  · exact hv.1
  · exact ((List.pairwise_cons.mp hrise).1 b hmem).trans hv.1

/-- Where the values rise, so does the graph. -/
theorem Graph.mono (hinc : Increasing px knots) (hrise : knots.Pairwise fun a b => py a ≤ py b)
    (hv : Graph px py knots x v) (hw : Graph px py knots y w) (hxy : x ≤ y) : v ≤ w := by
  induction knots with
  | nil => exact absurd hv not_graph_nil
  | cons c knots ih =>
    rcases knots with - | ⟨d, rest⟩
    · exact absurd hv not_graph_singleton
    obtain ⟨habove, htail⟩ := List.pairwise_cons.mp hinc
    obtain ⟨hfirst, hriseTail⟩ := List.pairwise_cons.mp hrise
    have hcd : px c < px d := habove d List.mem_cons_self
    have hy : py c ≤ py d := hfirst d List.mem_cons_self
    rcases graph_cons.mp hv with ⟨hcx, hxd, hveq⟩ | hv' <;> rcases graph_cons.mp hw with ⟨hcy, hyd, hweq⟩ | hw'
    · rw [hveq, hweq]
      exact line_mono hcd hy hxy
    · -- The knot between the two segments is passed on the way.
      calc v = line (px c) (py c) (px d) (py d) x := hveq
        _ ≤ line (px c) (py c) (px d) (py d) (px d) := line_mono hcd hy hxd
        _ = py d := line_right hcd.ne
        _ ≤ w := hw'.first_le_value htail hriseTail
    · -- Both stand at that knot.
      obtain rfl : x = y := le_antisymm hxy (hyd.trans (hv'.first_le htail))
      exact (hv.unique hinc hw).le
    · exact ih htail hriseTail hv' hw'

/-- Where the values fall, so does the graph. -/
theorem Graph.anti (hinc : Increasing px knots) (hfall : knots.Pairwise fun a b => py b ≤ py a)
    (hv : Graph px py knots x v) (hw : Graph px py knots y w) (hxy : x ≤ y) : w ≤ v := by
  have hrise : knots.Pairwise fun a b => -py a ≤ -py b := hfall.imp neg_le_neg
  exact neg_le_neg_iff.mp (hv.neg.mono hinc hrise hw.neg hxy)

end CanaTune.Piecewise

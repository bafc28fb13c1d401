import CanaTune.Domain.Models
import CanaTune.Lib.Piecewise
import CanaTune.Theorems.PrefillCost

/-! The two interpolations over one table. `interpolate` takes the first segment that holds a number on both sides,
    `PrefillCost` the first one that reaches it; between the shortest and the longest measured length both give the
    value of the one piecewise linear function through the table. -/

namespace CanaTune
open Piecewise
variable {K : Type} [Scalar K]

/-- The piecewise linear function through the points of a table. -/
def Plot (points : List (ℕ × K)) (x v : K) : Prop := Graph (fun a : ℕ × K => (a.1 : K)) Prod.snd points x v

/-- `first` and `last` are the shortest and the longest length of a table with two or more. -/
structure Spans (d : Dict ℕ K) (first last : ℕ × K) : Prop where
  length : 2 ≤ d.items.length
  first : first ∈ d.items ∧ ∀ e ∈ d.items, first.1 ≤ e.1
  last : last ∈ d.items ∧ ∀ e ∈ d.items, e.1 ≤ last.1

/-- `a` and `b` are the two measured lengths around `x`. -/
structure Around (d : Dict ℕ K) (a b : ℕ × K) (x : K) : Prop where
  left : a ∈ d.items ∧ (a.1 : K) ≤ x
  right : b ∈ d.items ∧ x ≤ b.1
  next : a.1 < b.1 ∧ ∀ e ∈ d.items, e.1 ≤ a.1 ∨ b.1 ≤ e.1

/-! ### The table in order -/

theorem segment_eq_line {a b : ℕ × K} {x : K} : segment a b x = line (a.1 : K) a.2 b.1 b.2 x := rfl

theorem increasing_sorted (d : Dict ℕ K) : Increasing (fun a : ℕ × K => (a.1 : K)) d.sorted :=
  d.sorted_lt.imp fun h => Nat.cast_lt.mpr h

namespace Spans
variable {d : Dict ℕ K} {first last : ℕ × K}

omit [Scalar K] in
theorem exists_sorted (h : Spans d first last) : ∃ b rest, d.sorted = first :: b :: rest := by
  have hlen : 2 ≤ d.sorted.length := by
    rw [Dict.sorted, (List.perm_insertionSort _ _).length_eq]
    exact h.length
  have hlt := d.sorted_lt
  have hmem : first ∈ d.sorted := Dict.mem_sorted.mpr h.first.1
  have hle : ∀ e ∈ d.sorted, first.1 ≤ e.1 := fun e he => h.first.2 e (Dict.mem_sorted.mp he)
  match hs : d.sorted with
  | [] | [_] => simp [hs] at hlen
  | a :: b :: rest =>
    rw [hs] at hlt hmem hle
    rcases List.mem_cons.mp hmem with rfl | hmem
    · exact ⟨b, rest, rfl⟩
    · exact absurd ((List.pairwise_cons.mp hlt).1 first hmem) (hle a List.mem_cons_self).not_gt

omit [Scalar K] in
theorem two_le_length (h : Spans d first last) : 2 ≤ d.sorted.length := by
  obtain ⟨b, rest, hs⟩ := h.exists_sorted
  simp [hs]

omit [Scalar K] in
/-- The table in order ends at its longest length. -/
theorem le_getLastD (h : Spans d first last) {b : ℕ × K} {rest : List (ℕ × K)} (hs : d.sorted = first :: b :: rest) :
    (b :: rest).getLastD first ∈ d.items ∧ last.1 ≤ ((b :: rest).getLastD first).1 := by
  have hne : d.sorted ≠ [] := by simp [hs]
  have hend : (b :: rest).getLastD first = d.sorted.getLast hne := by
    simp only [hs, List.getLast_cons_cons]
    rw [List.getLastD_eq_getLast?, List.getLast?_eq_some_getLast (List.cons_ne_nil b rest), Option.getD_some]
  have hle : d.sorted.Pairwise fun a b => a.1 ≤ b.1 := d.sorted_lt.imp le_of_lt
  rw [hend]
  exact ⟨Dict.mem_sorted.mp (List.getLast_mem hne), hle.rel_getLast (Dict.mem_sorted.mpr h.last.1)⟩

/-- Past the shortest length, every number up to the longest one is reached by a later length. -/
theorem reached (h : Spans d first last) {b : ℕ × K} {rest : List (ℕ × K)} (hs : d.sorted = first :: b :: rest) {x : K}
    (hfirst : (first.1 : K) < x) (hlast : x ≤ last.1) : ∃ e ∈ b :: rest, x ≤ e.1 := by
  have hmem : last ∈ first :: b :: rest := hs ▸ Dict.mem_sorted.mpr h.last.1
  rcases List.mem_cons.mp hmem with rfl | hmem
  · exact absurd hlast hfirst.not_ge
  · exact ⟨last, hmem, hlast⟩

end Spans

/-! ### The two loops -/

variable {d : Dict ℕ K} {points : List (ℕ × K)} {first last : ℕ × K} {x v : K}

/-- A segment that holds `x` on both sides gives the value there. -/
theorem plot_between (h : between x points = some v) : Plot points x v := by
  induction points with
  | nil => simp [between] at h
  | cons a points ih =>
    rcases points with - | ⟨b, rest⟩
    · simp [between] at h
    unfold between at h
    split_ifs at h with hab
    · obtain rfl := Option.some.inj h
      exact graph_cons.mpr (.inl ⟨hab.1, hab.2, segment_eq_line⟩)
    · exact graph_cons.mpr (.inr (ih h))

/-- Some segment holds every number between the ends. -/
theorem between_ne_none {a b : ℕ × K} {rest : List (ℕ × K)} (hfirst : (a.1 : K) ≤ x)
    (hlast : ∃ e ∈ b :: rest, x ≤ e.1) : between x (a :: b :: rest) ≠ none := by
  induction rest generalizing a b with
  | nil =>
    obtain ⟨e, he, hle⟩ := hlast
    obtain rfl := List.mem_singleton.mp he
    simp [between, hfirst, hle]
  | cons c rest ih =>
    unfold between
    split_ifs with hab
    · simp
    · have hb : (b.1 : K) < x := not_le.mp fun hle => hab ⟨hfirst, hle⟩
      refine ih hb.le ?_
      obtain ⟨e, he, hle⟩ := hlast
      rcases List.mem_cons.mp he with rfl | he
      · exact absurd hle hb.not_ge
      · exact ⟨e, he, hle⟩

/-- The first segment that reaches `x` holds it, when no length before it did. -/
theorem plot_alongOf {a b : ℕ × K} {rest : List (ℕ × K)} (hfirst : (a.1 : K) ≤ x)
    (hlast : ∃ e ∈ b :: rest, x ≤ e.1) : Plot (a :: b :: rest) x (PrefillCost.alongOf x (a :: b :: rest)) := by
  induction rest generalizing a b with
  | nil =>
    obtain ⟨e, he, hle⟩ := hlast
    obtain rfl := List.mem_singleton.mp he
    unfold PrefillCost.alongOf
    rw [if_pos hle]
    exact graph_cons.mpr (.inl ⟨hfirst, hle, segment_eq_line⟩)
  | cons c rest ih =>
    unfold PrefillCost.alongOf
    split_ifs with hle
    · exact graph_cons.mpr (.inl ⟨hfirst, hle, segment_eq_line⟩)
    -- Past this segment the walk goes on from its end.
    · have hb : (b.1 : K) < x := not_le.mp hle
      refine graph_cons.mpr (.inr (ih hb.le ?_))
      obtain ⟨e, he, hle'⟩ := hlast
      rcases List.mem_cons.mp he with rfl | he
      · exact absurd hle' hle
      · exact ⟨e, he, hle'⟩

/-- The cost of a length is the call at that number. -/
theorem PrefillCost.cost_eq_costOf (c : PrefillCost K) (L : ℕ) : c.cost L = c.costOf (L : K) := by
  have halong : ∀ points : List (ℕ × K), along L points = alongOf (L : K) points := by
    intro points
    fun_induction along L points with
    | case1 a b rest h => simp [alongOf, h]
    | case2 a b h => simp [alongOf, h]
    | case3 a b h c rest ih => simp [alongOf, h, ih]
    | case4 points hpoints =>
      rcases points with - | ⟨a, - | ⟨b, rest⟩⟩
      · rfl
      · rfl
      · exact (hpoints a b rest rfl).elim
  unfold cost costOf
  rcases c.points with - | ⟨a, - | ⟨b, rest⟩⟩
  · rfl
  · rfl
  · simp only [Nat.cast_le, halong]

/-! ### The two functions -/

theorem interpolate_eq_none : interpolate d x = none ↔ d.items = [] := by
  constructor
  · intro h
    unfold interpolate at h
    rcases hs : d.sorted with - | ⟨p, ps⟩
    · exact List.eq_nil_iff_forall_not_mem.mpr fun e he => by simpa [hs] using Dict.mem_sorted.mpr he
    simp only [hs] at h
    split_ifs at h with hfirst hlast
    rcases ps with - | ⟨b, rest⟩
    · exact absurd (not_le.mp hlast).le hfirst
    refine absurd h (between_ne_none (not_le.mp hfirst).le ⟨_, List.getLast_mem (List.cons_ne_nil b rest), ?_⟩)
    rw [List.getLastD_eq_getLast?, List.getLast?_eq_some_getLast (List.cons_ne_nil b rest)] at hlast
    exact (not_le.mp hlast).le
  · intro h
    simp [interpolate, Dict.sorted, h]

/-- At and below the shortest length both stay at its value. -/
theorem interpolate_first (h : Spans d first last) (hx : x ≤ first.1) : interpolate d x = some first.2 := by
  obtain ⟨b, rest, hs⟩ := h.exists_sorted
  simp [interpolate, hs, hx]

theorem costOf_first (h : Spans d first last) (hx : x ≤ first.1) :
    (PrefillCost.ofTable d).costOf x = first.2 := by
  obtain ⟨b, rest, hs⟩ := h.exists_sorted
  simp [PrefillCost.ofTable, PrefillCost.costOf, hs, hx]

theorem plot_knot (h : Spans d first last) {e : ℕ × K} (he : e ∈ d.items) : Plot d.sorted e.1 e.2 :=
  graph_knot (increasing_sorted d) h.two_le_length (Dict.mem_sorted.mpr he)

theorem interpolate_plot (h : Spans d first last) (hfirst : (first.1 : K) ≤ x) (hlast : x ≤ last.1) :
    ∃ v, interpolate d x = some v ∧ Plot d.sorted x v := by
  obtain ⟨b, rest, hs⟩ := h.exists_sorted
  rcases hfirst.eq_or_lt with rfl | hlt
  · exact ⟨first.2, interpolate_first h le_rfl, plot_knot h h.first.1⟩
  have hend := h.le_getLastD hs
  unfold interpolate
  simp only [hs, if_neg hlt.not_ge]
  generalize (b :: rest).getLastD first = e at hend
  split_ifs with hle
  · -- Nothing lies beyond the longest length.
    have hle' : (last.1 : K) ≤ e.1 := Nat.cast_le.mpr hend.2
    obtain rfl : x = e.1 := le_antisymm (hlast.trans hle') hle
    exact ⟨e.2, rfl, hs ▸ plot_knot h hend.1⟩
  · obtain ⟨v, hv⟩ := Option.ne_none_iff_exists'.mp (between_ne_none hfirst (h.reached hs hlt hlast))
    exact ⟨v, hv, plot_between hv⟩

theorem costOf_plot (h : Spans d first last) (hfirst : (first.1 : K) ≤ x) (hlast : x ≤ last.1) :
    Plot d.sorted x ((PrefillCost.ofTable d).costOf x) := by
  obtain ⟨b, rest, hs⟩ := h.exists_sorted
  rcases hfirst.eq_or_lt with rfl | hlt
  · rw [costOf_first h le_rfl]
    exact plot_knot h h.first.1
  have hcost : (PrefillCost.ofTable d).costOf x = PrefillCost.alongOf x (first :: b :: rest) := by
    simp [PrefillCost.ofTable, PrefillCost.costOf, hs, hlt.not_ge]
  rw [hcost, hs]
  exact plot_alongOf hfirst (h.reached hs hlt hlast)

/-- Both give the value of the piecewise linear function. -/
theorem interpolate_costOf (h : Spans d first last) (hfirst : (first.1 : K) ≤ x) (hlast : x ≤ last.1) :
    interpolate d x = some ((PrefillCost.ofTable d).costOf x) := by
  obtain ⟨v, hv, hplot⟩ := interpolate_plot h hfirst hlast
  rw [hv, Graph.unique (increasing_sorted d) hplot (costOf_plot h hfirst hlast)]

theorem costOf_around (h : Spans d first last) (hfirst : (first.1 : K) ≤ x) (hlast : x ≤ last.1) :
    ∃ a b, Around d a b x ∧ (PrefillCost.ofTable d).costOf x ∈ Set.uIcc a.2 b.2 := by
  have hinc := increasing_sorted d
  obtain ⟨a, b, hab, ha, hb, hv⟩ := (costOf_plot h hfirst hlast).around hinc
  refine ⟨a, b, ⟨⟨?_, ha⟩, ⟨?_, hb⟩, ?_, fun e he => ?_⟩, hv⟩
  · exact Dict.mem_sorted.mp (hab.subset (by simp))
  · exact Dict.mem_sorted.mp (hab.subset (by simp))
  · exact Nat.cast_lt.mp (hinc.neighbours hab)
  · exact (hinc.apart hab (Dict.mem_sorted.mpr he)).imp Nat.cast_le.mp Nat.cast_le.mp

omit [Scalar K] in
/-- What holds of the values of a table by its lengths holds along the table in order. -/
theorem pairwise_sorted {r : K → K → Prop} (hr : ∀ a ∈ d.items, ∀ b ∈ d.items, a.1 ≤ b.1 → r a.2 b.2) :
    d.sorted.Pairwise fun a b => r a.2 b.2 :=
  d.sorted_lt.imp_of_mem fun ha hb hlt => hr _ (Dict.mem_sorted.mp ha) _ (Dict.mem_sorted.mp hb) hlt.le

/-- The two interpolations of a table agree between its shortest and longest length, at every number and so at every
    length, on a value between those at the two measured lengths around it, which is monotone if the table is. Below
    the shortest length both give its value, and only an empty table gives none. -/
theorem interpolations_agree (d : Dict ℕ K) :
    (∀ x, interpolate d x = none ↔ d.items = []) ∧
      ∀ first last, Spans d first last →
        (∀ x : K, x ≤ first.1 → interpolate d x = some first.2 ∧ (PrefillCost.ofTable d).costOf x = first.2) ∧
        (∀ x : K, first.1 ≤ x → x ≤ last.1 →
          interpolate d x = some ((PrefillCost.ofTable d).costOf x) ∧
            ∃ a b, Around d a b x ∧ (PrefillCost.ofTable d).costOf x ∈ Set.uIcc a.2 b.2) ∧
        (∀ L : ℕ, first.1 ≤ L → L ≤ last.1 → interpolate d (L : K) = some ((PrefillCost.ofTable d).cost L)) ∧
        (∀ x y : K, first.1 ≤ x → x ≤ y → y ≤ last.1 →
          ((∀ a ∈ d.items, ∀ b ∈ d.items, a.1 ≤ b.1 → a.2 ≤ b.2) →
            (PrefillCost.ofTable d).costOf x ≤ (PrefillCost.ofTable d).costOf y) ∧
          ((∀ a ∈ d.items, ∀ b ∈ d.items, a.1 ≤ b.1 → b.2 ≤ a.2) →
            (PrefillCost.ofTable d).costOf y ≤ (PrefillCost.ofTable d).costOf x)) := by
  refine ⟨fun x => interpolate_eq_none, fun first last h => ⟨?_, ?_, ?_, ?_⟩⟩
  · intro x hx
    exact ⟨interpolate_first h hx, costOf_first h hx⟩
  · intro x hfirst hlast
    exact ⟨interpolate_costOf h hfirst hlast, costOf_around h hfirst hlast⟩
  · intro L hfirst hlast
    rw [PrefillCost.cost_eq_costOf]
    exact interpolate_costOf h (Nat.cast_le.mpr hfirst) (Nat.cast_le.mpr hlast)
  · intro x y hfirst hxy hlast
    have hinc := increasing_sorted d
    have hplotx := costOf_plot h hfirst (hxy.trans hlast)
    have hploty := costOf_plot h (hfirst.trans hxy) hlast
    constructor
    · intro hrise
      exact hplotx.mono hinc (pairwise_sorted hrise) hploty hxy
    · intro hfall
      exact hplotx.anti hinc (pairwise_sorted (r := fun v w => w ≤ v) hfall) hploty hxy

/-- A plateau and a slope. -/
def threeLengths : Dict ℕ ℚ := Dict.ofList [(1024, 38), (128, 10), (4096, 170)]

theorem spans_threeLengths : Spans threeLengths (128, 10) (4096, 170) where
  length := by decide
  first := by decide +kernel
  last := by decide +kernel

theorem interpolations_agree_threeLengths :
    interpolate threeLengths 1024 = some ((PrefillCost.ofTable threeLengths).cost 1024) ∧
      (PrefillCost.ofTable threeLengths).costOf 576 ≤ (PrefillCost.ofTable threeLengths).costOf 1024 := by
  obtain ⟨-, -, hlength, hmono⟩ := (interpolations_agree threeLengths).2 (128, 10) (4096, 170) spans_threeLengths
  refine ⟨hlength 1024 (by decide) (by decide), (hmono 576 1024 ?_ ?_ ?_).1 ?_⟩
  · norm_num
  · norm_num
  · norm_num
  · decide +kernel

end CanaTune

import CanaTune.Domain.Admission

/-! The prefill cost between and beyond its measured lengths. Between them it is a weighted mean of two measured
    times, with weights that depend on the lengths alone; beyond them it follows the last segment wherever that
    leads. -/

namespace CanaTune
variable {K : Type} [Scalar K]

/-- The pairs of a dictionary, by strictly increasing key. -/
theorem Dict.sorted_lt {ν : Type} (d : Dict ℕ ν) : d.sorted.Pairwise fun a b => a.1 < b.1 := by
  have hle : d.sorted.Pairwise fun a b => a.1 ≤ b.1 :=
    List.pairwise_insertionSort (fun a b : ℕ × ν => a.1 ≤ b.1) d.items
  have hne : d.sorted.Pairwise fun a b => a.1 ≠ b.1 := List.pairwise_map.mp d.nodup_sorted
  exact hle.imp₂ (fun a b => lt_of_le_of_ne) hne

/-- What holds of pairs in their order holds by their keys. -/
theorem Dict.rel_of_lt {ν : Type} {l : List (ℕ × ν)} (hl : l.Pairwise fun a b => a.1 < b.1) {R : ℕ × ν → ℕ × ν → Prop}
    (hR : l.Pairwise R) {a b : ℕ × ν} (ha : a ∈ l) (hb : b ∈ l) (hab : a.1 < b.1) : R a b := by
  induction l with
  | nil => simp at ha
  | cons c l ih =>
    obtain ⟨hc, hl⟩ := List.pairwise_cons.mp hl
    obtain ⟨hRc, hR⟩ := List.pairwise_cons.mp hR
    rcases List.mem_cons.mp ha with rfl | ha'
    · rcases List.mem_cons.mp hb with rfl | hb'
      · exact absurd hab (lt_irrefl _)
      · exact hRc b hb'
    · rcases List.mem_cons.mp hb with rfl | hb'
      · exact absurd hab (hc a ha').not_gt
      · exact ih hl hR ha' hb'

/-! ### Segments -/

theorem segment_smul (c : K) (a b : ℕ × K) (x : K) : segment (a.1, c * a.2) (b.1, c * b.2) x = c * segment a b x := by
  unfold segment
  ring

theorem segment_mono {a b a' b' : ℕ × K} {x : K} (ha : a.1 = a'.1 ∧ a.2 ≤ a'.2) (hb : b.1 = b'.1 ∧ b.2 ≤ b'.2)
    (hlt : a.1 < b.1) (hax : (a.1 : K) ≤ x) (hxb : x ≤ b.1) : segment a b x ≤ segment a' b' x := by
  have hwidth : (0 : K) < (b.1 : K) - a.1 := sub_pos.mpr (by exact_mod_cast hlt)
  have hmean : ∀ c d : ℕ × K, c.1 = a.1 → d.1 = b.1 →
      segment c d x = (c.2 * (b.1 - x) + d.2 * (x - a.1)) / ((b.1 : K) - a.1) := by
    intro c d hc hd
    rw [segment, hc, hd]
    field_simp
    ring
  rw [hmean a b rfl rfl, hmean a' b' ha.1.symm hb.1.symm]
  gcongr
  · exact ha.2
  · exact hb.2

namespace PrefillCost

/-- Every time of a table multiplied by `c`. -/
def scale (c : K) (points : List (ℕ × K)) : List (ℕ × K) := points.map fun a => (a.1, c * a.2)

theorem along_reached {L : ℕ} {a b : ℕ × K} {rest : List (ℕ × K)} (h : L ≤ b.1) :
    along L (a :: b :: rest) = segment a b L := by
  cases rest <;> simp [along, h]

theorem along_last {L : ℕ} {a b : ℕ × K} (h : ¬L ≤ b.1) :
    along L [a, b] = b.2 + (b.2 - a.2) * ((L : K) - b.1) / ((b.1 : K) - a.1) := by
  simp [along, h]

theorem along_next {L : ℕ} {a b c : ℕ × K} {rest : List (ℕ × K)} (h : ¬L ≤ b.1) :
    along L (a :: b :: c :: rest) = along L (b :: c :: rest) := by
  simp [along, h]

theorem along_scale (c : K) (L : ℕ) (points : List (ℕ × K)) : along L (scale c points) = c * along L points := by
  fun_induction along L points with
  | case1 a b rest h =>
    show along L ((a.1, c * a.2) :: (b.1, c * b.2) :: scale c rest) = _
    rw [along_reached (b := (b.1, c * b.2)) h, segment_smul]
  | case2 a b h =>
    show along L [(a.1, c * a.2), (b.1, c * b.2)] = _
    rw [along_last (b := (b.1, c * b.2)) h]
    ring
  | case3 a b h d rest ih =>
    rw [← ih]
    exact along_next (a := (a.1, c * a.2)) (b := (b.1, c * b.2)) h
  | case4 points hpoints =>
    rw [mul_zero]
    match points with
    | [] | [_] => rfl
    | a :: b :: rest => exact (hpoints a b rest rfl).elim

/-- Two tables of the same lengths, the second with no smaller time. -/
def Below (p q : List (ℕ × K)) : Prop := List.Forall₂ (fun a b => a.1 = b.1 ∧ a.2 ≤ b.2) p q

theorem along_mono {L : ℕ} {p q : List (ℕ × K)} (h : Below p q) (hp : p.Pairwise fun a b => a.1 < b.1)
    (hfirst : ∀ a ∈ p.head?, a.1 ≤ L) (hlast : ∃ a ∈ p, L ≤ a.1) : along L p ≤ along L q := by
  induction h with
  | nil => exact le_rfl
  | @cons a a' p q ha h ih =>
    cases h with
    | nil => exact le_rfl
    | @cons b b' p q hb h =>
      obtain ⟨habove, hp⟩ := List.pairwise_cons.mp hp
      have hab := habove b List.mem_cons_self
      by_cases hL : L ≤ b.1
      · rw [along_reached hL, along_reached (hb.1 ▸ hL)]
        exact segment_mono ha hb hab (by exact_mod_cast hfirst a rfl) (by exact_mod_cast hL)
      · -- The longest length is further on.
        have hnext : ∃ e ∈ b :: p, L ≤ e.1 := by
          obtain ⟨e, he, hle⟩ := hlast
          rcases List.mem_cons.mp he with rfl | he
          · exact absurd (hle.trans hab.le) hL
          · exact ⟨e, he, hle⟩
        have hrest := ih hp (fun e he => by obtain rfl := Option.some.inj he; exact (not_le.mp hL).le) hnext
        cases h with
        | nil =>
          obtain ⟨e, he, hle⟩ := hnext
          obtain rfl := List.mem_singleton.mp he
          exact absurd hle hL
        | cons hc h => rwa [along_next hL, along_next (hb.1 ▸ hL)]

/-- Between the measured lengths a larger table gives a larger cost. -/
theorem cost_mono {L : ℕ} {p q : List (ℕ × K)} (h : Below p q) (hp : p.Pairwise fun a b => a.1 < b.1)
    (hlast : ∃ a ∈ p, L ≤ a.1) : (⟨p⟩ : PrefillCost K).cost L ≤ (⟨q⟩ : PrefillCost K).cost L := by
  cases h with
  | nil => exact le_rfl
  | @cons a a' p q ha h =>
    cases h with
    | nil => exact le_rfl
    | @cons b b' p q hb h =>
      unfold cost
      dsimp only
      rw [← ha.1]
      split_ifs with hL
      · exact ha.2
      · exact along_mono (.cons ha (.cons hb h)) hp
          (fun e he => by obtain rfl := Option.some.inj he; exact (not_le.mp hL).le) hlast

theorem cost_scale (c : K) (L : ℕ) (p : List (ℕ × K)) :
    (⟨scale c p⟩ : PrefillCost K).cost L = c * (⟨p⟩ : PrefillCost K).cost L := by
  match p with
  | [] | [_] => exact (mul_zero c).symm
  | a :: b :: rest =>
    simp only [cost, scale, List.map_cons]
    split_ifs
    · rfl
    · exact along_scale c L (a :: b :: rest)

/-- Between the measured lengths the cost is not negative. -/
theorem cost_nonneg {L : ℕ} {p : List (ℕ × K)} (hp : p.Pairwise fun a b => a.1 < b.1) (htimes : ∀ a ∈ p, 0 ≤ a.2)
    (hlast : ∃ a ∈ p, L ≤ a.1) : 0 ≤ (⟨p⟩ : PrefillCost K).cost L := by
  have hbelow : Below (scale 0 p) p := by
    rw [Below, scale, List.forall₂_map_left_iff, List.forall₂_same]
    exact fun a ha => ⟨rfl, by rw [zero_mul]; exact htimes a ha⟩
  have hzero := cost_mono (L := L) hbelow (List.pairwise_map.mpr hp) (by
    obtain ⟨a, ha, hle⟩ := hlast
    exact ⟨_, List.mem_map_of_mem ha, hle⟩)
  rwa [cost_scale, zero_mul] at hzero

/-! ### Beyond the longest length -/

theorem along_beyond {L : ℕ} {pre : List (ℕ × K)} {a b : ℕ × K} (h : ∀ e ∈ pre ++ [a, b], e.1 < L) :
    along L (pre ++ [a, b]) = b.2 + (b.2 - a.2) * ((L : K) - b.1) / ((b.1 : K) - a.1) := by
  induction pre with
  | nil => exact along_last (not_le.mpr (h b (by simp)))
  | cons c pre ih =>
    have hrest := ih fun e he => h e (List.mem_cons_of_mem c he)
    cases pre with
    | nil => exact (along_next (not_le.mpr (h a (by simp)))).trans hrest
    | cons d pre =>
      have hd : ¬L ≤ d.1 := not_le.mpr (h d (by simp))
      cases pre with
      | nil => exact (along_next hd).trans hrest
      | cons e pre => exact (along_next hd).trans hrest

theorem cost_beyond {L : ℕ} {pre : List (ℕ × K)} {a b : ℕ × K} (h : ∀ e ∈ pre ++ [a, b], e.1 < L) :
    (⟨pre ++ [a, b]⟩ : PrefillCost K).cost L = b.2 + (b.2 - a.2) * ((L : K) - b.1) / ((b.1 : K) - a.1) := by
  rw [← along_beyond h]
  cases pre with
  | nil => exact if_neg (not_le.mpr (h a (by simp)))
  | cons c pre =>
    have hc : ¬L ≤ c.1 := not_le.mpr (h c (by simp))
    cases pre with
    | nil => exact if_neg hc
    | cons d pre => exact if_neg hc

/-- A cost is not negative exactly for a measured range, or where the fall of the last segment over the extra length
    does not use up the last measured time. So it is never negative exactly if the last segment does not fall. -/
theorem cost_nonneg_iff (table : Dict ℕ K) (htimes : ∀ e ∈ table.items, 0 ≤ e.2) {p : List (ℕ × K)} {a b : ℕ × K}
    (hlast : table.sorted = p ++ [a, b]) :
    (∀ L : ℕ, 0 ≤ (ofTable table).cost L ↔ L ≤ b.1 ∨ (a.2 - b.2) * ((L : K) - b.1) ≤ b.2 * ((b.1 : K) - a.1)) ∧
      ((∀ L : ℕ, 0 ≤ (ofTable table).cost L) ↔ a.2 ≤ b.2) := by
  have hsorted := table.sorted_lt
  have hsorted' : ∀ e ∈ p ++ [a], e.1 < b.1 := by
    rw [hlast, List.append_cons, List.pairwise_append] at hsorted
    exact fun e he => hsorted.2.2 e he b (List.mem_singleton_self b)
  have hb : 0 ≤ b.2 := htimes b (Dict.mem_sorted.mp (by rw [hlast]; simp))
  have hwidth : (0 : K) < (b.1 : K) - a.1 := sub_pos.mpr (by exact_mod_cast hsorted' a (by simp))
  have hpoint : ∀ L : ℕ, 0 ≤ (ofTable table).cost L ↔
      L ≤ b.1 ∨ (a.2 - b.2) * ((L : K) - b.1) ≤ b.2 * ((b.1 : K) - a.1) := by
    intro L
    by_cases hL : L ≤ b.1
    · refine iff_of_true ?_ (.inl hL)
      exact cost_nonneg hsorted (fun e he => htimes e (Dict.mem_sorted.mp he)) ⟨b, by rw [hlast]; simp, hL⟩
    · have hbeyond : ∀ e ∈ p ++ [a, b], e.1 < L := by
        intro e he
        rw [List.append_cons, List.mem_append, List.mem_singleton] at he
        rcases he with he | rfl
        · exact (hsorted' e he).trans (not_le.mp hL)
        · exact not_le.mp hL
      -- Beyond the table the cost is the last segment, prolonged.
      have hcost : (b.2 + (b.2 - a.2) * ((L : K) - b.1) / ((b.1 : K) - a.1)) * ((b.1 : K) - a.1)
          = b.2 * ((b.1 : K) - a.1) - (a.2 - b.2) * ((L : K) - b.1) := by
        field_simp
        ring
      rw [or_iff_right hL, ofTable, hlast, cost_beyond hbeyond, ← mul_nonneg_iff_of_pos_right hwidth, hcost, sub_nonneg]
  refine ⟨hpoint, fun hall => ?_, fun hle L => (hpoint L).mpr ?_⟩
  -- A segment that falls crosses zero, at some length beyond the table.
  · by_contra hfalls
    have hslope : 0 < a.2 - b.2 := sub_pos.mpr (not_le.mp hfalls)
    obtain ⟨L, hL⟩ := exists_nat_gt (b.2 * ((b.1 : K) - a.1) / (a.2 - b.2) + b.1)
    have hcross : b.2 * ((b.1 : K) - a.1) < (a.2 - b.2) * ((L : K) - b.1) := by
      rw [mul_comm (a.2 - b.2), ← div_lt_iff₀ hslope]
      exact lt_sub_iff_add_lt.mpr hL
    rcases (hpoint L).mp (hall L) with hmeasured | hwithin
    · have hnonneg : 0 ≤ b.2 * ((b.1 : K) - a.1) / (a.2 - b.2) := by positivity
      have hb' : (L : K) ≤ b.1 := by exact_mod_cast hmeasured
      linarith
    · exact hwithin.not_gt hcross
  · by_cases hL : L ≤ b.1
    · exact .inl hL
    · have hextra : (0 : K) ≤ (L : K) - b.1 := sub_nonneg.mpr (by exact_mod_cast (not_le.mp hL).le)
      exact .inr ((mul_nonpos_of_nonpos_of_nonneg (sub_nonpos.mpr hle) hextra).trans (mul_nonneg hb hwidth.le))

/-- The longest length measured faster than the one before it. -/
def fallingTable : Dict ℕ ℚ := Dict.ofList [(512, 60), (1024, 100), (2048, 90)]

/-- A prompt far beyond the longest length costs less than nothing. -/
theorem cost_fallingTable : ¬∀ (table : Dict ℕ ℚ), 2 ≤ table.items.length → (∀ e ∈ table.items, 0 ≤ e.2) →
    ∀ L : ℕ, 0 ≤ (ofTable table).cost L := fun h =>
  absurd (h fallingTable (by decide) (by decide +kernel) 20000) (by decide +kernel)

theorem cost_nonneg_iff_fallingTable : 0 ≤ (ofTable fallingTable).cost 4096 ∧ ¬0 ≤ (ofTable fallingTable).cost 20000 := by
  obtain ⟨hpoint, -⟩ := cost_nonneg_iff fallingTable (by decide +kernel) (p := [(512, 60)]) (a := (1024, 100))
    (b := (2048, 90)) (by decide +kernel)
  rw [hpoint, hpoint]
  norm_num

end PrefillCost

/-! ### The cost of a clock -/

namespace CostBook

omit [Scalar K] in
theorem lookup_ofTables (d : Dict ℕ (Dict ℕ K)) (k : ℕ) : (ofTables d).costs.lookup k =
    ((d.lookup k).filter fun t => decide (2 ≤ t.items.length)).map PrefillCost.ofTable := by
  have hsub := (List.filter_sublist (l := d.items) (p := fun e => decide (2 ≤ e.2.items.length))).map (·.1)
  have hnodup : (((d.items.filter fun e => 2 ≤ e.2.items.length).map fun e => (e.1, PrefillCost.ofTable e.2)).map
      (·.1)).Nodup := by
    rw [List.map_map]
    exact d.nodup_items.sublist hsub
  ext c
  rw [ofTables, Dict.lookup_ofList hnodup, Option.map_eq_some_iff, List.mem_map]
  constructor
  · rintro ⟨⟨k', t⟩, ht, he⟩
    obtain ⟨rfl, rfl⟩ := Prod.mk.inj he
    obtain ⟨hmem, hlen⟩ := List.mem_filter.mp ht
    exact ⟨t, Option.filter_eq_some_iff.mpr ⟨Dict.mem_items.mp hmem, hlen⟩, rfl⟩
  · rintro ⟨t, ht, rfl⟩
    obtain ⟨hmem, hlen⟩ := Option.filter_eq_some_iff.mp ht
    exact ⟨(k, t), List.mem_filter.mpr ⟨Dict.mem_items.mpr hmem, hlen⟩, rfl⟩

end CostBook
end CanaTune

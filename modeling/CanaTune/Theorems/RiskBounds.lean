import CanaTune.Domain.Risk
import CanaTune.Lib.Sorted

/-! The risk table against the risk it samples. Every well-sampled lighter cell bounds an estimate from below, and
    what bounds it from above is a heavier cell or a pool of heavier cells. So no cell is judged safer than it is,
    and two comparable cells keep their order unless a pool decides the heavier one. -/

namespace CanaTune
variable {K : Type} [Scalar K]

/-! ### The order of the cells -/

namespace Cell

/-- At the same clock: no fewer requests waiting, no shorter prompt, D no less busy. -/
structure Lighter (c c' : Cell) : Prop where
  clock : c'.clock = c.clock
  nAwait : c.nAwait ≤ c'.nAwait
  prompt : c.prompt ≤ c'.prompt
  dBusy : c.dBusy = true → c'.dBusy = true

instance : Preorder Cell where
  le := Lighter
  le_refl _ := ⟨rfl, le_rfl, le_rfl, id⟩
  le_trans _ _ _ h h' :=
    ⟨h'.clock.trans h.clock, h.nAwait.trans h'.nAwait, h.prompt.trans h'.prompt, fun hd => h'.dBusy (h.dBusy hd)⟩

theorem antisymm {c c' : Cell} (h : c ≤ c') (h' : c' ≤ c) : c = c' := by
  cases c with | mk clock nAwait prompt dBusy =>
  cases c' with | mk clock' nAwait' prompt' dBusy' =>
    have hd : dBusy = dBusy' := Bool.eq_iff_iff.mpr ⟨h.dBusy, h'.dBusy⟩
    rw [Cell.mk.injEq]
    exact ⟨h'.clock, h.nAwait.antisymm h'.nAwait, h.prompt.antisymm h'.prompt, hd⟩

/-- A cell of the grid. -/
def InGrid (b : Buckets) (c : Cell) : Prop := c.nAwait < b.rows ∧ c.prompt < b.cols

end Cell

theorem bisectLeft_le (edges : List ℕ) (value : ℤ) : bisectLeft edges value ≤ edges.length :=
  (List.takeWhile_sublist _).length_le

theorem bisectLeft_mono {edges : List ℕ} {x y : ℤ} (h : x ≤ y) : bisectLeft edges x ≤ bisectLeft edges y := by
  induction edges with
  | nil => exact le_rfl
  | cons e edges ih =>
    by_cases hx : (e : ℤ) < x
    · have hy : (e : ℤ) < y := hx.trans_le h
      simpa [bisectLeft, hx, hy] using ih
    · simp [bisectLeft, hx]

namespace RiskTable
variable {t : RiskTable} {c c' o : Cell}

theorem cell_inGrid (t : RiskTable) (clock : ClockPoint) (nAwait : ℤ) (promptTokens : ℕ) (dBusy : Bool) :
    (t.cell clock nAwait promptTokens dBusy).InGrid t.buckets :=
  ⟨Nat.lt_succ_of_le (bisectLeft_le _ _), Nat.lt_succ_of_le (bisectLeft_le _ _)⟩

/-- A lighter state falls into a lighter cell. -/
theorem cell_mono (t : RiskTable) (clock : ClockPoint) {nAwait nAwait' : ℤ} {tokens tokens' : ℕ} {dBusy dBusy' : Bool}
    (hn : nAwait ≤ nAwait') (ht : tokens ≤ tokens') (hd : dBusy = true → dBusy' = true) :
    t.cell clock nAwait tokens dBusy ≤ t.cell clock nAwait' tokens' dBusy' :=
  ⟨rfl, bisectLeft_mono hn, bisectLeft_mono (by exact_mod_cast ht), hd⟩

/-! ### The regions of an estimate -/

theorem mem_others {ds : List Bool} {is js : List ℕ} : o ∈ others c ds is js ↔
    o.clock = c.clock ∧ o.dBusy ∈ ds ∧ o.nAwait ∈ is ∧ o.prompt ∈ js ∧ o ≠ c := by
  simp only [others, List.mem_filter, List.mem_flatMap, List.mem_map, decide_eq_true_eq]
  constructor
  · rintro ⟨⟨d, hd, i, hi, j, hj, rfl⟩, hne⟩
    exact ⟨rfl, hd, hi, hj, hne⟩
  · rintro ⟨hclock, hd, hi, hj, hne⟩
    exact ⟨⟨o.dBusy, hd, o.nAwait, hi, o.prompt, hj, by rw [← hclock]⟩, hne⟩

theorem mem_lighterD {d : Bool} : d ∈ lighterD c ↔ (d = true → c.dBusy = true) := by
  unfold lighterD
  cases c.dBusy <;> cases d <;> simp

theorem mem_heavierD {d : Bool} : d ∈ heavierD c ↔ (c.dBusy = true → d = true) := by
  unfold heavierD
  cases c.dBusy <;> cases d <;> simp

theorem mem_lighter :
    o ∈ others c (lighterD c) (List.range (c.nAwait + 1)) (List.range (c.prompt + 1)) ↔ o ≤ c ∧ o ≠ c := by
  rw [mem_others, mem_lighterD, List.mem_range, List.mem_range, Nat.lt_succ_iff, Nat.lt_succ_iff]
  constructor
  · rintro ⟨hclock, hd, hi, hj, hne⟩
    exact ⟨⟨hclock.symm, hi, hj, hd⟩, hne⟩
  · rintro ⟨h, hne⟩
    exact ⟨h.clock.symm, h.dBusy, h.nAwait, h.prompt, hne⟩

theorem mem_range'_sub {i lo hi : ℕ} : i ∈ List.range' lo (hi - lo) ↔ lo ≤ i ∧ i < hi := by
  rw [List.mem_range'_1]
  omega

theorem mem_heavier : o ∈ others c (heavierD c) (List.range' c.nAwait (t.buckets.rows - c.nAwait))
    (List.range' c.prompt (t.buckets.cols - c.prompt)) ↔ c ≤ o ∧ o.InGrid t.buckets ∧ o ≠ c := by
  rw [mem_others, mem_heavierD, mem_range'_sub, mem_range'_sub]
  constructor
  · rintro ⟨hclock, hd, hi, hj, hne⟩
    exact ⟨⟨hclock, hi.1, hj.1, hd⟩, ⟨hi.2, hj.2⟩, hne⟩
  · rintro ⟨h, hgrid, hne⟩
    exact ⟨h.clock, h.dBusy, ⟨h.nAwait, hgrid.1⟩, ⟨h.prompt, hgrid.2⟩, hne⟩

/-- The row of `c` from its prompt on, or its column from its queue on. -/
def regions (t : RiskTable) (c : Cell) : List (List (ℕ × ℕ)) :=
  [(List.range' c.prompt (t.buckets.cols - c.prompt)).map fun j => (c.nAwait, j),
    (List.range' c.nAwait (t.buckets.rows - c.nAwait)).map fun i => (i, c.prompt)]

/-- No cell of either region is lighter than `c`. -/
theorem le_of_mem_regions {region : List (ℕ × ℕ)} {d : Bool} {ij : ℕ × ℕ} (hr : region ∈ t.regions c)
    (hd : d ∈ heavierD c) (hij : ij ∈ region) : c ≤ ⟨c.clock, ij.1, ij.2, d⟩ := by
  have hpair : c.nAwait ≤ ij.1 ∧ c.prompt ≤ ij.2 := by
    simp only [regions, List.mem_cons, List.not_mem_nil, or_false] at hr
    rcases hr with rfl | rfl
    · obtain ⟨j, hj, rfl⟩ := List.mem_map.mp hij
      exact ⟨le_rfl, (mem_range'_sub.mp hj).1⟩
    · obtain ⟨i, hi, rfl⟩ := List.mem_map.mp hij
      exact ⟨(mem_range'_sub.mp hi).1, le_rfl⟩
  exact ⟨rfl, hpair.1, hpair.2, mem_heavierD.mp hd⟩

/-! ### The floor -/

theorem mem_risks {l : List Cell} {x : K} :
    x ∈ l.filterMap (fun o => (t.own o : Option (RiskEstimate K)).map (·.risk)) ↔
      ∃ o ∈ l, ∃ e : RiskEstimate K, t.own o = some e ∧ e.risk = x := by
  simp only [List.mem_filterMap, Option.map_eq_some_iff]

theorem lower_nonneg (t : RiskTable) (c : Cell) : (0 : K) ≤ t.lower c := le_foldl_max (.inl le_rfl)

/-- A well-sampled lighter cell is under the floor. -/
theorem le_lower {e : RiskEstimate K} (h : o ≤ c) (hne : o ≠ c) (he : t.own o = some e) : e.risk ≤ t.lower c :=
  le_foldl_max (.inr (mem_risks.mpr ⟨o, mem_lighter.mpr ⟨h, hne⟩, e, he, rfl⟩))

theorem lower_le {b : K} (hb : 0 ≤ b)
    (h : ∀ o ≤ c, o ≠ c → ∀ e : RiskEstimate K, t.own o = some e → e.risk ≤ b) : t.lower c ≤ b := by
  refine foldl_max_le hb fun x hx => ?_
  obtain ⟨o, ho, e, he, rfl⟩ := mem_risks.mp hx
  obtain ⟨hle, hne⟩ := mem_lighter.mp ho
  exact h o hle hne e he

/-! ### The bounds from above -/

theorem heavier_le {e : RiskEstimate K} (h : c ≤ o) (hgrid : o.InGrid t.buckets) (hne : o ≠ c) (he : t.own o = some e) :
    ∃ u : K, t.heavier c = some u ∧ u ≤ e.risk := by
  have hmem := mem_risks.mpr ⟨o, mem_heavier.mpr ⟨h, hgrid, hne⟩, e, he, rfl⟩
  cases hu : (t.heavier c : Option K) with
  | none =>
    rw [heavier, List.min?_eq_none_iff] at hu
    rw [hu] at hmem
    exact absurd hmem List.not_mem_nil
  | some u => exact ⟨u, rfl, (List.min?_eq_some_iff.mp hu).2 _ hmem⟩

theorem exists_of_heavier {u : K} (hu : t.heavier c = some u) :
    ∃ o, c ≤ o ∧ o.InGrid t.buckets ∧ o ≠ c ∧ ∃ e : RiskEstimate K, t.own o = some e ∧ e.risk = u := by
  obtain ⟨o, ho, e, he, hrisk⟩ := mem_risks.mp (List.min?_eq_some_iff.mp hu).1
  obtain ⟨hle, hgrid, hne⟩ := mem_heavier.mp ho
  exact ⟨o, hle, hgrid, hne, e, he, hrisk⟩

/-- Pooling keeps what sums keep. -/
theorem pooled_of_add {P : ℕ → ℕ → Prop} (hzero : P 0 0)
    (hadd : ∀ {m n m' n'}, P m n → P m' n' → P (m + m') (n + n')) {region : List (ℕ × ℕ)} (hr : region ∈ t.regions c)
    (h : ∀ o, c ≤ o → ∀ s, t.cells.lookup o = some s → P s.admitted s.violated) :
    P (t.pooled c region).1 (t.pooled c region).2 := by
  have hfold : ∀ (l : List CellStats) (a : ℕ × ℕ), P a.1 a.2 → (∀ s ∈ l, P s.admitted s.violated) →
      P (l.foldl (fun a s => (a.1 + s.admitted, a.2 + s.violated)) a).1
        (l.foldl (fun a s => (a.1 + s.admitted, a.2 + s.violated)) a).2 := by
    intro l
    induction l with
    | nil => exact fun _ ha _ => ha
    | cons s l ih =>
      exact fun a ha hl => ih _ (hadd ha (hl s List.mem_cons_self)) fun u hu => hl u (List.mem_cons_of_mem s hu)
  refine hfold _ _ hzero fun s hs => ?_
  obtain ⟨d, hd, hs⟩ := List.mem_flatMap.mp hs
  obtain ⟨ij, hij, hs⟩ := List.mem_filterMap.mp hs
  exact h _ (le_of_mem_regions hr hd hij) s hs

theorem pooled_pos {region : List (ℕ × ℕ)} (hn : t.minSamples ≤ (t.pooled c region).1) :
    (0 : K) < (t.pooled c region).1 := by
  exact_mod_cast t.minSamples_pos.trans_le hn

/-! ### What decides an estimate -/

/-- The upper bound after the pools: the heavier cells' own, or a pooled rate below it. -/
inductive Bounded (t : RiskTable) (c : Cell) : Option K × RiskSource → Prop
  | heavier : Bounded t c (t.heavier c, .heavierBound)
  | pooled (region : List (ℕ × ℕ)) (rate : K) : region ∈ t.regions c → t.minSamples ≤ (t.pooled c region).1 →
      rate = (t.pooled c region).2 / (t.pooled c region).1 → (∀ u, t.heavier c = some u → rate < u) →
      Bounded t c (some rate, .pooledBound)

theorem Bounded.step {acc : Option K × RiskSource} {region : List (ℕ × ℕ)} (h : Bounded t c acc)
    (hr : region ∈ t.regions c) : Bounded t c (t.pooledStep c acc region) := by
  unfold pooledStep
  dsimp only
  split_ifs with hn
  · cases h with
    | heavier =>
      cases hu : (t.heavier c : Option K) with
      | none => exact .pooled region _ hr hn rfl fun u hu' => by simp [hu] at hu'
      | some u =>
        dsimp only
        split_ifs with hlt
        · refine .pooled region _ hr hn rfl fun u' hu' => ?_
          rw [hu, Option.some.injEq] at hu'
          exact hu' ▸ hlt
        · exact hu ▸ .heavier
    | pooled region' rate hr' hn' hrate hbelow =>
      dsimp only
      split_ifs with hlt
      · exact .pooled region _ hr hn rfl fun u hu => hlt.trans (hbelow u hu)
      · exact .pooled region' rate hr' hn' hrate hbelow
  · exact h

/-- The four ways an estimate comes about. -/
inductive Estimated (t : RiskTable) (c : Cell) : RiskEstimate K → Prop
  | own (e : RiskEstimate K) : t.own c = some e → Estimated t c ⟨max e.risk (t.lower c), e.source, e.samples⟩
  | unknown : (t.own c : Option (RiskEstimate K)) = none → (t.heavier c : Option K) = none →
      Estimated t c ⟨1, .unknown, 0⟩
  | heavier (u : K) : (t.own c : Option (RiskEstimate K)) = none → t.heavier c = some u →
      Estimated t c ⟨max u (t.lower c), .heavierBound, 0⟩
  | pooled (region : List (ℕ × ℕ)) (rate : K) : (t.own c : Option (RiskEstimate K)) = none → region ∈ t.regions c →
      t.minSamples ≤ (t.pooled c region).1 → rate = (t.pooled c region).2 / (t.pooled c region).1 →
      (∀ u, t.heavier c = some u → rate < u) → Estimated t c ⟨max rate (t.lower c), .pooledBound, 0⟩

theorem estimated (t : RiskTable) (c : Cell) : Estimated t c (t.estimate c : RiskEstimate K) := by
  unfold estimate
  cases hown : (t.own c : Option (RiskEstimate K)) with
  | some e => exact .own e hown
  | none =>
    have hb : Bounded t c ((t.regions c).foldl (t.pooledStep c) ((t.heavier c : Option K), .heavierBound)) :=
      (Bounded.heavier.step (by simp [regions])).step (by simp [regions])
    dsimp only
    rw [← regions.eq_def]
    generalize (t.regions c).foldl (t.pooledStep c) ((t.heavier c : Option K), .heavierBound) = acc at hb ⊢
    cases hb with
    | heavier =>
      cases hu : (t.heavier c : Option K) with
      | none => exact .unknown hown hu
      | some u => exact .heavier u hown hu
    | pooled region rate hr hn hrate hbelow => exact .pooled region rate hown hr hn hrate hbelow

/-! ### No cell is judged safer than it is -/

theorem own_eq_some {e : RiskEstimate K} (h : t.own c = some e) :
    ∃ s, t.cells.lookup c = some s ∧ t.minSamples ≤ s.admitted ∧ e = ⟨s.violated / s.admitted, .observed, s.admitted⟩ := by
  unfold own at h
  split at h
  · cases h
  case h_2 s hs =>
    split_ifs at h with hn
    rw [Option.some.injEq] at h
    exact ⟨s, hs, hn, h.symm⟩

/-- Every record of the table is a sample of `r`. -/
def Samples (t : RiskTable) (r : Cell → K) : Prop :=
  ∀ c s, t.cells.lookup c = some s → 0 < s.admitted → (s.violated : K) / s.admitted = r c

section Samples
variable {r : Cell → K} (hr : t.Samples r)
include hr

theorem Samples.own {e : RiskEstimate K} (h : t.own c = some e) : e.risk = r c := by
  obtain ⟨s, hs, hn, rfl⟩ := own_eq_some h
  exact hr c s hs (t.minSamples_pos.trans_le hn)

theorem Samples.lower_le (hmono : Monotone r) (h0 : ∀ c, 0 ≤ r c) (c : Cell) : t.lower c ≤ r c :=
  RiskTable.lower_le (h0 c) fun _ hle _ _ he => (hr.own he).trans_le (hmono hle)

/-- A sparse record counts too: its violations are its share of `r`, which is at least the lighter cell's. -/
theorem Samples.le_pooled (hmono : Monotone r) {region : List (ℕ × ℕ)} (hregion : region ∈ t.regions c)
    (hn : t.minSamples ≤ (t.pooled c region).1) : r c ≤ ((t.pooled c region).2 : K) / (t.pooled c region).1 := by
  rw [le_div_iff₀ (pooled_pos hn)]
  refine pooled_of_add (P := fun m n => r c * m ≤ n) (by simp) (fun h h' => ?_) hregion fun o hle s hs => ?_
  · push_cast
    rw [mul_add]
    exact add_le_add h h'
  rcases s.admitted.eq_zero_or_pos with hz | hpos
  · simp [hz]
  · have hsample := hr o s hs hpos
    rw [div_eq_iff (by exact_mod_cast hpos.ne')] at hsample
    rw [hsample]
    exact mul_le_mul_of_nonneg_right (hmono hle) (Nat.cast_nonneg _)

end Samples

/-- The table is conservative: no estimate is below the risk that the records sample, and a cell with enough
    records of its own has exactly that risk. -/
theorem estimate_conservative (t : RiskTable) (r : Cell → K) (hunit : ∀ c, 0 ≤ r c ∧ r c ≤ 1) (hmono : Monotone r)
    (hr : t.Samples r) (c : Cell) :
    r c ≤ (t.estimate c : RiskEstimate K).risk ∧
      ∀ s, t.cells.lookup c = some s → t.minSamples ≤ s.admitted → (t.estimate c : RiskEstimate K).risk = r c := by
  have hlower := hr.lower_le hmono (fun c => (hunit c).1) c
  have hsparse : (t.own c : Option (RiskEstimate K)) = none →
      ∀ s, t.cells.lookup c = some s → t.minSamples ≤ s.admitted → False := by
    intro hown s hs hn
    simp [own, hs, hn] at hown
  have h := estimated (K := K) t c
  generalize (t.estimate c : RiskEstimate K) = e at h ⊢
  cases h with
  | own e he =>
    have hrisk := hr.own he
    exact ⟨hrisk.ge.trans (le_max_left _ _), fun _ _ _ => by rw [hrisk, max_eq_left hlower]⟩
  | unknown hown _ => exact ⟨(hunit c).2, fun s hs hn => (hsparse hown s hs hn).elim⟩
  | heavier u hown hu =>
    obtain ⟨o, hle, -, -, e, he, rfl⟩ := exists_of_heavier hu
    have hrisk := (hmono hle).trans (hr.own he).ge
    exact ⟨hrisk.trans (le_max_left _ _), fun s hs hn => (hsparse hown s hs hn).elim⟩
  | pooled region rate hown hregion hn hrate _ =>
    have hrisk := (hr.le_pooled hmono hregion hn).trans hrate.ge
    exact ⟨hrisk.trans (le_max_left _ _), fun s hs hn => (hsparse hown s hs hn).elim⟩

/-- Two samples without a violation before a busy D, two with one behind a waiting request. -/
def sampled : RiskTable where
  buckets := ⟨[0, 1], [128, 512, 1024], by decide, by decide⟩
  minSamples := 2
  minSamples_pos := by decide
  cells := ((∅ : Dict Cell CellStats).insert ⟨⟨1815, 1050⟩, 0, 0, true⟩ ⟨2, 0⟩).insert ⟨⟨1815, 1050⟩, 1, 1, true⟩ ⟨2, 1⟩
  visits := ∅

theorem sampled_cases {c : Cell} {s : CellStats} (hs : sampled.cells.lookup c = some s) :
    c = ⟨⟨1815, 1050⟩, 1, 1, true⟩ ∧ s = ⟨2, 1⟩ ∨ c = ⟨⟨1815, 1050⟩, 0, 0, true⟩ ∧ s = ⟨2, 0⟩ := by
  rcases Classical.em (c = ⟨⟨1815, 1050⟩, 1, 1, true⟩) with rfl | hc
  · rw [sampled, AList.lookup_insert, Option.some.injEq] at hs
    exact .inl ⟨rfl, hs.symm⟩
  rw [sampled, AList.lookup_insert_ne hc] at hs
  rcases Classical.em (c = ⟨⟨1815, 1050⟩, 0, 0, true⟩) with rfl | hc'
  · rw [AList.lookup_insert, Option.some.injEq] at hs
    exact .inr ⟨rfl, hs.symm⟩
  · rw [AList.lookup_insert_ne hc'] at hs
    cases hs

/-- One violation in two once a request waits. -/
def waitingRisk (c : Cell) : ℚ := if 1 ≤ c.nAwait then 1 / 2 else 0

theorem waitingRisk_mono : Monotone waitingRisk := by
  intro c c' h
  have hn := h.nAwait
  unfold waitingRisk
  by_cases h1 : 1 ≤ c.nAwait
  · rw [if_pos h1, if_pos (h1.trans hn)]
  · rw [if_neg h1]
    split_ifs <;> norm_num

theorem sampled_samples : sampled.Samples waitingRisk := by
  intro c s hs _
  rcases sampled_cases hs with ⟨rfl, rfl⟩ | ⟨rfl, rfl⟩ <;> norm_num [waitingRisk]

/-- The cell between the two records is bounded by the heavier one, which keeps its own rate. -/
theorem estimate_conservative_sampled :
    waitingRisk ⟨⟨1815, 1050⟩, 0, 1, true⟩ ≤ (sampled.estimate ⟨⟨1815, 1050⟩, 0, 1, true⟩ : RiskEstimate ℚ).risk ∧
      (sampled.estimate ⟨⟨1815, 1050⟩, 1, 1, true⟩ : RiskEstimate ℚ).risk = waitingRisk ⟨⟨1815, 1050⟩, 1, 1, true⟩ := by
  have hunit : ∀ c, 0 ≤ waitingRisk c ∧ waitingRisk c ≤ 1 := by
    intro c
    unfold waitingRisk
    split_ifs <;> norm_num
  exact ⟨(estimate_conservative sampled waitingRisk hunit waitingRisk_mono sampled_samples _).1,
    (estimate_conservative sampled waitingRisk hunit waitingRisk_mono sampled_samples _).2 ⟨2, 1⟩ rfl le_rfl⟩

/-! ### The order of the estimates -/

/-- A heavier cell with enough records of its own bounds a sparse one. -/
theorem estimate_le_of_own {e : RiskEstimate K} (h : c ≤ c') (hne : c' ≠ c) (hgrid : c'.InGrid t.buckets)
    (hown : (t.own c : Option (RiskEstimate K)) = none) (he : t.own c' = some e) :
    (t.estimate c : RiskEstimate K).risk ≤ max e.risk (t.lower c) := by
  obtain ⟨u, hu, hle⟩ := heavier_le h hgrid hne he
  have hest := estimated (K := K) t c
  generalize (t.estimate c : RiskEstimate K) = x at hest ⊢
  cases hest with
  | own x hx => simp [hown] at hx
  | unknown _ hno => simp [hno] at hu
  | heavier u' _ hu' =>
    rw [hu, Option.some.injEq] at hu'
    exact max_le_max_right _ (hu' ▸ hle)
  | pooled _ rate _ _ _ _ hbelow => exact max_le_max_right _ ((hbelow u hu).le.trans hle)

theorem lower_mono (h : c ≤ c') : (t.lower c : K) ≤ t.lower c' := by
  refine lower_le (lower_nonneg t c') fun o ho hne e he => ?_
  refine le_lower (ho.trans h) (fun heq => ?_) he
  exact hne (Cell.antisymm ho (heq ▸ h))

/-- A well-sampled cell is under everything heavier. -/
theorem own_le_estimate {e : RiskEstimate K} (h : c ≤ c') (hne : c' ≠ c) (he : t.own c = some e) :
    max e.risk (t.lower c) ≤ (t.estimate c' : RiskEstimate K).risk ∨
      (t.estimate c' : RiskEstimate K).source = .unknown := by
  have hlow : max e.risk (t.lower c) ≤ t.lower c' := max_le (le_lower h hne.symm he) (lower_mono h)
  have hest := estimated (K := K) t c'
  generalize (t.estimate c' : RiskEstimate K) = x at hest ⊢
  cases hest with
  | own x hx => exact .inl (hlow.trans (le_max_right _ _))
  | unknown => exact .inr rfl
  | heavier => exact .inl (hlow.trans (le_max_right _ _))
  | pooled => exact .inl (hlow.trans (le_max_right _ _))

/-- No cell has more violations than requests. -/
def Consistent (t : RiskTable) : Prop := ∀ c s, t.cells.lookup c = some s → s.violated ≤ s.admitted

theorem consistent_fresh (buckets : Buckets) (minSamples : ℕ) (h : 0 < minSamples) :
    (fresh buckets minSamples h).Consistent := fun c s hs => by
  simp [fresh] at hs

theorem Consistent.record (h : t.Consistent) (c : Cell) (violated : Bool) : (t.record c violated).Consistent := by
  intro o s hs
  have hold : ((t.cells.lookup c).getD ⟨0, 0⟩).violated ≤ ((t.cells.lookup c).getD ⟨0, 0⟩).admitted := by
    cases hc : t.cells.lookup c with
    | none => exact le_rfl
    | some s => exact h c s hc
  by_cases ho : o = c
  · subst ho
    rw [RiskTable.record, AList.lookup_insert, Option.some.injEq] at hs
    rw [← hs]
    exact Nat.add_le_add hold (Bool.toNat_le violated)
  · rw [RiskTable.record, AList.lookup_insert_ne ho] at hs
    exact h o s hs

section Consistent
variable (h : t.Consistent)
include h

theorem Consistent.own_le_one {e : RiskEstimate K} (he : t.own c = some e) : e.risk ≤ 1 := by
  obtain ⟨s, hs, hn, rfl⟩ := own_eq_some he
  have hpos : (0 : K) < s.admitted := by exact_mod_cast t.minSamples_pos.trans_le hn
  rw [div_le_one hpos]
  exact_mod_cast h c s hs

theorem Consistent.estimate_le_one (c : Cell) : (t.estimate c : RiskEstimate K).risk ≤ 1 := by
  have hlower : (t.lower c : K) ≤ 1 := lower_le zero_le_one fun _ _ _ _ he => h.own_le_one he
  have hest := estimated (K := K) t c
  generalize (t.estimate c : RiskEstimate K) = x at hest ⊢
  cases hest with
  | own e he => exact max_le (h.own_le_one he) hlower
  | unknown => exact le_rfl
  | heavier u _ hu =>
    obtain ⟨o, -, -, -, e, he, rfl⟩ := exists_of_heavier hu
    exact max_le (h.own_le_one he) hlower
  | pooled region rate _ hregion hn hrate _ =>
    have hpool : (t.pooled c region).2 ≤ (t.pooled c region).1 :=
      pooled_of_add (P := fun m n => n ≤ m) le_rfl Nat.add_le_add hregion fun o _ s hs => h o s hs
    refine max_le ?_ hlower
    rw [hrate, div_le_one (pooled_pos hn)]
    exact_mod_cast hpool

end Consistent

/-- The lighter cell has enough records of its own, or no pool decides the heavier one. -/
def Comparable (K : Type) [Scalar K] (t : RiskTable) (c c' : Cell) : Prop :=
  (t.own c : Option (RiskEstimate K)).isSome = true ∨ (t.estimate c' : RiskEstimate K).source ≠ .pooledBound

theorem Consistent.mono (h : t.Consistent) (hle : c ≤ c') (hgrid : c'.InGrid t.buckets) (hcmp : Comparable K t c c') :
    (t.estimate c : RiskEstimate K).risk ≤ (t.estimate c' : RiskEstimate K).risk := by
  by_cases hne : c' = c
  · rw [hne]
  have hone := h.estimate_le_one (K := K) c
  have hlow := lower_mono (K := K) (t := t) hle
  -- By where the lighter cell's estimate comes from: its own records, or those of a heavier cell.
  cases hown : (t.own c : Option (RiskEstimate K)) with
  | some e =>
    have hc : (t.estimate c : RiskEstimate K).risk = max e.risk (t.lower c) := by simp [estimate, hown]
    rcases own_le_estimate hle hne hown with hbound | hunknown
    · exact hc.trans_le hbound
    · have hest := estimated (K := K) t c'
      generalize (t.estimate c' : RiskEstimate K) = x at hest hunknown ⊢
      cases hest with
      | own e' he' =>
        obtain ⟨s, -, -, rfl⟩ := own_eq_some he'
        cases hunknown
      | unknown => exact hone
      | heavier => cases hunknown
      | pooled => cases hunknown
  | none =>
    have hpool : (t.estimate c' : RiskEstimate K).source ≠ .pooledBound := hcmp.resolve_left (by simp [hown])
    have hest := estimated (K := K) t c'
    generalize (t.estimate c' : RiskEstimate K) = x at hest hpool ⊢
    cases hest with
    | own e he => exact (estimate_le_of_own hle hne hgrid hown he).trans (max_le_max_left _ hlow)
    | unknown => exact hone
    | heavier u _ hu =>
      obtain ⟨o, hc', hogrid, hone', e, he, rfl⟩ := exists_of_heavier hu
      have hne' : o ≠ c := by
        rintro rfl
        exact hone' (Cell.antisymm hle hc')
      exact (estimate_le_of_own (hle.trans hc') hne' hogrid hown he).trans (max_le_max_left _ hlow)
    | pooled => exact absurd rfl hpool

/-- Estimates keep the order of the cells, and a state that is admitted stays so with less work, as long as the
    lighter cell has enough records of its own or no pool decides the heavier one. -/
theorem estimate_mono (t : RiskTable) (h : t.Consistent) :
    (∀ c c' : Cell, c ≤ c' → c'.InGrid t.buckets → Comparable K t c c' →
      (t.estimate c : RiskEstimate K).risk ≤ (t.estimate c' : RiskEstimate K).risk) ∧
    ∀ (clock : ClockPoint) (nAwait nAwait' : ℤ) (tokens tokens' : ℕ) (dBusy dBusy' : Bool) (theta : K),
      nAwait ≤ nAwait' → tokens ≤ tokens' → (dBusy = true → dBusy' = true) →
      Comparable K t (t.cell clock nAwait tokens dBusy) (t.cell clock nAwait' tokens' dBusy') →
      (t.lookup clock nAwait' tokens' dBusy').1.risk ≤ theta → (t.lookup clock nAwait tokens dBusy).1.risk ≤ theta := by
  refine ⟨fun c c' hle hgrid hcmp => h.mono hle hgrid hcmp, ?_⟩
  intro clock nAwait nAwait' tokens tokens' dBusy dBusy' theta hn ht hd hcmp hadmitted
  exact (h.mono (t.cell_mono clock hn ht hd) (t.cell_inGrid clock nAwait' tokens' dBusy') hcmp).trans hadmitted

/-- The records of `sampled` keep their order, and so do the states of a group they decide. -/
theorem estimate_mono_sampled :
    (sampled.estimate ⟨⟨1815, 1050⟩, 0, 0, true⟩ : RiskEstimate ℚ).risk ≤
      (sampled.estimate ⟨⟨1815, 1050⟩, 1, 1, true⟩).risk ∧
    (sampled.lookup ⟨1815, 1050⟩ 0 100 true : RiskEstimate ℚ × RiskTable).1.risk ≤ 1 / 2 := by
  have hcons : sampled.Consistent := by
    intro c s hs
    rcases sampled_cases hs with ⟨-, rfl⟩ | ⟨-, rfl⟩ <;> decide
  exact ⟨(estimate_mono sampled hcons).1 _ _ ⟨rfl, by decide, by decide, id⟩ ⟨by decide, by decide⟩ (.inl (by decide)),
    (estimate_mono sampled hcons).2 ⟨1815, 1050⟩ 0 1 100 500 true true _ (by decide) (by decide) id (.inl (by decide))
      (by decide +kernel)⟩

/-- Three queue buckets and four prompt buckets, two samples enough. -/
def sparse : RiskTable :=
  ((fresh ⟨[0, 1], [128, 512, 1024], by decide, by decide⟩ 2 (by decide)).record ⟨⟨1815, 1050⟩, 1, 2, true⟩ false).record
    ⟨⟨1815, 1050⟩, 1, 3, true⟩ false

theorem sparse_consistent : sparse.Consistent := ((consistent_fresh _ _ _).record _ _).record _ _

/-- A pool decides the heavier cell and nothing the lighter one: the estimates are out of order. -/
theorem estimate_not_mono : ¬ ∀ (t : RiskTable) (c c' : Cell), t.Consistent → c ≤ c' → c'.InGrid t.buckets →
    (t.estimate c : RiskEstimate ℚ).risk ≤ (t.estimate c').risk := by
  intro h
  have hle : (⟨⟨1815, 1050⟩, 0, 0, true⟩ : Cell) ≤ ⟨⟨1815, 1050⟩, 1, 1, true⟩ := ⟨rfl, by decide, by decide, id⟩
  exact absurd (h sparse _ _ sparse_consistent hle ⟨by decide, by decide⟩) (by decide +kernel)

end RiskTable
end CanaTune

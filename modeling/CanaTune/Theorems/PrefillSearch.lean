import CanaTune.Controller.Search
import Mathlib.Tactic.Linarith

/-! The search of the P clock returns a clock it measured, feasible and near-optimal, and no lookup on the way fails:
    what a search measured only grows, and the clock at the feasible end keeps a known energy. -/

namespace CanaTune
variable {K σ : Type} [Scalar K]

/-! ### Clock grids -/

theorem snap_mem {grid : List ℕ} (h : grid ≠ []) (mhz : K) : ∃ f ∈ grid, snap grid mhz = .ok f := by
  unfold snap
  cases hmin : grid.argmin fun f : ℕ => toLex (|(f : K) - mhz|, f) with
  | none => exact (h (List.argmin_eq_none.mp hmin)).elim
  | some f => exact ⟨f, List.argmin_mem hmin, rfl⟩

/-- A clock of the grid is its own nearest clock. -/
theorem snap_self {grid : List ℕ} {f : ℕ} (hf : f ∈ grid) : snap grid (f : K) = .ok f := by
  unfold snap
  cases hmin : grid.argmin fun g : ℕ => toLex (|(g : K) - f|, g) with
  | none => exact (List.ne_nil_of_mem hf (List.argmin_eq_none.mp hmin)).elim
  | some g =>
    have hle := List.le_of_mem_argmin (f := fun g : ℕ => toLex (|(g : K) - f|, g)) hf hmin
    have hgf : (g : K) = f := by
      rcases Prod.Lex.toLex_le_toLex.mp hle with h | ⟨h, -⟩
      · rw [sub_self, abs_zero] at h
        exact (not_lt.mpr (abs_nonneg _) h).elim
      · rw [sub_self, abs_zero, abs_eq_zero] at h
        exact sub_eq_zero.mp h
    rw [Nat.cast_inj.mp hgf]

theorem spread_subset {grid : List ℕ} (h : grid ≠ []) (low high n : ℕ) :
    ∃ fs : List ℕ, spread (K := K) grid low high n = .ok fs ∧ ∀ f ∈ fs, f ∈ grid := by
  unfold spread
  split
  · obtain ⟨f, hf, hsnap⟩ := snap_mem h (high : K)
    rw [hsnap]
    refine ⟨[f], rfl, ?_⟩
    intro g hg
    rw [List.mem_singleton.mp hg]
    exact hf
  · obtain ⟨fs, hfs, -⟩ := mapM_total (l := List.range n)
      (f := fun i => snap grid ((low : K) + ((high : K) - low) * i / ((n : K) - 1))) fun i _ => by
        obtain ⟨f, -, hsnap⟩ := snap_mem h ((low : K) + ((high : K) - low) * i / ((n : K) - 1))
        exact ⟨f, hsnap⟩
    rw [hfs]
    refine ⟨_, rfl, ?_⟩
    intro f hf
    have hmem : f ∈ fs := List.mem_dedup.mp ((List.mem_insertionSort _).mp hf)
    obtain ⟨i, -, hsnap⟩ := exists_of_mapM_ok hfs hmem
    obtain ⟨g, hg, hsnap'⟩ := snap_mem h ((low : K) + ((high : K) - low) * i / ((n : K) - 1))
    rw [hsnap'] at hsnap
    rw [← Except.ok.inj hsnap]
    exact hg

theorem mem_items_filter {ν : Type} {d : Dict ℕ ν} {p : ℕ → ν → Bool} {k : ℕ} {v : ν} :
    (k, v) ∈ (d.filter p).items ↔ (k, v) ∈ d.items ∧ p k v = true := by
  simp only [Dict.items, Dict.filter, List.mem_map, List.mem_filter, Prod.mk.injEq]
  constructor
  · rintro ⟨e, ⟨he, hp⟩, rfl, rfl⟩
    exact ⟨⟨e, he, rfl, rfl⟩, hp⟩
  · rintro ⟨⟨e, he, rfl, rfl⟩, hp⟩
    exact ⟨e, ⟨he, hp⟩, rfl, rfl⟩

/-! ### What a search measured -/

/-- An energy that is known is not negative. -/
def NonNegEnergy (w : WindowResult K) : Prop := ∀ e ∈ w.prefillJ, 0 ≤ e

namespace PrefillScan
variable {b : ProbeBackend K σ} {q : PrefillQuery K} {l : TierLocator K σ} {s s' : PrefillScan K σ}

/-- A feasible clock with a known energy. -/
def Cheap (s : PrefillScan K σ) (f : ℕ) (e : K) : Prop :=
  ∃ w, s.meas.lookup f = some w ∧ s.settings.feasible w = true ∧ w.prefillJ = some e

theorem lookup_feasibleEnergy {f : ℕ} {e : K} : s.feasibleEnergy.lookup f = some e ↔ s.Cheap f e := by
  rw [feasibleEnergy, Dict.lookup_mapValues, Option.map_eq_some_iff]
  constructor
  · rintro ⟨w, hw, he⟩
    have hmem := mem_items_filter.mp (Dict.mem_items.mpr hw)
    rw [Bool.and_eq_true, Option.isSome_iff_exists] at hmem
    obtain ⟨hmem, hfeasible, e', he'⟩ := hmem
    refine ⟨w, Dict.mem_items.mp hmem, hfeasible, ?_⟩
    rw [he'] at he ⊢
    exact congrArg some he
  · rintro ⟨w, hw, hfeasible, he⟩
    refine ⟨w, Dict.mem_items.mp (mem_items_filter.mpr ⟨Dict.mem_items.mpr hw, ?_⟩), by rw [he]; rfl⟩
    rw [Bool.and_eq_true, he]
    exact ⟨hfeasible, rfl⟩

/-- The windows of a search started at `l`: clocks of its grid, energies not negative, every window in the results. -/
structure Scanned (q : PrefillQuery K) (l : TierLocator K σ) (s : PrefillScan K σ) : Prop where
  grid : ∀ f w, s.meas.lookup f = some w → f ∈ q.grid
  energy : ∀ f w, s.meas.lookup f = some w → NonNegEnergy w
  cache : s.locator.CacheHolds fun _ w => NonNegEnergy w
  settings : s.locator.settings = l.settings
  results : s.locator.results = l.results ++ (s.meas.items.map (·.2)).reverse

/-- Windows are only added. -/
def Extends (s s' : PrefillScan K σ) : Prop := ∀ f w, s.meas.lookup f = some w → s'.meas.lookup f = some w

omit [Scalar K] in
theorem Extends.rfl : Extends s s := fun _ _ h => h

omit [Scalar K] in
theorem Extends.trans {s'' : PrefillScan K σ} (h : Extends s s') (h' : Extends s' s'') : Extends s s'' :=
  fun f w hf => h' f w (h f w hf)

theorem scanned_start (hl : l.CacheHolds fun _ w => NonNegEnergy w) : Scanned q l ⟨∅, l⟩ where
  grid := by
    intro f w h
    cases h
  energy := by
    intro f w h
    cases h
  cache := hl
  settings := rfl
  results := (List.append_nil _).symm

section
variable (henergy : ∀ clock load a seconds above w, NonNegEnergy (b.openWindow clock load a seconds above w).1)
include henergy

/-- One measurement at a clock of the grid. -/
theorem measure_spec (hs : Scanned q l s) {f : ℕ} (hf : f ∈ q.grid) :
    ∃ w s', s.measure b q f = .ok (w, s') ∧ Scanned q l s' ∧ Extends s s' ∧ s'.meas.lookup f = some w := by
  unfold measure
  rw [snap_self hf]
  cases hw : s.meas.lookup f with
  | some w => exact ⟨w, s, by simp [bind, Except.bind, hw, pure, Except.pure], hs, .rfl, hw⟩
  | none =>
    have hmeasured : ∀ seconds above w, NonNegEnergy (b.openWindow ⟨f, q.decodeMhz⟩ q.load q.alpha seconds above w).1 :=
      henergy _ _ _
    obtain ⟨hnonneg, hgrew⟩ := TierLocator.openWindow_grew hs.cache hmeasured
    refine ⟨_, _, by simp only [bind, Except.bind, hw, pure, Except.pure]; rfl, ?_, ?_, AList.lookup_insert _⟩
    · refine ⟨?_, ?_, hgrew.holds, hgrew.settings.trans hs.settings, ?_⟩
      · intro g v hg
        by_cases hgf : g = f
        · rw [hgf]
          exact hf
        · exact hs.grid g v ((AList.lookup_insert_ne hgf).symm.trans hg)
      · intro g v hg
        by_cases hgf : g = f
        · subst hgf
          rw [← Option.some.inj ((AList.lookup_insert _).symm.trans hg)]
          exact hnonneg
        · exact hs.energy g v ((AList.lookup_insert_ne hgf).symm.trans hg)
      · have hnew : f ∉ s.meas := AList.lookup_eq_none.mp hw
        rw [hgrew.results, hs.results, Dict.items, Dict.items, AList.entries_insert_of_notMem hnew]
        simp only [List.map_cons, List.reverse_cons, List.append_assoc]
    · intro g v hg
      have hgf : g ≠ f := by
        rintro rfl
        rw [hw] at hg
        cases hg
      exact (AList.lookup_insert_ne hgf).trans hg

/-- The coarse scan never fails. -/
theorem coarse_spec : ∀ (fs : List ℕ) {s : PrefillScan K σ}, Scanned q l s → (∀ f ∈ fs, f ∈ q.grid) →
    ∃ s', coarse b q fs s = .ok s' ∧ Scanned q l s' ∧ Extends s s'
  | [], s, hs, _ => ⟨s, rfl, hs, .rfl⟩
  | f :: fs, s, hs, hfs => by
    obtain ⟨w, s₁, hm, hs₁, hext, -⟩ := measure_spec henergy hs (hfs f List.mem_cons_self)
    rw [coarse, hm]
    simp only [bind, Except.bind]
    split
    · obtain ⟨s₂, hrest, hs₂, hext'⟩ := coarse_spec fs hs₁ fun g hg => hfs g (List.mem_cons_of_mem f hg)
      exact ⟨s₂, hrest, hs₂, hext.trans hext'⟩
    · exact ⟨s₁, rfl, hs₁, hext⟩

/-- The bisection never fails: its feasible end always has a known energy. -/
theorem edge_spec (hgrid : q.grid ≠ []) (step : ℤ) : ∀ (steps lo hi : ℕ) {energies : Dict ℕ K} {s : PrefillScan K σ},
    Scanned q l s → (energies.lookup hi).isSome →
    ∃ s', edge b q step steps lo hi energies s = .ok s' ∧ Scanned q l s' ∧ Extends s s'
  | 0, _, _, _, s, hs, _ => ⟨s, rfl, hs, .rfl⟩
  | steps + 1, lo, hi, energies, s, hs, hhi => by
    rw [edge]
    split
    · exact ⟨s, rfl, hs, .rfl⟩
    · obtain ⟨mid, hmid, hsnap⟩ := snap_mem hgrid (((lo : K) + hi) / 2)
      obtain ⟨w, s₁, hm, hs₁, hext, hw⟩ := measure_spec henergy hs hmid
      obtain ⟨top, htop⟩ := Option.isSome_iff_exists.mp hhi
      rw [hsnap]
      simp only [bind, Except.bind, hm]
      split
      · rename_i hfeasible
        cases he : w.prefillJ with
        | none => exact ⟨s₁, rfl, hs₁, hext⟩
        | some e =>
          simp only [lookupKey, htop]
          split
          · have hcheap : (s₁.feasibleEnergy.lookup mid).isSome := by
              rw [lookup_feasibleEnergy.mpr ⟨w, hw, hfeasible, he⟩]
              rfl
            obtain ⟨s₂, hrest, hs₂, hext'⟩ := edge_spec hgrid step steps lo mid hs₁ hcheap
            exact ⟨s₂, hrest, hs₂, hext.trans hext'⟩
          · exact ⟨s₁, rfl, hs₁, hext⟩
      · obtain ⟨s₂, hrest, hs₂, hext'⟩ := edge_spec hgrid step steps mid hi hs₁ hhi
        exact ⟨s₂, hrest, hs₂, hext.trans hext'⟩

theorem golden_spec (hgrid : q.grid ≠ []) (step : ℤ) : ∀ (steps left right : ℕ) {s : PrefillScan K σ}, Scanned q l s →
    ∃ s', golden b q step steps left right s = .ok s' ∧ Scanned q l s' ∧ Extends s s'
  | 0, _, _, s, hs => ⟨s, rfl, hs, .rfl⟩
  | steps + 1, left, right, s, hs => by
    rw [golden]
    split
    · exact ⟨s, rfl, hs, .rfl⟩
    · obtain ⟨c, hc, hsnapc⟩ := snap_mem hgrid ((right : K) - (Scalar.sqrt 5 - 1) / 2 * ((right : K) - left))
      obtain ⟨d, hd, hsnapd⟩ := snap_mem hgrid ((left : K) + (Scalar.sqrt 5 - 1) / 2 * ((right : K) - left))
      obtain ⟨wc, s₁, hmc, hs₁, hext₁, -⟩ := measure_spec henergy hs hc
      obtain ⟨wd, s₂, hmd, hs₂, hext₂, -⟩ := measure_spec henergy hs₁ hd
      simp only [bind, Except.bind, hsnapc, hsnapd, hmc, hmd]
      split_ifs
      · obtain ⟨s₃, hrest, hs₃, hext₃⟩ := golden_spec hgrid step steps c right hs₂
        exact ⟨s₃, hrest, hs₃, (hext₁.trans hext₂).trans hext₃⟩
      · obtain ⟨s₃, hrest, hs₃, hext₃⟩ := golden_spec hgrid step steps left d hs₂
        exact ⟨s₃, hrest, hs₃, (hext₁.trans hext₂).trans hext₃⟩

/-- The refinement never fails around a measured clock with a known energy. -/
theorem refine_spec (hgrid : q.grid ≠ []) (step : ℤ) {best : ℕ} (hs : Scanned q l s)
    (hbest : (s.feasibleEnergy.lookup best).isSome) :
    ∃ s', s.refine b q step best s.feasibleEnergy = .ok s' ∧ Scanned q l s' ∧ Extends s s' := by
  obtain ⟨e, he⟩ := Option.isSome_iff_exists.mp hbest
  obtain ⟨w, hw, -, -⟩ := lookup_feasibleEnergy.mp he
  have hmem : best ∈ s.clocks := List.mem_map.mpr ⟨(best, w), Dict.mem_sorted.mpr (Dict.mem_items.mpr hw), rfl⟩
  obtain ⟨i, hi⟩ := Option.isSome_iff_exists.mp (List.isSome_idxOf?.mpr hmem)
  obtain ⟨hlt, -⟩ := List.idxOf?_eq_some_iff.mp hi
  -- Every index read lies in the list, and every clock of the list was measured.
  have hindex : ∀ j < s.clocks.length, ∃ f, lookupIndex (K := K) s.clocks j = .ok f ∧
      ∃ w, lookupKey (K := K) s.meas f = .ok w := by
    intro j hj
    refine ⟨s.clocks[j], by rw [lookupIndex, List.getElem?_eq_getElem hj], ?_⟩
    obtain ⟨⟨f, v⟩, hfv, hf⟩ := List.mem_map.mp (List.getElem_mem hj)
    refine ⟨v, ?_⟩
    rw [← hf, lookupKey, Dict.mem_items.mp (Dict.mem_sorted.mp hfv)]
  have hgolden : ∃ s', (do
      let left ← lookupIndex s.clocks (i - 1)
      let right ← lookupIndex s.clocks (min (i + 1) (s.clocks.length - 1))
      golden b q step s.settings.refineSteps left right s) = .ok s' ∧ Scanned q l s' ∧ Extends s s' := by
    obtain ⟨left, hleft, -⟩ := hindex (i - 1) (by omega)
    obtain ⟨right, hright, -⟩ := hindex (min (i + 1) (s.clocks.length - 1)) (by omega)
    rw [hleft, hright]
    exact golden_spec henergy hgrid step _ left right hs
  have hbelow : ∃ below, s.infeasibleBelow (K := K) i = .ok below := by
    unfold infeasibleBelow
    split
    · exact ⟨none, rfl⟩
    · obtain ⟨f, hf, v, hv⟩ := hindex (i - 1) (by omega)
      rw [hf]
      simp only [bind, Except.bind, hv]
      exact ⟨_, rfl⟩
  obtain ⟨below, hbelow⟩ := hbelow
  unfold refine
  simp only [hi, hbelow]
  cases below with
  | none => exact hgolden
  | some lo => exact edge_spec henergy hgrid step _ lo best hs hbest

end

/-! ### The choice -/

/-- Within the eps band: not above (1 + eps) times any feasible energy. -/
def InBand (s : PrefillScan K σ) (f : ℕ) : Prop := ∃ e, s.Cheap f e ∧ ∀ g d, s.Cheap g d → e ≤ (1 + s.settings.eps) * d

/-- Not held down by limits most of the time. -/
def Steady (s : PrefillScan K σ) (f : ℕ) : Prop :=
  ∃ w, s.meas.lookup f = some w ∧ w.prefillLimited ≤ s.settings.limitedFractionMax

/-- The highest steady clock of the band, or the highest of the band if none is steady. -/
def Chosen (s : PrefillScan K σ) (f : ℕ) : Prop :=
  s.InBand f ∧ ((s.Steady f ∧ ∀ g, s.InBand g → s.Steady g → g ≤ f) ∨
    ((∀ g, s.InBand g → ¬ s.Steady g) ∧ ∀ g, s.InBand g → g ≤ f))

theorem exists_least {f : ℕ} {e : K} (h : s.Cheap f e) :
    ∃ emin, (s.feasibleEnergy.items.map (·.2)).min? = some emin ∧ (∃ g, s.Cheap g emin) ∧
      ∀ g d, s.Cheap g d → emin ≤ d := by
  have hmem : ∀ {g d}, s.Cheap g d → d ∈ s.feasibleEnergy.items.map (·.2) := fun hg =>
    List.mem_map.mpr ⟨_, Dict.mem_items.mpr (lookup_feasibleEnergy.mpr hg), rfl⟩
  cases hmin : (s.feasibleEnergy.items.map (·.2)).min? with
  | none =>
    rw [List.min?_eq_none_iff] at hmin
    exact (List.ne_nil_of_mem (hmem h) hmin).elim
  | some emin =>
    obtain ⟨hin, hle⟩ := List.min?_eq_some_iff.mp hmin
    obtain ⟨⟨g, d⟩, hg, rfl⟩ := List.mem_map.mp hin
    exact ⟨d, rfl, ⟨g, lookup_feasibleEnergy.mp (Dict.mem_items.mp hg)⟩, fun g' d' hg' => hle d' (hmem hg')⟩

/-- With a feasible clock of known energy the choice succeeds. -/
theorem choose_spec (heps : 0 ≤ s.settings.eps) (henergy : ∀ f e, s.Cheap f e → 0 ≤ e) {f₀ : ℕ} {e₀ : K}
    (hcheap : s.Cheap f₀ e₀) : ∃ f, choose s.settings s.meas s.feasibleEnergy = .ok f ∧ s.Chosen f := by
  obtain ⟨emin, hmin, ⟨g₀, hg₀⟩, hleast⟩ := exists_least hcheap
  have hfactor : 0 ≤ 1 + s.settings.eps := by linarith
  -- The band is read off the known energies, its windows off the measurements.
  generalize hband : (s.feasibleEnergy.items.filter fun e => e.2 ≤ (1 + s.settings.eps) * emin).map (·.1) = band
  have hmem : ∀ f, f ∈ band ↔ s.InBand f := by
    intro f
    rw [← hband, List.mem_map]
    constructor
    · rintro ⟨⟨g, e⟩, he, rfl⟩
      obtain ⟨he, hle⟩ := List.mem_filter.mp he
      refine ⟨e, lookup_feasibleEnergy.mp (Dict.mem_items.mp he), fun g d hg => ?_⟩
      exact (of_decide_eq_true hle).trans (mul_le_mul_of_nonneg_left (hleast g d hg) hfactor)
    · rintro ⟨e, he, hle⟩
      refine ⟨(f, e), List.mem_filter.mpr ⟨Dict.mem_items.mpr (lookup_feasibleEnergy.mpr he), ?_⟩, rfl⟩
      exact decide_eq_true (hle g₀ emin hg₀)
  obtain ⟨windows, hwindows, -⟩ : ∃ ws, (band.mapM fun f => do return (f, ← lookupKey (K := K) s.meas f)) = .ok ws ∧
      ws.length = band.length := by
    refine mapM_total fun f hf => ?_
    obtain ⟨e, ⟨w, hw, -⟩, -⟩ := (hmem f).mp hf
    exact ⟨(f, w), by simp [lookupKey, hw, bind, Except.bind, pure, Except.pure]⟩
  generalize hsteady : (windows.filter fun e => e.2.prefillLimited ≤ s.settings.limitedFractionMax).map (·.1) = steady
  have hmem' : ∀ f, f ∈ steady ↔ s.InBand f ∧ s.Steady f := by
    intro f
    rw [← hsteady, List.mem_map, ← hmem]
    constructor
    · rintro ⟨⟨g, w⟩, hg, rfl⟩
      obtain ⟨hg, hlimited⟩ := List.mem_filter.mp hg
      obtain ⟨g', hg', heq⟩ := exists_of_mapM_ok hwindows hg
      cases hw : s.meas.lookup g' with
      | none => simp [lookupKey, hw, bind, Except.bind] at heq
      | some w' =>
        simp only [lookupKey, hw, bind, Except.bind, pure, Except.pure, Except.ok.injEq, Prod.mk.injEq] at heq
        obtain ⟨rfl, rfl⟩ := heq
        exact ⟨hg', w', hw, of_decide_eq_true hlimited⟩
    · rintro ⟨hf, w, hw, hlimited⟩
      obtain ⟨⟨g, v⟩, hg, heq⟩ := forall_of_mapM_ok hwindows hf
      simp only [lookupKey, hw, bind, Except.bind, pure, Except.pure, Except.ok.injEq, Prod.mk.injEq] at heq
      obtain ⟨rfl, rfl⟩ := heq
      exact ⟨(f, w), List.mem_filter.mpr ⟨hg, decide_eq_true hlimited⟩, rfl⟩
  -- The cheapest clock is in its own band, so the highest of the band exists.
  have hg₀' : g₀ ∈ band := by
    refine (hmem g₀).mpr ⟨emin, hg₀, fun g d hg => ?_⟩
    have hd := hleast g d hg
    have hpos := henergy g d hg
    nlinarith [mul_nonneg heps hpos]
  unfold choose
  simp only [hmin, hband]
  rw [hwindows]
  simp only [bind, Except.bind, hsteady]
  by_cases hnil : steady = []
  · rw [if_pos hnil]
    cases hmax : band.max? with
    | none => exact (List.ne_nil_of_mem hg₀' (List.max?_eq_none_iff.mp hmax)).elim
    | some f =>
      obtain ⟨hf, hle⟩ := List.max?_eq_some_iff.mp hmax
      refine ⟨f, rfl, (hmem f).mp hf, .inr ⟨fun g hg hst => ?_, fun g hg => hle g ((hmem g).mpr hg)⟩⟩
      exact List.ne_nil_of_mem ((hmem' g).mpr ⟨hg, hst⟩) hnil
  · rw [if_neg hnil]
    cases hmax : steady.max? with
    | none => exact (hnil (List.max?_eq_none_iff.mp hmax)).elim
    | some f =>
      obtain ⟨hf, hle⟩ := List.max?_eq_some_iff.mp hmax
      obtain ⟨hband', hst⟩ := (hmem' f).mp hf
      exact ⟨f, rfl, hband', .inl ⟨hst, fun g hg hgst => hle g ((hmem' g).mpr ⟨hg, hgst⟩)⟩⟩

end PrefillScan

namespace TierLocator
variable {b : ProbeBackend K σ} {l : TierLocator K σ} {hw : Hardware} {fEff decodeMhz : ℕ} {load alpha : K}

/-- The search of the P clock returns a measured, feasible, near-optimal clock, over any windows whose known energies are
    not negative: it raises exactly when no coarse window is feasible with a known energy, and otherwise returns a clock
    of the grid not above f_eff that was measured in this search, is feasible and within the eps band, and is the highest
    steady one there, or the highest of the band if none is steady. -/
theorem searchPrefill_sound (hfEff : fEff ∈ hw.prefillClocks) (heps : 0 ≤ l.settings.eps)
    (henergy : ∀ clock x a seconds above w, NonNegEnergy (b.openWindow clock x a seconds above w).1)
    (hcache : ∀ key hit, l.cache.lookup key = some hit → NonNegEnergy hit.1) :
    ∃ coarse, l.coarseScan b (prefillQuery hw fEff decodeMhz load alpha) fEff = .ok coarse ∧
      match l.searchPrefill b hw fEff decodeMhz load alpha with
      | .error e => e = .locator (.noPrefillClock load) ∧ ∀ f e, ¬ coarse.Cheap f e
      | .ok ((f, meas), l') => (∃ g e, coarse.Cheap g e) ∧ (f ∈ hw.prefillClocks ∧ f ≤ fEff) ∧
          PrefillScan.Extends coarse ⟨meas, l'⟩ ∧ l'.results = l.results ++ (meas.items.map (·.2)).reverse ∧
          l'.settings = l.settings ∧ PrefillScan.Chosen ⟨meas, l'⟩ f := by
  have hgrid : ∀ f, f ∈ (prefillQuery hw fEff decodeMhz load alpha).grid ↔ f ∈ hw.prefillClocks ∧ f ≤ fEff := by
    intro f
    rw [prefillQuery, List.mem_filter, decide_eq_true_eq]
  have hne : (prefillQuery hw fEff decodeMhz load alpha).grid ≠ [] :=
    List.ne_nil_of_mem ((hgrid fEff).mpr ⟨hfEff, le_rfl⟩)
  obtain ⟨low, hlow⟩ := Option.isSome_iff_exists.mp (List.isSome_head?.mpr hne)
  obtain ⟨fs, hfs, hsub⟩ := spread_subset (K := K) hne low fEff l.settings.coarsePoints
  obtain ⟨s, hs, hscan, -⟩ := PrefillScan.coarse_spec henergy fs (PrefillScan.scanned_start hcache) hsub
  have hcoarse : l.coarseScan b (prefillQuery hw fEff decodeMhz load alpha) fEff = .ok s := by
    unfold coarseScan
    simp only [hlow, hfs, bind, Except.bind]
    exact hs
  refine ⟨s, hcoarse, ?_⟩
  simp only [searchPrefill, hcoarse, bind, Except.bind]
  cases hbest : s.feasibleEnergy.items.reverse.argmin (·.2) with
  | none =>
    refine ⟨rfl, fun f e he => ?_⟩
    have hnil := List.reverse_eq_nil_iff.mp (List.argmin_eq_none.mp hbest)
    exact List.ne_nil_of_mem (Dict.mem_items.mpr (PrefillScan.lookup_feasibleEnergy.mpr he)) hnil
  | some best =>
    have hlookup : s.feasibleEnergy.lookup best.1 = some best.2 :=
      Dict.mem_items.mp (List.mem_reverse.mp (List.argmin_mem hbest))
    have hcheap := PrefillScan.lookup_feasibleEnergy.mp hlookup
    obtain ⟨s', hrefine, hscan', hext⟩ := PrefillScan.refine_spec henergy hne
      (gridStep (prefillQuery hw fEff decodeMhz load alpha).grid) hscan (Option.isSome_iff_exists.mpr ⟨_, hlookup⟩)
    have hsettings : s'.settings = l.settings := hscan'.settings
    -- What was cheap in the coarse scan is cheap at the end.
    have hcheap' : s'.Cheap best.1 best.2 := by
      obtain ⟨w, hw', hfeasible, he⟩ := hcheap
      refine ⟨w, hext best.1 w hw', ?_, he⟩
      rw [hsettings]
      rw [show s.settings = l.settings from hscan.settings] at hfeasible
      exact hfeasible
    have hnonneg : ∀ f e, s'.Cheap f e → 0 ≤ e := by
      rintro f e ⟨w, hw', -, he⟩
      exact hscan'.energy f w hw' e he
    obtain ⟨f, hchoose, hchosen⟩ := PrefillScan.choose_spec (by rw [hsettings]; exact heps) hnonneg hcheap'
    simp only [hrefine, hchoose]
    obtain ⟨e, ⟨w, hf, -⟩, -⟩ := hchosen.1
    exact ⟨⟨_, _, hcheap⟩, (hgrid f).mp (hscan'.grid f w hf), hext, hscan'.results, hscan'.settings, hchosen⟩

/-- Clocks from 410 up hold the load, and a request costs more the higher the clock. -/
def edgePair : ProbeBackend ℚ Unit where
  openWindow clock load _ _ _ w :=
    ({ WindowResult.quiet load 60 with
        violations := if 410 ≤ clock.prefillMhz then 0 else 60
        prefillJ := some clock.prefillMhz }, w)
  closedWindow _ _ _ _ _ w := (.quiet 0 0, w)
  mixContext _ _ := 1
  kvCapacity := none
  time w := (0, w)

def edgeHardware : Hardware := ⟨(List.range 19).map fun i => 100 + 50 * i, [1000]⟩

/-- The edge lies between 400 and 450. -/
theorem searchPrefill_sound_edge : ∃ meas, ∃ l' : TierLocator ℚ Unit,
    searchPrefill edgePair (fresh .defaults ()) edgeHardware 1000 1000 8 0 = .ok ((450, meas), l') ∧
      PrefillScan.Chosen ⟨meas, l'⟩ 450 := by
  have hvalue : (searchPrefill edgePair (fresh .defaults ()) edgeHardware 1000 1000 8 0).map (·.1.1) = .ok 450 := by
    decide +kernel
  obtain ⟨coarse, -, h⟩ := @searchPrefill_sound ℚ Unit _ edgePair (fresh .defaults ()) edgeHardware 1000 1000 8 0
    (by decide) (by decide +kernel) (by
      intro clock x a seconds above w e he
      rw [← Option.some.inj he]
      exact Nat.cast_nonneg _) (fun _ _ h => by cases h)
  cases hrun : searchPrefill edgePair (fresh .defaults ()) edgeHardware 1000 1000 8 0 with
  | error e =>
    rw [hrun] at hvalue
    cases hvalue
  | ok r =>
    obtain ⟨⟨f, meas⟩, l'⟩ := r
    rw [hrun] at hvalue h
    obtain rfl := Except.ok.inj hvalue
    exact ⟨meas, l', rfl, h.2.2.2.2.2⟩

end TierLocator
end CanaTune

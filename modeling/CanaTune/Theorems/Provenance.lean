import CanaTune.Theorems.DecodeCount

/-! Every search of the locator only adds windows: what it has cached is always what the pair measured for that key, and
    the settings stay. -/

namespace CanaTune
variable {K σ : Type} [Scalar K]

namespace TierLocator

/-- A window the pair measured for a key: under its clock, at a load that rounds to the key's. -/
inductive Measured (b : ProbeBackend K σ) : WindowKey K → WindowResult K → Prop
  | opened (clock : ClockPoint) (eqTps alpha seconds above : K) (world : σ) :
    Measured b (openKey clock eqTps alpha) (b.openWindow clock eqTps alpha seconds above world).1
  | closed (clock : ClockPoint) (concurrency rep : ℕ) (mix : Mix) (seconds : K) (world : σ) :
    Measured b (.closed clock concurrency rep mix) (b.closedWindow clock concurrency seconds rep mix world).1

/-- Later in a run: sound caches, and more windows. -/
structure Onward (b : ProbeBackend K σ) (l l' : TierLocator K σ) : Prop where
  cache : l'.CacheHolds (Measured b)
  settings : l'.settings = l.settings
  capacity : l'.capacity = l.capacity
  results : l.results <+: l'.results

variable {b : ProbeBackend K σ} {l l₁ l₂ l' : TierLocator K σ} {point : ClockPoint}

theorem Onward.refl (h : l.CacheHolds (Measured b)) : Onward b l l := ⟨h, rfl, rfl, List.prefix_rfl⟩

theorem Onward.trans (h : Onward b l l₁) (h' : Onward b l₁ l₂) : Onward b l l₂ :=
  ⟨h'.cache, h'.settings.trans h.settings, h'.capacity.trans h.capacity, h.results.trans h'.results⟩

theorem Grew.onward {ws : List (WindowResult K)} (h : Grew (Measured b) l ws l') : Onward b l l' :=
  ⟨h.holds, h.settings, h.capacity, h.results ▸ List.prefix_append _ _⟩

/-! ### Windows -/

theorem openWindow_onward (hl : l.CacheHolds (Measured b)) (clock : ClockPoint) (eqTps alpha : K) :
    Measured b (openKey clock eqTps alpha) (l.openWindow b clock eqTps alpha).1 ∧
      (l.openWindow b clock eqTps alpha).1 ∈ (l.openWindow b clock eqTps alpha).2.results ∧
      Onward b l (l.openWindow b clock eqTps alpha).2 := by
  obtain ⟨hw, hgrew⟩ := openWindow_grew hl fun seconds above s => .opened clock eqTps alpha seconds above s
  refine ⟨hw, ?_, hgrew.onward⟩
  rw [hgrew.results]
  exact List.mem_append_right _ List.mem_cons_self

theorem closedWindow_onward (hl : l.CacheHolds (Measured b)) (clock : ClockPoint) (concurrency rep : ℕ) (mix : Mix) :
    Onward b l (l.closedWindow b clock concurrency rep mix).2 :=
  (closedWindow_grew hl fun seconds s => .closed clock concurrency rep mix seconds s).2.onward

theorem closedEach_onward (clock : ClockPoint) : ∀ (cs : List (ℕ × ℕ × Mix)) {l : TierLocator K σ},
    l.CacheHolds (Measured b) → Onward b l (closedEach b clock cs l).2
  | [], _, hl => .refl hl
  | (concurrency, rep, mix) :: rest, _, hl =>
    have hfirst := closedWindow_onward hl clock concurrency rep mix
    hfirst.trans (closedEach_onward clock rest hfirst.cache)

theorem repeats_onward (hl : l.CacheHolds (Measured b)) (concurrency : ℕ) : Onward b l (l.repeats b point concurrency).2 :=
  closedEach_onward point _ hl

theorem closedMedian_onward (hl : l.CacheHolds (Measured b)) {concurrency : ℕ} {w : WindowResult K}
    (h : l.closedMedian b point concurrency = .ok (w, l')) : Onward b l l' := by
  have hgrew : Onward b l (l.repeats b point concurrency).2 := repeats_onward hl concurrency
  unfold closedMedian at h
  split at h
  · cases h
  · rename_i heq
    rw [heq] at hgrew
    cases h
    exact hgrew

/-! ### Ramp -/

theorem climb_onward {alpha : K} : ∀ (steps : ℕ) {good bad : Option (WindowResult K)} {load : K} {l : TierLocator K σ},
    l.CacheHolds (Measured b) → Onward b l (climb b point alpha steps good bad load l).2
  | 0, _, _, _, _, hl => .refl hl
  | steps + 1, good, bad, load, l, hl => by
    have hfirst := (openWindow_onward hl point load alpha).2.2
    rw [climb]
    simp only
    split_ifs
    · exact hfirst.trans (climb_onward steps hfirst.cache)
    · exact hfirst
    · exact hfirst.trans (climb_onward steps hfirst.cache)

theorem bisectLoad_onward {alpha : K} : ∀ (steps : ℕ) {lo hi : K} {good : WindowResult K} {l : TierLocator K σ},
    l.CacheHolds (Measured b) → Onward b l (bisectLoad b point alpha steps lo hi good l).2
  | 0, _, _, _, _, hl => .refl hl
  | steps + 1, lo, hi, good, l, hl => by
    have hfirst := (openWindow_onward hl point ((lo + hi) / 2) alpha).2.2
    rw [bisectLoad]
    simp only
    split_ifs
    · exact hfirst.trans (bisectLoad_onward steps hfirst.cache)
    · exact hfirst.trans (bisectLoad_onward steps hfirst.cache)

/-- The ramp also leaves its capacity in the evidence. -/
theorem ramp_onward {hw : Hardware} {alpha meanPrompt : K} {c : K × ℕ} (hl : l.CacheHolds (Measured b))
    (h : l.ramp b hw point alpha meanPrompt = .ok (c, l')) :
    Onward b l { l' with capacity := l.capacity } ∧ l'.capacity = some c := by
  have hclimb : Onward b l (climb b point alpha l.settings.rampMaxSteps none none
      (l.settings.rampStartRps * (meanPrompt + alpha)) l).2 := climb_onward _ hl
  unfold ramp at h
  split at h
  · cases h
  · rename_i good bad l₁ heq
    rw [heq] at hclimb
    have hbisect : Onward b l₁ (bad.elim (good, l₁) fun w => bisectLoad b point alpha 2 good.load w.load good l₁).2 := by
      cases bad with
      | none => exact .refl hclimb.cache
      | some w => exact bisectLoad_onward 2 hclimb.cache
    obtain ⟨fEff, -, h⟩ := bind_eq_ok.mp h
    obtain ⟨rfl, rfl⟩ := Prod.mk.inj (Except.ok.inj h)
    cases bad with
    | none => exact ⟨⟨hclimb.cache, hclimb.settings, rfl, hclimb.results⟩, rfl⟩
    | some w =>
      have hall := hclimb.trans hbisect
      exact ⟨⟨hall.cache, hall.settings, rfl, hall.results⟩, rfl⟩

end TierLocator

open TierLocator

/-! ### The P clock -/

theorem mem_of_snap {grid : List ℕ} {mhz : K} {f : ℕ} (h : snap grid mhz = .ok f) : f ∈ grid := by
  have hne : grid ≠ [] := by
    rintro rfl
    cases h
  obtain ⟨g, hg, heq⟩ := snap_mem hne mhz
  rw [heq] at h
  exact Except.ok.inj h ▸ hg

theorem mem_of_spread {grid : List ℕ} {low high n : ℕ} {fs : List ℕ} (h : spread (K := K) grid low high n = .ok fs) {f : ℕ}
    (hf : f ∈ fs) : f ∈ grid := by
  by_cases hne : grid = []
  · subst hne
    unfold spread at h
    split_ifs at h with hsmall
    · cases h
    · obtain ⟨points, hpoints, h⟩ := bind_eq_ok.mp h
      obtain rfl := Except.ok.inj h
      obtain ⟨i, -, hi⟩ := exists_of_mapM_ok hpoints (List.mem_dedup.mp ((List.mem_insertionSort _).mp hf))
      cases hi
  · obtain ⟨gs, heq, hgs⟩ := spread_subset (K := K) hne low high n
    rw [heq] at h
    exact hgs f (Except.ok.inj h ▸ hf)

namespace PrefillScan
variable {b : ProbeBackend K σ} {q : PrefillQuery K} {s s' s₁ s₂ : PrefillScan K σ}

/-- A scan goes on: it measures at clocks of its grid only. -/
structure Goes (b : ProbeBackend K σ) (q : PrefillQuery K) (s s' : PrefillScan K σ) : Prop where
  locator : Onward b s.locator s'.locator
  grid : (∀ f w, s.meas.lookup f = some w → f ∈ q.grid) → ∀ f w, s'.meas.lookup f = some w → f ∈ q.grid

theorem Goes.refl (h : s.locator.CacheHolds (Measured b)) : Goes b q s s := ⟨.refl h, id⟩

theorem Goes.trans (h : Goes b q s s₁) (h' : Goes b q s₁ s₂) : Goes b q s s₂ :=
  ⟨h.locator.trans h'.locator, h'.grid ∘ h.grid⟩

theorem measure_goes (hs : s.locator.CacheHolds (Measured b)) {f : ℕ} {w : WindowResult K}
    (h : s.measure b q f = .ok (w, s')) : Goes b q s s' := by
  obtain ⟨g, hg, h⟩ := bind_eq_ok.mp h
  split at h
  · obtain ⟨rfl, rfl⟩ := Prod.mk.inj (Except.ok.inj h)
    exact .refl hs
  · obtain ⟨rfl, rfl⟩ := Prod.mk.inj (Except.ok.inj h)
    refine ⟨(openWindow_onward hs _ _ _).2.2, fun hgrid k v hk => ?_⟩
    by_cases hkg : k = g
    · exact hkg ▸ mem_of_snap hg
    · exact hgrid k v ((AList.lookup_insert_ne hkg).symm.trans hk)

theorem coarse_goes : ∀ (fs : List ℕ) {s : PrefillScan K σ}, s.locator.CacheHolds (Measured b) →
    coarse b q fs s = .ok s' → Goes b q s s'
  | [], s, hs, h => by
    cases h
    exact .refl hs
  | f :: fs, s, hs, h => by
    obtain ⟨⟨w, s₁⟩, hm, h⟩ := bind_eq_ok.mp h
    have hfirst := measure_goes hs hm
    simp only at h
    split_ifs at h
    · exact hfirst.trans (coarse_goes fs hfirst.locator.cache h)
    · cases h
      exact hfirst

theorem edge_goes {step : ℤ} : ∀ (steps : ℕ) {lo hi : ℕ} {energies : Dict ℕ K} {s : PrefillScan K σ},
    s.locator.CacheHolds (Measured b) → edge b q step steps lo hi energies s = .ok s' → Goes b q s s'
  | 0, _, _, _, s, hs, h => by
    cases h
    exact .refl hs
  | steps + 1, lo, hi, energies, s, hs, h => by
    rw [edge] at h
    split_ifs at h
    · cases h
      exact .refl hs
    · obtain ⟨mid, -, h⟩ := bind_eq_ok.mp h
      obtain ⟨⟨w, s₁⟩, hm, h⟩ := bind_eq_ok.mp h
      have hfirst := measure_goes hs hm
      simp only at h
      split_ifs at h
      · split at h
        · obtain ⟨top, -, h⟩ := bind_eq_ok.mp h
          split_ifs at h
          · exact hfirst.trans (edge_goes steps hfirst.locator.cache h)
          · cases h
            exact hfirst
        · cases h
          exact hfirst
      · exact hfirst.trans (edge_goes steps hfirst.locator.cache h)

theorem golden_goes {step : ℤ} : ∀ (steps : ℕ) {left right : ℕ} {s : PrefillScan K σ},
    s.locator.CacheHolds (Measured b) → golden b q step steps left right s = .ok s' → Goes b q s s'
  | 0, _, _, s, hs, h => by
    cases h
    exact .refl hs
  | steps + 1, left, right, s, hs, h => by
    rw [golden] at h
    split_ifs at h
    · cases h
      exact .refl hs
    · obtain ⟨c, -, h⟩ := bind_eq_ok.mp h
      obtain ⟨d, -, h⟩ := bind_eq_ok.mp h
      obtain ⟨⟨wc, s₁⟩, hc, h⟩ := bind_eq_ok.mp h
      obtain ⟨⟨wd, s₂⟩, hd, h⟩ := bind_eq_ok.mp h
      have hfirst := measure_goes hs hc
      have hboth := hfirst.trans (measure_goes hfirst.locator.cache hd)
      simp only at h
      split_ifs at h
      · exact hboth.trans (golden_goes steps hboth.locator.cache h)
      · exact hboth.trans (golden_goes steps hboth.locator.cache h)

theorem refine_goes {step : ℤ} {best : ℕ} {energies : Dict ℕ K} (hs : s.locator.CacheHolds (Measured b))
    (h : s.refine b q step best energies = .ok s') : Goes b q s s' := by
  unfold refine at h
  split at h
  · obtain ⟨below, -, h⟩ := bind_eq_ok.mp h
    split at h
    · exact edge_goes _ hs h
    · obtain ⟨left, -, h⟩ := bind_eq_ok.mp h
      obtain ⟨right, -, h⟩ := bind_eq_ok.mp h
      exact golden_goes _ hs h
  · cases h

/-- The choice is a clock that was measured. -/
theorem choose_measured {settings : SearchSettings K} {f : ℕ}
    (h : choose settings s.meas s.feasibleEnergy = .ok f) : ∃ w, s.meas.lookup f = some w := by
  unfold choose at h
  split at h
  · obtain ⟨windows, hwindows, h⟩ := bind_eq_ok.mp h
    simp only at h
    split at h
    · rename_i g hg
      obtain rfl := Except.ok.inj h
      have hband : g ∈ (s.feasibleEnergy.items.map (·.1)) := by
        have hmem := List.max?_mem hg
        split_ifs at hmem
        · obtain ⟨e, he, rfl⟩ := List.mem_map.mp hmem
          exact List.mem_map_of_mem (List.mem_of_mem_filter he)
        · obtain ⟨e, he, rfl⟩ := List.mem_map.mp hmem
          obtain ⟨k, hk, hke⟩ := exists_of_mapM_ok hwindows (List.mem_of_mem_filter he)
          obtain ⟨w, -, hke⟩ := bind_eq_ok.mp hke
          obtain rfl := Except.ok.inj hke
          obtain ⟨e', he', rfl⟩ := List.mem_map.mp hk
          exact List.mem_map_of_mem (List.mem_of_mem_filter he')
      obtain ⟨⟨k, e⟩, he, rfl⟩ := List.mem_map.mp hband
      obtain ⟨w, hw, -⟩ := lookup_feasibleEnergy.mp (Dict.mem_items.mp he)
      exact ⟨w, hw⟩
    · cases h
  · cases h

end PrefillScan

namespace TierLocator
variable {b : ProbeBackend K σ} {l l' : TierLocator K σ} {hw : Hardware}

theorem searchPrefill_onward {fEff decodeMhz f : ℕ} {load alpha : K} {meas : Dict ℕ (WindowResult K)}
    (hl : l.CacheHolds (Measured b)) (h : l.searchPrefill b hw fEff decodeMhz load alpha = .ok ((f, meas), l')) :
    Onward b l l' ∧ f ∈ hw.prefillClocks ∧ f ≤ fEff := by
  unfold searchPrefill at h
  obtain ⟨s, hscan, h⟩ := bind_eq_ok.mp h
  have hcoarse : PrefillScan.Goes b (prefillQuery hw fEff decodeMhz load alpha) ⟨∅, l⟩ s := by
    unfold coarseScan at hscan
    split at hscan
    · obtain ⟨clocks, -, hscan⟩ := bind_eq_ok.mp hscan
      exact PrefillScan.coarse_goes clocks hl hscan
    · cases hscan
  simp only at h
  split at h
  · cases h
  · obtain ⟨s', hrefine, h⟩ := bind_eq_ok.mp h
    obtain ⟨g, hchoose, h⟩ := bind_eq_ok.mp h
    obtain ⟨hfm, rfl⟩ := Prod.mk.inj (Except.ok.inj h)
    obtain ⟨rfl, rfl⟩ := Prod.mk.inj hfm
    have hall := hcoarse.trans (PrefillScan.refine_goes hcoarse.locator.cache hrefine)
    obtain ⟨w, hw'⟩ := PrefillScan.choose_measured hchoose
    have hmem := hall.grid (fun f w hf => by cases hf) g w hw'
    obtain ⟨hgrid, hle⟩ := List.mem_filter.mp hmem
    exact ⟨hall.locator, hgrid, of_decide_eq_true hle⟩

/-! ### The D clock -/

variable {point : ClockPoint} {prefillMhz capacity : ℕ}

theorem secondLevel_onward (hl : l.CacheHolds (Measured b)) (second : Option ℕ) :
    Onward b l (l.secondLevel b point second) := by
  cases second with
  | none => exact .refl hl
  | some c => exact closedWindow_onward hl point c 0 .all

theorem decodeScan_onward {load : ℕ} {second : Option ℕ} : ∀ (fs : List ℕ) {l l' : TierLocator K σ}
    {perClock : List (ℕ × WindowResult K)}, l.CacheHolds (Measured b) →
    decodeScan b prefillMhz load second fs l = .ok (perClock, l') → Onward b l l' ∧ ∀ e ∈ perClock, e.1 ∈ fs
  | [], l, _, perClock, hl, h => by
    obtain ⟨rfl, rfl⟩ := Prod.mk.inj (Except.ok.inj h)
    exact ⟨.refl hl, fun _ h => by simp at h⟩
  | f :: fs, l, _, perClock, hl, h => by
    rw [decodeScan] at h
    obtain ⟨⟨w, l₁⟩, hmedian, h⟩ := bind_eq_ok.mp h
    have hfirst := closedMedian_onward hl hmedian
    simp only at h
    split_ifs at h
    · obtain ⟨⟨below, l₂⟩, hrest, h⟩ := bind_eq_ok.mp h
      have hsecond : Onward b l (l₁.secondLevel b ⟨prefillMhz, f⟩ second) :=
        hfirst.trans (secondLevel_onward hfirst.cache second)
      obtain ⟨hbelow, hmem⟩ := decodeScan_onward fs hsecond.cache hrest
      obtain ⟨rfl, rfl⟩ := Prod.mk.inj (Except.ok.inj h)
      refine ⟨hsecond.trans hbelow, fun e he => ?_⟩
      rcases List.mem_cons.mp he with rfl | he
      · exact List.mem_cons_self
      · exact List.mem_cons_of_mem f (hmem e he)
    · obtain ⟨rfl, rfl⟩ := Prod.mk.inj (Except.ok.inj h)
      exact ⟨hfirst, fun e he => List.mem_singleton.mp he ▸ List.mem_cons_self⟩

/-- The chosen clock is one of the scan's. -/
theorem chooseDecode_scanned {load : ℕ} {second : Option ℕ} {fs : List ℕ} {perClock : List (ℕ × WindowResult K)}
    {s : SearchSettings K} {missing : LocatorError K} {f : ℕ} (hl : l.CacheHolds (Measured b))
    (hscan : decodeScan b prefillMhz load second fs l = .ok (perClock, l'))
    (h : chooseDecode s missing (cleanEnergies s perClock) = .ok f) : f ∈ fs := by
  obtain ⟨e, he⟩ := chooseDecode_mem h
  obtain ⟨w, hw', -⟩ := mem_cleanEnergies he
  exact (decodeScan_onward fs hl hscan).2 (f, w) hw'

theorem fitWindows_onward (hl : l.CacheHolds (Measured b)) (mix : Mix) :
    Onward b l (l.fitWindows b point capacity mix).2 :=
  closedEach_onward point _ hl

/-- Both halves of the prompts. -/
theorem fitBoth_onward (hl : l.CacheHolds (Measured b)) :
    Onward b l ((l.fitWindows b point capacity .short).2.fitWindows b point capacity .long).2 :=
  have hshort : Onward b l (l.fitWindows b point capacity .short).2 := fitWindows_onward hl .short
  hshort.trans (fitWindows_onward hshort.cache .long)

theorem fitLength_onward {extra : List (WindowResult K)} {coef : DecodeCoef K} (hl : l.CacheHolds (Measured b))
    (h : l.fitLength b point capacity extra = .ok (coef, l')) : Onward b l l' := by
  unfold fitLength at h
  simp only at h
  split at h
  · obtain ⟨rfl, rfl⟩ := Prod.mk.inj (Except.ok.inj h)
    exact fitBoth_onward hl
  · cases h

theorem fitChosen_onward {topD fD load : ℕ} {coefTop coef : DecodeCoef K} (hl : l.CacheHolds (Measured b))
    (h : l.fitChosen b prefillMhz capacity topD fD load coefTop = .ok (coef, l')) : Onward b l l' := by
  unfold fitChosen at h
  split_ifs at h
  · obtain ⟨rfl, rfl⟩ := Prod.mk.inj (Except.ok.inj h)
    exact .refl hl
  · have hrepeats : Onward b l (l.repeats b ⟨prefillMhz, fD⟩ load).2 := repeats_onward hl load
    exact hrepeats.trans (fitLength_onward hrepeats.cache h)

theorem decodeLength_onward {fD : ℕ} {n : ℤ} {wall : Bool} {ev : LengthEvidence K} (hl : l.CacheHolds (Measured b))
    (h : l.decodeLength b hw prefillMhz capacity = .ok ((fD, n, wall, ev), l')) :
    Onward b l l' ∧ fD ∈ hw.decodeClocks := by
  unfold decodeLength at h
  simp only at h
  split at h
  · obtain ⟨⟨coefTop, l₁⟩, htop, h⟩ := bind_eq_ok.mp h
    have hfit := fitLength_onward hl htop
    simp only at h
    split_ifs at h
    obtain ⟨clocks, hclocks, h⟩ := bind_eq_ok.mp h
    obtain ⟨⟨perClock, l₂⟩, hscan, h⟩ := bind_eq_ok.mp h
    obtain ⟨f, hchoose, h⟩ := bind_eq_ok.mp h
    obtain ⟨⟨coef, l₃⟩, hchosen, h⟩ := bind_eq_ok.mp h
    have hscanned := hfit.trans (decodeScan_onward clocks hfit.cache hscan).1
    obtain ⟨hr, rfl⟩ := Prod.mk.inj (Except.ok.inj h)
    obtain ⟨rfl, -⟩ := Prod.mk.inj hr
    exact ⟨hscanned.trans (fitChosen_onward hscanned.cache hchosen),
      mem_of_spread hclocks (chooseDecode_scanned hfit.cache hscan hchoose)⟩
  · cases h

theorem doubleClean_onward : ∀ (fuel : ℕ) {c good : ℕ} {goodW : Option (WindowResult K)} {bad : Option ℕ}
    {r : ℕ × Option (WindowResult K) × Option ℕ} {l : TierLocator K σ}, l.CacheHolds (Measured b) →
    doubleClean b point fuel c good goodW bad l = .ok (r, l') → Onward b l l'
  | 0, _, _, _, _, _, _, _, h => by cases h
  | fuel + 1, c, good, goodW, bad, r, l, hl, h => by
    have hfirst := closedWindow_onward (b := b) hl point c 0 .all
    rw [doubleClean] at h
    simp only at h
    split_ifs at h
    · exact hfirst.trans (doubleClean_onward fuel hfirst.cache h)
    · obtain ⟨-, rfl⟩ := Prod.mk.inj (Except.ok.inj h)
      exact hfirst
    · obtain ⟨-, rfl⟩ := Prod.mk.inj (Except.ok.inj h)
      exact .refl hl

theorem bisectClean_onward : ∀ (steps : ℕ) {lo hi : ℕ} {goodW : Option (WindowResult K)} {l : TierLocator K σ},
    l.CacheHolds (Measured b) → Onward b l (bisectClean b point steps lo hi goodW l).2
  | 0, _, _, _, _, hl => .refl hl
  | steps + 1, lo, hi, goodW, l, hl => by
    have hfirst := closedWindow_onward (b := b) hl point ((lo + hi) / 2) 0 .all
    rw [bisectClean]
    simp only
    split_ifs
    · exact .refl hl
    · exact hfirst.trans (bisectClean_onward steps hfirst.cache)
    · exact hfirst.trans (bisectClean_onward steps hfirst.cache)

theorem searchClean_onward {c : ℕ} {bad : Option ℕ} {r : ℕ × Option (WindowResult K)} (hl : l.CacheHolds (Measured b))
    (h : l.searchClean b point c bad = .ok (r, l')) : Onward b l l' := by
  obtain ⟨⟨⟨good, goodW, bad'⟩, l₁⟩, hdouble, h⟩ := bind_eq_ok.mp h
  have hfirst := doubleClean_onward _ hl hdouble
  simp only at h
  split at h
  · split_ifs at h
    · obtain rfl := congrArg Prod.snd (Except.ok.inj h)
      exact hfirst.trans (bisectClean_onward 2 hfirst.cache)
    · obtain ⟨-, rfl⟩ := Prod.mk.inj (Except.ok.inj h)
      exact hfirst
  · obtain ⟨-, rfl⟩ := Prod.mk.inj (Except.ok.inj h)
    exact hfirst

theorem bStar_onward {hint : Option ℕ} {r : ℕ × Option (WindowResult K)} (hl : l.CacheHolds (Measured b))
    (h : l.bStar b point hint = .ok (r, l')) : Onward b l l' := by
  cases hint with
  | none => exact searchClean_onward hl h
  | some hint =>
    have hfirst := closedWindow_onward (b := b) hl point hint 0 .all
    unfold bStar at h
    simp only at h
    split_ifs at h
    · obtain ⟨-, rfl⟩ := Prod.mk.inj (Except.ok.inj h)
      exact hfirst
    · exact hfirst.trans (searchClean_onward hfirst.cache h)

theorem chooseCount_onward {c : CountChoice K} (hl : l.CacheHolds (Measured b))
    (h : l.chooseCount b hw prefillMhz = .ok (c, l')) : Onward b l l' ∧ c.fD ∈ hw.decodeClocks := by
  unfold chooseCount at h
  split at h
  · obtain ⟨⟨⟨bTop, w⟩, l₁⟩, hstar, h⟩ := bind_eq_ok.mp h
    have hfirst := bStar_onward hl hstar
    simp only at h
    by_cases hzero : bTop = 0
    · rw [if_pos hzero] at h
      cases h
    rw [if_neg hzero] at h
    obtain ⟨clocks, hclocks, h⟩ := bind_eq_ok.mp h
    obtain ⟨⟨perClock, l₂⟩, hscan, h⟩ := bind_eq_ok.mp h
    obtain ⟨f, hchoose, h⟩ := bind_eq_ok.mp h
    obtain ⟨rfl, rfl⟩ := Prod.mk.inj (Except.ok.inj h)
    exact ⟨hfirst.trans (decodeScan_onward clocks hfirst.cache hscan).1,
      mem_of_spread hclocks (chooseDecode_scanned hfirst.cache hscan hchoose)⟩
  · cases h

theorem verifyCount_onward {c : CountChoice K} {r : ℕ × Option (WindowResult K)} (hl : l.CacheHolds (Measured b))
    (h : l.verifyCount b prefillMhz c = .ok (r, l')) : Onward b l l' := by
  obtain ⟨⟨⟨bLow, w⟩, l₁⟩, hstar, h⟩ := bind_eq_ok.mp h
  simp only at h
  split_ifs at h
  obtain ⟨-, rfl⟩ := Prod.mk.inj (Except.ok.inj h)
  exact bStar_onward hl hstar

theorem decodeCount_onward {fD : ℕ} {n : ℤ} {wall : Bool} {ev : CountEvidence K} (hl : l.CacheHolds (Measured b))
    (h : l.decodeCount b hw prefillMhz = .ok ((fD, n, wall, ev), l')) : Onward b l l' ∧ fD ∈ hw.decodeClocks := by
  obtain ⟨⟨c, l₁⟩, hchoose, h⟩ := bind_eq_ok.mp h
  obtain ⟨⟨⟨bLow, w⟩, l₂⟩, hverify, h⟩ := bind_eq_ok.mp h
  obtain ⟨hfirst, hmem⟩ := chooseCount_onward hl hchoose
  have hboth := hfirst.trans (verifyCount_onward hfirst.cache hverify)
  obtain ⟨hr, rfl⟩ := Prod.mk.inj (Except.ok.inj h)
  obtain ⟨rfl, -⟩ := Prod.mk.inj hr
  refine ⟨?_, hmem⟩
  cases b.kvCapacity with
  | none => exact hboth
  | some ask => exact ⟨hboth.cache, hboth.settings, hboth.capacity, hboth.results⟩

end TierLocator
end CanaTune

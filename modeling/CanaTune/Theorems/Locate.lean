import CanaTune.Controller.Locate
import CanaTune.Lib.Rounding
import CanaTune.Theorems.Provenance
import CanaTune.Theorems.Ramp

/-! What the locator publishes is backed by windows of its run: H holds the target load, its capacity is the load of a
    window that met the target, and no fill load above it did. The periodic check only climbs. -/

namespace CanaTune
variable {K σ : Type} [Scalar K]

open TierLocator

/-! ### Rounded keys -/

/-- Loads of one key differ by a tenth at most. -/
theorem abs_sub_le_of_roundTo {x y : K} (h : Scalar.roundTo 1 x = Scalar.roundTo 1 y) : |x - y| ≤ 1 / 10 := by
  have hten (z w : K) (h : z / 10 ^ 1 = w / 10 ^ 1) : z = w := by simpa using h
  have hx := abs_sub_roundEven_le (x * 10 ^ 1)
  have hy := abs_sub_roundEven_le (y * 10 ^ 1)
  rw [hten _ _ h] at hx
  rw [abs_le, pow_one] at hx hy
  obtain ⟨hxlow, hxhigh⟩ := hx
  obtain ⟨hylow, hyhigh⟩ := hy
  rw [abs_le]
  constructor <;> linarith

/-! ### Clocks of a grid -/

/-- A clock of the grid is not overtaken from above by the clock nearest to a frequency above it. -/
theorem le_of_snap {grid : List ℕ} {mhz : K} {low f : ℕ} (h : snap grid mhz = .ok f) (hlow : low ∈ grid)
    (hle : (low : K) ≤ mhz) :
    low ≤ f := by
  unfold snap at h
  split at h
  · rename_i g hg
    obtain rfl := Except.ok.inj h
    have hmin := List.le_of_mem_argmin hlow hg
    by_contra hlt
    have hlt' : (g : K) < low := Nat.cast_lt.mpr (not_le.mp hlt)
    rcases Prod.Lex.toLex_le_toLex.mp hmin with hd | ⟨hd, -⟩
    · rw [abs_of_nonpos (by linarith), abs_of_nonpos (by linarith)] at hd
      linarith
    · simp only at hd
      rw [abs_of_nonpos (by linarith), abs_of_nonpos (by linarith)] at hd
      linarith
  · cases h

theorem le_of_spread {grid : List ℕ} {low high n f : ℕ} {fs : List ℕ} (h : spread (K := K) grid low high n = .ok fs)
    (hlow : low ∈ grid) (hle : low ≤ high) (hf : f ∈ fs) : low ≤ f := by
  have hle' : (low : K) ≤ high := Nat.cast_le.mpr hle
  unfold spread at h
  split_ifs at h with hsmall
  · obtain ⟨g, hg, h⟩ := bind_eq_ok.mp h
    obtain rfl := Except.ok.inj h
    obtain rfl := List.mem_singleton.mp hf
    exact le_of_snap hg hlow hle'
  · obtain ⟨points, hpoints, h⟩ := bind_eq_ok.mp h
    obtain rfl := Except.ok.inj h
    obtain ⟨i, hi, hsnap⟩ := exists_of_mapM_ok hpoints (List.mem_dedup.mp ((List.mem_insertionSort _).mp hf))
    obtain ⟨k, -, rfl⟩ : ∃ k < n, i = (k : K) := by simpa using hi
    refine le_of_snap hsnap hlow ?_
    have hn : (0 : K) < n - 1 := by
      have : (1 : K) < n := by exact_mod_cast (not_le.mp (not_or.mp hsmall).1)
      linarith
    have hstep : 0 ≤ ((high : K) - low) * k / (n - 1) := by
      have := sub_nonneg.mpr hle'
      positivity
    linarith

/-- A pair under test runs a window at the load asked for. -/
def AsAsked (b : ProbeBackend K σ) : Prop :=
  ∀ clock eqTps alpha seconds above world, (b.openWindow clock eqTps alpha seconds above world).1.load = eqTps

theorem TierLocator.Measured.load {b : ProbeBackend K σ} (hb : AsAsked b) {clock : ClockPoint} {eqTps alpha : K}
    {w : WindowResult K} (h : Measured b (openKey clock eqTps alpha) w) : |w.load - eqTps| ≤ 1 / 10 := by
  generalize hkey : openKey clock eqTps alpha = key at h
  cases h with
  | opened clock' eqTps' alpha' seconds above world =>
    rw [hb]
    injection hkey with _ hload _
    exact abs_sub_le_of_roundTo hload.symm
  | closed => cases hkey

namespace LocatorState
variable {b : LocatorBackend K σ} {c c₁ c₂ c' : LocatorState K σ}

/-- Later in a run. -/
structure Later (b : LocatorBackend K σ) (c c' : LocatorState K σ) : Prop where
  locator : Onward b.toProbeBackend c.toTierLocator c'.toTierLocator
  plan : c'.plan = c.plan

/-- The caches hold what the pair measured. -/
def Sound (b : LocatorBackend K σ) (c : LocatorState K σ) : Prop := c.toTierLocator.CacheHolds (Measured b.toProbeBackend)

theorem Later.sound (h : Later b c c') : Sound b c' := h.locator.cache

theorem Later.refl (h : Sound b c) : Later b c c := ⟨.refl h, rfl⟩

theorem Later.trans (h : Later b c c₁) (h' : Later b c₁ c₂) : Later b c c₂ :=
  ⟨h.locator.trans h'.locator, h'.plan.trans h.plan⟩

/-- What leaves the windows alone. -/
theorem Later.of_eq (hc : Sound b c) (hcache : c'.cache = c.cache) (hsettings : c'.settings = c.settings)
    (hcapacity : c'.capacity = c.capacity) (hresults : c'.results = c.results) (hplan : c'.plan = c.plan) :
    Later b c c' where
  locator := ⟨fun key hit h => hc key hit (hcache ▸ h), hsettings, hcapacity, hresults ▸ List.prefix_rfl⟩
  plan := hplan

/-- A window of the run, measured at a clock and a load. -/
def Saw (b : LocatorBackend K σ) (c : LocatorState K σ) (clock : ClockPoint) (load alpha : K) (w : WindowResult K) : Prop :=
  w ∈ c.results ∧ Measured b.toProbeBackend (openKey clock load alpha) w

theorem Saw.later {clock : ClockPoint} {load alpha : K} {w : WindowResult K} (hw : Saw b c clock load alpha w)
    (h : Later b c c') :
    Saw b c' clock load alpha w :=
  ⟨h.locator.results.subset hw.1, hw.2⟩

theorem window_later (hc : Sound b c) (clock : ClockPoint) (load alpha : K) :
    Later b c (c.window b clock load alpha).2 ∧
      Saw b (c.window b clock load alpha).2 clock load alpha (c.window b clock load alpha).1 := by
  obtain ⟨hw, hmem, honward⟩ := openWindow_onward hc clock load alpha
  exact ⟨⟨honward, rfl⟩, hmem, hw⟩

omit [Scalar K] in
/-- A step of the searches that succeeded. -/
theorem search_eq_ok {α : Type} {r : Except (SearchError K) (α × TierLocator K σ)} {a : α} (h : c.search r = .ok (a, c')) :
    ∃ l, r = .ok (a, l) ∧ c' = { c with toTierLocator := l } := by
  unfold search at h
  split at h
  · obtain ⟨rfl, rfl⟩ := Prod.mk.inj (Except.ok.inj h)
    exact ⟨_, rfl, rfl⟩
  · cases h

theorem mapError_eq_ok {ε ε' α : Type} {f : ε → ε'} {x : Except ε α} {a : α} : x.mapError f = .ok a ↔ x = .ok a := by
  cases x with
  | error e => simp [Except.mapError]
  | ok a' => simp [Except.mapError]

/-! ### Park -/

theorem idleMeasured_later (hc : Sound b c) (point : ClockPoint) : Later b c (c.idleMeasured b point).2 :=
  .of_eq hc rfl rfl rfl rfl rfl

theorem idleAt_later (hc : Sound b c) (point : ClockPoint) : Later b c (c.idleAt b point).2 := by
  unfold idleAt
  split
  · exact idleMeasured_later hc point
  · simp only
    split_ifs
    · exact .of_eq hc rfl rfl rfl rfl rfl
    · exact .of_eq hc rfl rfl rfl rfl rfl

omit [Scalar K] in
theorem mem_setDefault {power : Dict ℕ K} {f g : ℕ} {w : K} (h : ((setDefault power f w).lookup g).isSome) :
    (power.lookup g).isSome ∨ g = f := by
  unfold setDefault at h
  split_ifs at h
  · exact .inl h
  · by_cases hg : g = f
    · exact .inr hg
    · rw [AList.lookup_insert_ne hg] at h
      exact .inl h

/-- The idle power is known at clocks of the points only. -/
theorem idleScan_spec : ∀ (points : List ClockPoint) (power : Dict ℕ K × Dict ℕ K) {c : LocatorState K σ}, Sound b c →
    Later b c (idleScan b points power c).2 ∧
      (∀ f, ((idleScan b points power c).1.1.lookup f).isSome → (power.1.lookup f).isSome ∨
        ∃ p ∈ points, f = p.prefillMhz) ∧
      ∀ f, ((idleScan b points power c).1.2.lookup f).isSome → (power.2.lookup f).isSome ∨ ∃ p ∈ points, f = p.decodeMhz
  | [], _, _, hc => ⟨.refl hc, fun _ h => .inl h, fun _ h => .inl h⟩
  | point :: rest, power, c, hc => by
    have hfirst := idleAt_later hc point
    have hrest := fun power => idleScan_spec rest power hfirst.sound
    rw [idleScan]
    refine ⟨hfirst.trans (hrest _).1, fun f hf => ?_, fun f hf => ?_⟩
    · rcases (hrest _).2.1 f hf with hold | ⟨p, hmem, rfl⟩
      · exact (mem_setDefault hold).imp_right fun h => ⟨point, List.mem_cons_self, h⟩
      · exact .inr ⟨p, List.mem_cons_of_mem _ hmem, rfl⟩
    · rcases (hrest _).2.2 f hf with hold | ⟨p, hmem, rfl⟩
      · exact (mem_setDefault hold).imp_right fun h => ⟨point, List.mem_cons_self, h⟩
      · exact .inr ⟨p, List.mem_cons_of_mem _ hmem, rfl⟩

theorem lowest_mem {noise : K} {power : Dict ℕ K} {f : ℕ} (h : lowest noise power = .ok f) : (power.lookup f).isSome := by
  unfold lowest at h
  split at h
  · cases h
  · split at h
    · cases h
    · rename_i hmin
      obtain rfl := Except.ok.inj h
      obtain ⟨e, he, rfl⟩ := List.mem_map.mp (List.min?_mem hmin)
      exact Dict.mem_keys_items.mp (List.mem_map_of_mem (List.mem_of_mem_filter he))

/-- Evenly spaced clocks are never none. -/
theorem spread_ne_nil {grid : List ℕ} {low high n : ℕ} {fs : List ℕ} (h : spread (K := K) grid low high n = .ok fs) :
    fs ≠ [] := by
  unfold spread at h
  split_ifs at h with hsmall
  · obtain ⟨f, -, h⟩ := bind_eq_ok.mp h
    obtain rfl := Except.ok.inj h
    exact List.cons_ne_nil _ _
  · obtain ⟨points, hpoints, h⟩ := bind_eq_ok.mp h
    obtain rfl := Except.ok.inj h
    have hlength : points.length = n := by
      simpa using (mapM_ok_iff.mp hpoints).length_eq.symm
    rintro hnil
    have : points = [] := by
      refine List.eq_nil_iff_forall_not_mem.mpr fun f hf => ?_
      have hmem := (List.mem_insertionSort (· ≥ ·)).mpr (List.mem_dedup.mpr hf)
      rw [hnil] at hmem
      cases hmem
    rw [this] at hlength
    simp only [List.length_nil] at hlength
    omega

theorem candidates_mem {n : ℕ} {grid fs : List ℕ} (h : candidates (K := K) n grid = .ok fs) :
    fs ≠ [] ∧ ∀ f ∈ fs, f ∈ grid := by
  unfold candidates at h
  split at h
  · exact ⟨spread_ne_nil h, fun f hf => mem_of_spread h hf⟩
  · cases h

theorem getD_mem {fs : List ℕ} (h : fs ≠ []) (i : ℕ) : fs.getD (min i (fs.length - 1)) 0 ∈ fs := by
  have hpos := List.length_pos_iff.mpr h
  rw [List.getD_eq_getElem _ _ (by omega)]
  exact List.getElem_mem _

/-- Park is a pair of clocks of the hardware. -/
theorem park_later {hw : Hardware} {point : ClockPoint} (hc : Sound b c) (h : c.park b hw = .ok (point, c')) :
    Later b c c' ∧ point.prefillMhz ∈ hw.prefillClocks ∧ point.decodeMhz ∈ hw.decodeClocks := by
  obtain ⟨ps, hps, h⟩ := bind_eq_ok.mp (mapError_eq_ok.mp h)
  obtain ⟨ds, hds, h⟩ := bind_eq_ok.mp h
  obtain ⟨p, hp, h⟩ := bind_eq_ok.mp h
  obtain ⟨d, hd, h⟩ := bind_eq_ok.mp h
  obtain ⟨rfl, rfl⟩ := Prod.mk.inj (Except.ok.inj h)
  obtain ⟨hpne, hpmem⟩ := candidates_mem hps
  obtain ⟨hdne, hdmem⟩ := candidates_mem hds
  obtain ⟨hlater, hpower, hdpower⟩ := idleScan_spec (parkPoints ps ds) (∅, ∅) hc
  have hpoint : ∀ q ∈ parkPoints ps ds, q.prefillMhz ∈ ps ∧ q.decodeMhz ∈ ds := by
    intro q hq
    obtain ⟨i, -, rfl⟩ := List.mem_map.mp hq
    exact ⟨getD_mem hpne i, getD_mem hdne i⟩
  refine ⟨hlater.trans (.of_eq hlater.sound rfl rfl rfl rfl rfl), ?_, ?_⟩
  · rcases hpower p (lowest_mem hp) with hnone | ⟨q, hq, rfl⟩
    · cases hnone
    · exact hpmem _ (hpoint q hq).1
  · rcases hdpower d (lowest_mem hd) with hnone | ⟨q, hq, rfl⟩
    · cases hnone
    · exact hdmem _ (hpoint q hq).2

/-! ### Service times -/

theorem serviceSamples_later {clock : ClockPoint} {lengths : List ℕ} {samples : List (ServiceSample K)} (hc : Sound b c)
    (h : c.serviceSamples b clock lengths = .ok (samples, c')) : Later b c c' := by
  obtain ⟨⟨answer, l⟩, -, h⟩ := bind_eq_ok.mp h
  obtain ⟨-, rfl⟩ := Prod.mk.inj (Except.ok.inj h)
  exact .of_eq hc rfl rfl rfl rfl rfl

theorem alpha_later {top : ClockPoint} {prompts : List ℕ} {r : K × Option ℕ} (hc : Sound b c)
    (h : c.alpha b top prompts = .ok (r, c')) : Later b c c' := by
  obtain ⟨lengths, -, h⟩ := bind_eq_ok.mp h
  obtain ⟨⟨samples, c₁⟩, hsamples, h⟩ := bind_eq_ok.mp h
  obtain ⟨alpha, -, h⟩ := bind_eq_ok.mp h
  have hfirst := serviceSamples_later hc (mapError_eq_ok.mp hsamples)
  simp only at h
  split at h
  · obtain ⟨-, rfl⟩ := Prod.mk.inj (Except.ok.inj h)
    exact hfirst.trans (.of_eq hfirst.sound rfl rfl rfl rfl rfl)
  · cases h

theorem prefillTable_later {clock : ClockPoint} {prompts : List ℕ} {fresh idle : Bool} (hc : Sound b c)
    (h : c.prefillTable b clock prompts fresh idle = .ok c') : Later b c c' := by
  obtain ⟨lengths, -, h⟩ := bind_eq_ok.mp h
  obtain ⟨l, -, h⟩ := bind_eq_ok.mp h
  obtain rfl := Except.ok.inj h
  exact .of_eq hc rfl rfl rfl rfl rfl

theorem prefillTables_later {prompts : List ℕ} : ∀ (clocks : List (ClockPoint × Bool × Bool)) {c : LocatorState K σ},
    Sound b c → prefillTables b prompts clocks c = .ok c' → Later b c c'
  | [], _, hc, h => by
    cases h
    exact .refl hc
  | (clock, fresh, idle) :: rest, c, hc, h => by
    obtain ⟨c₁, hone, h⟩ := bind_eq_ok.mp h
    have hfirst := prefillTable_later hc hone
    exact hfirst.trans (prefillTables_later rest hfirst.sound h)

theorem tables_later {hw : Hardware} {top : ClockPoint} {fEff fH : ℕ} {prompts : List ℕ} (hc : Sound b c)
    (h : c.tables b hw top fEff fH prompts = .ok c') : Later b c c' := by
  unfold tables at h
  simp only at h
  split at h
  · obtain ⟨clocks, -, h⟩ := bind_eq_ok.mp h
    obtain ⟨c₁, htables, h⟩ := bind_eq_ok.mp h
    have hfirst := prefillTables_later _ hc htables
    obtain ⟨c₂, hagain, h⟩ := bind_eq_ok.mp h
    have hsecond := hfirst.trans (prefillTables_later _ hfirst.sound hagain)
    obtain rfl := Except.ok.inj h
    exact hsecond.trans (.of_eq hsecond.sound rfl rfl rfl rfl rfl)
  · cases h

/-! ### The D clock -/

section
variable {b : ProbeBackend K σ} {l l' : TierLocator K σ} {hw : Hardware} {prefillMhz capacity : ℕ}

theorem unfitted_onward (hl : l.CacheHolds (Measured b)) (h : unfitted b l hw prefillMhz capacity = .ok l') :
    Onward b l l' := by
  unfold unfitted at h
  simp only at h
  split at h
  · split at h
    · obtain rfl := Except.ok.inj h
      exact fitBoth_onward hl
    · rename_i coefTop l₁ hfit
      obtain ⟨clocks, -, h⟩ := bind_eq_ok.mp h
      obtain ⟨⟨perClock, l₂⟩, hscan, h⟩ := bind_eq_ok.mp h
      obtain ⟨fD, -, h⟩ := bind_eq_ok.mp h
      obtain rfl := Except.ok.inj h
      have hfirst := fitLength_onward hl hfit
      have hsecond := hfirst.trans (decodeScan_onward clocks hfirst.cache hscan).1
      exact hsecond.trans ((repeats_onward hsecond.cache _).trans (fitBoth_onward (repeats_onward hsecond.cache _).cache))
  · cases h

theorem decodeFitted_onward {found : Option (ℕ × ℤ × Bool × DecodeEvidence K)} (hl : l.CacheHolds (Measured b))
    (h : decodeFitted b l hw prefillMhz capacity = .ok (found, l')) :
    Onward b l l' ∧ ∀ r ∈ found, r.1 ∈ hw.decodeClocks := by
  unfold decodeFitted at h
  by_cases hcapacity : capacity = 0
  · rw [if_pos hcapacity] at h
    obtain ⟨rfl, rfl⟩ := Prod.mk.inj (Except.ok.inj h)
    exact ⟨.refl hl, fun r hr => by cases hr⟩
  rw [if_neg hcapacity] at h
  split at h
  · rename_i fD n wall ev l₁ hlength
    obtain ⟨rfl, rfl⟩ := Prod.mk.inj (Except.ok.inj h)
    obtain ⟨honward, hmem⟩ := decodeLength_onward hl hlength
    exact ⟨honward, fun r hr => Option.some.inj hr ▸ hmem⟩
  · split_ifs at h
    obtain ⟨l₁, hl₁, h⟩ := bind_eq_ok.mp h
    obtain ⟨rfl, rfl⟩ := Prod.mk.inj (Except.ok.inj h)
    exact ⟨unfitted_onward hl hl₁, fun r hr => by cases hr⟩

theorem kvCapacity_onward {c : LocatorState K σ} (hc : c.toTierLocator.CacheHolds (Measured b)) :
    Onward b c.toTierLocator (c.kvCapacity b).2 := by
  unfold kvCapacity
  split
  · exact ⟨hc, rfl, rfl, List.prefix_rfl⟩
  · exact .refl hc

theorem decodeStep_onward {c : LocatorState K σ} {r : ℕ × ℤ × Bool × DecodeEvidence K}
    (hc : c.toTierLocator.CacheHolds (Measured b)) (h : c.decodeStep b hw prefillMhz = .ok (r, l')) :
    Onward b c.toTierLocator l' ∧ r.1 ∈ hw.decodeClocks := by
  have hfirst := kvCapacity_onward hc
  unfold decodeStep at h
  obtain ⟨⟨found, l₁⟩, hfound, h⟩ := bind_eq_ok.mp h
  obtain ⟨honward, hmem⟩ := decodeFitted_onward hfirst.cache hfound
  have hfitted : Onward b c.toTierLocator l₁ ∧ ∀ r ∈ found, r.1 ∈ hw.decodeClocks := ⟨hfirst.trans honward, hmem⟩
  simp only at h
  split at h
  · obtain ⟨rfl, rfl⟩ := Prod.mk.inj (Except.ok.inj h)
    exact ⟨hfitted.1, hfitted.2 _ rfl⟩
  · obtain ⟨⟨⟨fD, n, wall, ev⟩, l₂⟩, hcount, h⟩ := bind_eq_ok.mp h
    obtain ⟨rfl, rfl⟩ := Prod.mk.inj (Except.ok.inj h)
    obtain ⟨honward, hmem⟩ := decodeCount_onward hfitted.1.cache hcount
    exact ⟨hfitted.1.trans honward, hmem⟩

end

theorem decode_later {hw : Hardware} {prefillMhz : ℕ} {r : ℕ × ℤ × Bool × DecodeEvidence K} (hc : Sound b c)
    (h : c.decode b hw prefillMhz = .ok (r, c')) : Later b c c' ∧ r.1 ∈ hw.decodeClocks := by
  obtain ⟨l, hl, rfl⟩ := search_eq_ok h
  obtain ⟨honward, hmem⟩ := decodeStep_onward hc hl
  exact ⟨⟨honward, rfl⟩, hmem⟩

/-! ### Both clocks -/

/-- The first clock of a sorted ladder that holds is the lowest; all below were measured and missed. -/
theorem climbLadder_spec {prefillMhz f : ℕ} {load alpha : K} : ∀ (ladder : List ℕ) {c : LocatorState K σ}, Sound b c →
    ladder.Pairwise (· ≤ ·) → climbLadder b prefillMhz load alpha ladder c = .ok (f, c') →
    Later b c c' ∧ f ∈ ladder ∧ (∃ w, Saw b c' ⟨prefillMhz, f⟩ load alpha w ∧ c.settings.meetsTarget w = true) ∧
      ∀ g ∈ ladder, g < f → ∃ w, Saw b c' ⟨prefillMhz, g⟩ load alpha w ∧ c.settings.meetsTarget w = false
  | [], _, _, _, h => by cases h
  | g :: above, c, hc, hsorted, h => by
    obtain ⟨hfirst, hsaw⟩ := window_later hc ⟨prefillMhz, g⟩ load alpha
    have hsettings := hfirst.locator.settings
    rw [climbLadder] at h
    simp only at h
    split_ifs at h with hmeets
    · obtain ⟨rfl, rfl⟩ := Prod.mk.inj (Except.ok.inj h)
      refine ⟨hfirst, List.mem_cons_self, ⟨_, hsaw, hsettings ▸ hmeets⟩, fun k hk hlt => ?_⟩
      rcases List.mem_cons.mp hk with rfl | hk
      · exact absurd hlt (lt_irrefl _)
      · exact absurd hlt (not_lt_of_ge (List.rel_of_pairwise_cons hsorted hk))
    · obtain ⟨hlater, hmem, hheld, hbelow⟩ := climbLadder_spec above hfirst.sound hsorted.of_cons h
      rw [hsettings] at hheld hbelow hmeets
      refine ⟨hfirst.trans hlater, List.mem_cons_of_mem _ hmem, hheld, fun k hk hlt => ?_⟩
      rcases List.mem_cons.mp hk with rfl | hk
      · exact ⟨_, hsaw.later hlater, eq_false_of_ne_true hmeets⟩
      · exact hbelow k hk hlt

/-- The lowest clock of the ladder from `decodeMhz` up. -/
theorem joint_spec {hw : Hardware} {prefillMhz decodeMhz f : ℕ} {load alpha : K} (hc : Sound b c)
    (h : c.joint b hw prefillMhz decodeMhz load alpha = .ok (f, c')) :
    Later b c c' ∧ (∃ w, Saw b c' ⟨prefillMhz, f⟩ load alpha w ∧ c.settings.meetsTarget w = true) ∧
      ∃ topD ladder, hw.decodeClocks.getLast? = some topD ∧
        spread (K := K) hw.decodeClocks decodeMhz topD (c.settings.coarsePoints - 1) = .ok ladder ∧ f ∈ ladder ∧
        ∀ g ∈ ladder, g < f → ∃ w, Saw b c' ⟨prefillMhz, g⟩ load alpha w ∧ c.settings.meetsTarget w = false := by
  unfold joint at h
  split at h
  · rename_i topD htop
    obtain ⟨ladder, hladder, h⟩ := bind_eq_ok.mp h
    obtain ⟨hlater, hmem, hheld, hbelow⟩ := climbLadder_spec _ hc (List.pairwise_insertionSort (· ≤ ·) _) h
    have hiff (g : ℕ) : g ∈ ladder.dedup.insertionSort (· ≤ ·) ↔ g ∈ ladder := by
      rw [List.mem_insertionSort, List.mem_dedup]
    exact ⟨hlater, hheld, topD, ladder, htop, mapError_eq_ok.mp hladder, (hiff f).mp hmem,
      fun g hg hlt => hbelow g ((hiff g).mpr hg) hlt⟩
  · cases h

/-! ### The capacity -/

/-- A window at the point that met the target, at some load. -/
def Meets (b : LocatorBackend K σ) (c : LocatorState K σ) (point : ClockPoint) (alpha : K) (w : WindowResult K) : Prop :=
  c.settings.meetsTarget w = true ∧ ∃ load, Saw b c point load alpha w

theorem Meets.later {point : ClockPoint} {alpha : K} {w : WindowResult K} (hw : Meets b c point alpha w)
    (h : Later b c c') :
    Meets b c' point alpha w :=
  ⟨h.locator.settings ▸ hw.1, hw.2.imp fun _ hsaw => hsaw.later h⟩

/-- Each fill load has a window, which is among the good ones if it met the target. -/
theorem fillScan_spec (point : ClockPoint) (c0 alpha : K) : ∀ (fractions : List K) {c : LocatorState K σ}, Sound b c →
    Later b c (fillScan b point c0 alpha fractions c).2 ∧
      (∀ w ∈ (fillScan b point c0 alpha fractions c).1.1, Meets b (fillScan b point c0 alpha fractions c).2 point alpha w) ∧
      ∀ x ∈ fractions, ∃ w, Saw b (fillScan b point c0 alpha fractions c).2 point (x * c0) alpha w ∧
        (c.settings.meetsTarget w = true → w ∈ (fillScan b point c0 alpha fractions c).1.1)
  | [], _, hc => ⟨.refl hc, fun _ h => absurd h List.not_mem_nil, fun _ h => absurd h List.not_mem_nil⟩
  | fraction :: rest, c, hc => by
    obtain ⟨hfirst, hsaw⟩ := window_later hc point (fraction * c0) alpha
    obtain ⟨hlater, hgood, hfill⟩ := fillScan_spec point c0 alpha rest hfirst.sound
    have hsettings := hfirst.locator.settings
    rw [hsettings] at hfill
    have hsaw' := hsaw.later hlater
    rw [fillScan]
    simp only
    split_ifs with hmeets
    · refine ⟨hfirst.trans hlater, fun w hw => ?_, fun x hx => ?_⟩
      · rcases List.mem_cons.mp hw with rfl | hw
        · exact ⟨hlater.locator.settings ▸ hmeets, _, hsaw'⟩
        · exact hgood w hw
      · rcases List.mem_cons.mp hx with rfl | hx
        · exact ⟨_, hsaw', fun _ => List.mem_cons_self⟩
        · obtain ⟨w, hw, hmem⟩ := hfill x hx
          exact ⟨w, hw, fun h => List.mem_cons_of_mem _ (hmem h)⟩
    · refine ⟨hfirst.trans hlater, hgood, fun x hx => ?_⟩
      rcases List.mem_cons.mp hx with rfl | hx
      · exact ⟨_, hsaw', fun h => absurd (hsettings ▸ h) hmeets⟩
      · exact hfill x hx

/-- Between a good window and a bad load above a floor the good end stays above it, up to a tenth a step. -/
theorem fillBisect_spec (hb : AsAsked b.toProbeBackend) {point : ClockPoint} {alpha : K} : ∀ (steps : ℕ)
    {best : WindowResult K} {hi floor : K} {c : LocatorState K σ}, Sound b c → Meets b c point alpha best →
    floor ≤ best.load → floor ≤ hi →
    Later b c (fillBisect b point alpha steps best hi c).2 ∧
      Meets b (fillBisect b point alpha steps best hi c).2 point alpha (fillBisect b point alpha steps best hi c).1 ∧
      floor - steps / 10 ≤ (fillBisect b point alpha steps best hi c).1.load
  | 0, best, hi, floor, c, hc, hbest, hlow, _ => by
    refine ⟨.refl hc, hbest, ?_⟩
    simpa [fillBisect] using hlow
  | steps + 1, best, hi, floor, c, hc, hbest, hlow, hhigh => by
    obtain ⟨hfirst, hsaw⟩ := window_later hc point ((best.load + hi) / 2) alpha
    have hclose := abs_le.mp (hsaw.2.load hb)
    have hload : floor - 1 / 10 ≤ (c.window b point ((best.load + hi) / 2) alpha).1.load := by linarith [hclose.1]
    have htenth : floor - ((steps + 1 : ℕ) : K) / 10 = floor - 1 / 10 - steps / 10 := by
      push_cast
      ring
    rw [fillBisect, htenth]
    simp only
    split_ifs with hmeets
    · have hhi : floor - 1 / 10 ≤ hi := by linarith
      obtain ⟨hlater, hres⟩ := fillBisect_spec hb steps hfirst.sound ⟨hmeets, _, hsaw⟩ hload hhi
      exact ⟨hfirst.trans hlater, hres⟩
    · have hbestLoad : floor - 1 / 10 ≤ best.load := by linarith
      obtain ⟨hlater, hres⟩ := fillBisect_spec hb steps hfirst.sound (hbest.later hfirst) hbestLoad hload
      exact ⟨hfirst.trans hlater, hres⟩

/-- The capacity is the load of a window at the point that met the target, and no fill load that met it lies above, up
    to the rounding of the keys in each bisection. -/
structure Filled (b : LocatorBackend K σ) (c : LocatorState K σ) (point : ClockPoint) (c0 alpha capacity : K) : Prop where
  window : ∃ w, Meets b c point alpha w ∧ w.load = capacity
  fills : ∀ x ∈ c.plan.fillLoadFractions, ∃ w, Saw b c point (x * c0) alpha w ∧
    (c.settings.meetsTarget w = true → w.load ≤ capacity + c.plan.fillBisectSteps / 10)

theorem Filled.later {point : ClockPoint} {c0 alpha capacity : K} (h : Filled b c point c0 alpha capacity)
    (hlater : Later b c c') :
    Filled b c' point c0 alpha capacity := by
  have hsettings := hlater.locator.settings
  obtain ⟨w, hw, hload⟩ := h.window
  refine ⟨⟨w, hw.later hlater, hload⟩, fun x hx => ?_⟩
  rw [hlater.plan] at hx ⊢
  obtain ⟨v, hv, hle⟩ := h.fills x hx
  exact ⟨v, hv.later hlater, fun hmeets => hle (hsettings ▸ hmeets)⟩

theorem fill_spec (hb : AsAsked b.toProbeBackend) {point : ClockPoint} {c0 alpha capacity : K} {best : WindowResult K}
    (hc : Sound b c) (h : c.fill b point c0 alpha = .ok ((capacity, best), c')) :
    Later b c c' ∧ Filled b c' point c0 alpha capacity := by
  obtain ⟨hscan, hgood, hfill⟩ := fillScan_spec point c0 alpha c.plan.fillLoadFractions hc
  unfold fill at h
  simp only at h
  split at h
  · cases h
  · rename_i start hstart
    -- The bisection starts from the greatest load that met the target.
    have hmax (w : WindowResult K) (hw : w ∈ (fillScan b point c0 alpha c.plan.fillLoadFractions c).1.1) :
        w.load ≤ start.load :=
      List.le_of_mem_argmax hw hstart
    have hstartMeets := hgood start (List.argmax_mem hstart)
    have hsteps : (0 : K) ≤ c.plan.fillBisectSteps / 10 := by positivity
    cases hmin : ((fillScan b point c0 alpha c.plan.fillLoadFractions c).1.2.filter (start.load < ·)).min? with
    | none =>
      rw [hmin] at h
      obtain ⟨hr, rfl⟩ := Prod.mk.inj (Except.ok.inj h)
      obtain ⟨rfl, rfl⟩ := Prod.mk.inj hr
      refine ⟨hscan, ⟨start, hstartMeets, rfl⟩, fun x hx => ?_⟩
      rw [hscan.plan] at hx ⊢
      obtain ⟨w, hw, hmem⟩ := hfill x hx
      exact ⟨w, hw, fun hmeets =>
        (hmax w (hmem (hscan.locator.settings ▸ hmeets))).trans (le_add_of_nonneg_right hsteps)⟩
    | some hi =>
      rw [hmin] at h
      simp only [hscan.plan] at h
      have hhi : start.load ≤ hi := (of_decide_eq_true (List.mem_filter.mp (List.min?_mem hmin)).2).le
      obtain ⟨hlater, hbest, hfloor⟩ := fillBisect_spec hb c.plan.fillBisectSteps hscan.sound hstartMeets le_rfl hhi
      obtain ⟨hr, rfl⟩ := Prod.mk.inj (Except.ok.inj h)
      obtain ⟨rfl, rfl⟩ := Prod.mk.inj hr
      have hboth := hscan.trans hlater
      refine ⟨hboth, ⟨_, hbest, rfl⟩, fun x hx => ?_⟩
      rw [hboth.plan] at hx ⊢
      obtain ⟨w, hw, hmem⟩ := hfill x hx
      exact ⟨w, hw.later hlater, fun hmeets =>
        (hmax w (hmem (hboth.locator.settings ▸ hmeets))).trans (sub_le_iff_le_add.mp hfloor)⟩

/-! ### A whole run -/

/-- A point holds a load: a window of the run there met the target, and with a lower D clock of the ladder from `alone`
    up one missed it. -/
structure Holds (b : LocatorBackend K σ) (hw : Hardware) (c : LocatorState K σ) (point : ClockPoint) (alone : ℕ)
    (load alpha : K) : Prop where
  window : ∃ w, Saw b c point load alpha w ∧ c.settings.meetsTarget w = true
  ladder : ∃ topD ladder, hw.decodeClocks.getLast? = some topD ∧
    spread (K := K) hw.decodeClocks alone topD (c.settings.coarsePoints - 1) = .ok ladder ∧ point.decodeMhz ∈ ladder ∧
      ∀ g ∈ ladder, g < point.decodeMhz →
        ∃ w, Saw b c ⟨point.prefillMhz, g⟩ load alpha w ∧ c.settings.meetsTarget w = false

section
variable {hw : Hardware} {point : ClockPoint} {alone : ℕ} {load alpha : K}

theorem Holds.later (h : Holds b hw c point alone load alpha) (hlater : Later b c c') :
    Holds b hw c' point alone load alpha := by
  obtain ⟨⟨w, hsaw, hmeets⟩, topD, ladder, htop, hladder, hmem, hbelow⟩ := h
  have hsettings := hlater.locator.settings
  refine ⟨⟨w, hsaw.later hlater, hsettings ▸ hmeets⟩, topD, ladder, htop, hsettings ▸ hladder, hmem, fun g hg hlt => ?_⟩
  obtain ⟨v, hv, hmissed⟩ := hbelow g hg hlt
  exact ⟨v, hv.later hlater, hsettings ▸ hmissed⟩

theorem Holds.of_joint {fH fD : ℕ} (hc : Sound b c) (h : c.joint b hw fH alone load alpha = .ok (fD, c₁))
    (hlater : Later b c₁ c') :
    Holds b hw c' ⟨fH, fD⟩ alone load alpha := by
  obtain ⟨hfirst, hheld, topD, ladder, htop, hladder, hmem, hbelow⟩ := joint_spec hc h
  have hsettings := hfirst.locator.settings
  rw [← hsettings] at hheld hladder hbelow
  exact Holds.later ⟨hheld, topD, ladder, htop, hladder, hmem, hbelow⟩ hlater

/-- The ladder starts at the D clock found alone. -/
theorem Holds.alone_le (h : Holds b hw c point alone load alpha) (hsorted : hw.decodeClocks.Pairwise (· ≤ ·))
    (hmem : alone ∈ hw.decodeClocks) : alone ≤ point.decodeMhz := by
  obtain ⟨topD, ladder, htop, hladder, hin, -⟩ := h.ladder
  exact le_of_spread hladder hmem (Ramp.le_getLast hsorted htop hmem) hin

theorem Holds.decode (h : Holds b hw c point alone load alpha) : point.decodeMhz ∈ hw.decodeClocks := by
  obtain ⟨topD, ladder, -, hladder, hin, -⟩ := h.ladder
  exact mem_of_spread hladder hin

end

/-- What a published table rests on, in the windows of its run. -/
structure Located (b : LocatorBackend K σ) (hw : Hardware) (previous : Option (LocatedTable K)) (c : LocatorState K σ)
    (t : LocatedTable K) : Prop where
  prefill : t.h.prefillMhz ∈ hw.prefillClocks
  decode : t.h.decodeMhz ∈ hw.decodeClocks
  park : previous = none → t.park.prefillMhz ∈ hw.prefillClocks ∧ t.park.decodeMhz ∈ hw.decodeClocks
  /-- The D clock the search of D found, or reused: H's is not below it. -/
  alone : ∃ alone, t.decodeAlone = some alone ∧ (previous = none → alone ∈ hw.decodeClocks) ∧
    (hw.decodeClocks.Pairwise (· ≤ ·) → alone ∈ hw.decodeClocks → alone ≤ t.h.decodeMhz)
  /-- H's P clock is reached under load, H holds the target load, and no fill load that met the target is above its
      capacity. -/
  target : ∃ c0 fEff alone, c.capacity = some (c0, fEff) ∧ t.h.prefillMhz ≤ fEff ∧ t.decodeAlone = some alone ∧
    t.targetLoad = some (c.plan.targetLoadFraction * c0) ∧
    Holds b hw c t.h alone (c.plan.targetLoadFraction * c0) t.alphaTokens ∧ Filled b c t.h c0 t.alphaTokens t.capacityH

theorem parkOf_later {hw : Hardware} {previous : Option (LocatedTable K)} {point : ClockPoint} (hc : Sound b c)
    (h : c.parkOf b hw previous = .ok (point, c')) :
    Later b c c' ∧ (previous = none → point.prefillMhz ∈ hw.prefillClocks ∧ point.decodeMhz ∈ hw.decodeClocks) := by
  cases previous with
  | some table =>
    obtain ⟨-, rfl⟩ := Prod.mk.inj (Except.ok.inj h)
    exact ⟨.of_eq hc rfl rfl rfl rfl rfl, fun h => by cases h⟩
  | none =>
    obtain ⟨hlater, hmem⟩ := park_later hc h
    exact ⟨hlater, fun _ => hmem⟩

theorem decodeOf_later {hw : Hardware} {fEff : ℕ} {previous : Option (LocatedTable K)}
    {r : ℕ × Option ℤ × Bool × DecodeEvidence K} (hc : Sound b c) (h : c.decodeOf b hw fEff previous = .ok (r, c')) :
    Later b c c' ∧ (previous = none → r.1 ∈ hw.decodeClocks) := by
  cases previous with
  | some table =>
    obtain ⟨-, rfl⟩ := Prod.mk.inj (Except.ok.inj h)
    exact ⟨.refl hc, fun h => by cases h⟩
  | none =>
    obtain ⟨⟨⟨fD, n, wall, ev⟩, c₁⟩, hdecode, h⟩ := bind_eq_ok.mp h
    obtain ⟨rfl, rfl⟩ := Prod.mk.inj (Except.ok.inj h)
    obtain ⟨hlater, hmem⟩ := decode_later hc hdecode
    exact ⟨hlater, fun _ => hmem⟩

/-- Before the search of H only the caches count. -/
theorem prepare_spec {hw : Hardware} {top : ClockPoint} {prompts : List ℕ} {previous : Option (LocatedTable K)}
    {park : ClockPoint} {alpha c0 : K} {fEff : ℕ} (hc : Sound b c)
    (h : c.prepare b hw top prompts previous = .ok ((park, alpha, c0, fEff), c')) :
    Sound b c' ∧ c'.capacity = some (c0, fEff) ∧
      (previous = none → park.prefillMhz ∈ hw.prefillClocks ∧ park.decodeMhz ∈ hw.decodeClocks) := by
  obtain ⟨⟨park', c₁⟩, hpark, h⟩ := bind_eq_ok.mp h
  obtain ⟨⟨⟨alpha', limit⟩, c₂⟩, halpha, h⟩ := bind_eq_ok.mp h
  obtain ⟨⟨⟨c0', fEff'⟩, c₃⟩, hramp, h⟩ := bind_eq_ok.mp h
  obtain ⟨hr, rfl⟩ := Prod.mk.inj (Except.ok.inj h)
  simp only [Prod.mk.injEq] at hr
  obtain ⟨rfl, rfl, rfl, rfl⟩ := hr
  obtain ⟨hlater, hmem⟩ := parkOf_later hc hpark
  have hsound : Sound b (c₁.limitPrompts b none).2 := hlater.sound
  have hsound₂ : Sound b c₂ := (alpha_later hsound halpha).sound
  obtain ⟨l, hl, rfl⟩ := search_eq_ok hramp
  have hsound₃ : { (c₂.limitPrompts b limit).2.toTierLocator with meanPrompt := (c₂.limitPrompts b limit).1 }.CacheHolds
      (Measured b.toProbeBackend) := hsound₂
  obtain ⟨honward, hcapacity⟩ := ramp_onward hsound₃ hl
  exact ⟨honward.cache, hcapacity, hmem⟩

/-- H's clocks, the load it holds, and its capacity. -/
theorem findH_spec (hb : AsAsked b.toProbeBackend) {hw : Hardware} {top : ClockPoint} {c0 alpha : K} {fEff : ℕ}
    {prompts : List ℕ} {previous : Option (LocatedTable K)} {found : Found K} (hc : Sound b c)
    (h : c.findH b hw top c0 fEff alpha prompts previous = .ok (found, c')) :
    Later b c c' ∧ found.h.prefillMhz ∈ hw.prefillClocks ∧ found.h.prefillMhz ≤ fEff ∧
      (previous = none → found.alone ∈ hw.decodeClocks) ∧
      Holds b hw c' found.h found.alone (c'.plan.targetLoadFraction * c0) alpha ∧
      Filled b c' found.h c0 alpha found.capacity := by
  obtain ⟨⟨⟨fH, meas⟩, c₁⟩, hsearch, h⟩ := bind_eq_ok.mp h
  obtain ⟨c₂, htables, h⟩ := bind_eq_ok.mp h
  obtain ⟨⟨⟨alone, bStar, wall, ev⟩, c₃⟩, hdecode, h⟩ := bind_eq_ok.mp h
  obtain ⟨⟨fD, c₄⟩, hjoint, h⟩ := bind_eq_ok.mp h
  obtain ⟨⟨⟨capacity, window⟩, c₅⟩, hfill, h⟩ := bind_eq_ok.mp h
  obtain ⟨rfl, rfl⟩ := Prod.mk.inj (Except.ok.inj h)
  obtain ⟨l, hl, rfl⟩ := search_eq_ok hsearch
  obtain ⟨honward, hprefill, hle⟩ := searchPrefill_onward hc hl
  have h₁ : Later b c { c with toTierLocator := l } := ⟨honward, rfl⟩
  have h₂ := h₁.trans (tables_later h₁.sound htables)
  obtain ⟨hdecoded, halone⟩ := decodeOf_later h₂.sound hdecode
  have h₃ := h₂.trans hdecoded
  have h₄ := h₃.trans (joint_spec h₃.sound hjoint).1
  obtain ⟨h₅, hfilled⟩ := fill_spec hb h₄.sound hfill
  have hplan : c₅.plan = c.plan := (h₄.trans h₅).plan
  exact ⟨h₄.trans h₅, hprefill, hle, halone, hplan ▸ .of_joint h₃.sound hjoint h₅, hfilled⟩

/-- Whatever the pair answers: a table the locator publishes is backed by windows of its run, and the caches stay sound. -/
theorem located_of_locate (hb : AsAsked b.toProbeBackend) {calibrate : Calibrate K σ} {meanPrompt : K} {prompts : List ℕ}
    {previous : Option (LocatedTable K)} {t : LocatedTable K} (hc : Sound b c)
    (h : c.locate b calibrate meanPrompt prompts previous = .ok (t, c')) :
    Sound b c' ∧ Located b (b.hardware c.world).1 previous c' t := by
  unfold locate at h
  simp only at h
  split at h
  · split at h
    · obtain ⟨⟨⟨park, alpha, c0, fEff⟩, c₁⟩, hprepare, h⟩ := bind_eq_ok.mp h
      obtain ⟨⟨found, c₂⟩, hfind, h⟩ := bind_eq_ok.mp h
      obtain ⟨rfl, rfl⟩ := Prod.mk.inj (Except.ok.inj h)
      have hstart : Sound b { c.newRun meanPrompt with world := (b.hardware (c.newRun meanPrompt).world).2 } := hc
      obtain ⟨hsound, hcapacity, hpark⟩ := prepare_spec hstart hprepare
      obtain ⟨hlater, hprefill, hle, halone, hholds, hfilled⟩ := findH_spec hb hsound hfind
      have hend : Later b c₂ { c₂ with world := (b.wallTime c₂.world).2 } := .of_eq hlater.sound rfl rfl rfl rfl rfl
      exact ⟨hend.sound,
        { prefill := hprefill
          decode := hholds.decode
          park := hpark
          alone := ⟨found.alone, rfl, halone, hholds.alone_le⟩
          target := ⟨c0, fEff, found.alone, hlater.locator.capacity.trans hcapacity, hle, rfl, rfl, hholds.later hend,
            hfilled.later hend⟩ }⟩
    · cases h
  · cases h

end LocatorState

/-- A pair that takes a load up to its P clock over 100, and 8 sequences at D. -/
def steadyAnswer (clock : ClockPoint) (load : ℚ) : WindowResult ℚ :=
  { WindowResult.quiet load 60 with
    violations := if load ≤ clock.prefillMhz / 100 then 0 else 60
    prefillJ := some (clock.prefillMhz / 10) }

def steadyPair : LocatorBackend ℚ Unit where
  openWindow clock load _ _ _ w := (steadyAnswer clock load, w)
  closedWindow clock n _ _ _ w :=
    ({ WindowResult.quiet (n : ℚ) 60 with
        tpotP95 := some (if n ≤ 8 then 100 else 300)
        decodeJ := some (clock.decodeMhz / 10) }, w)
  mixContext _ _ := 1
  kvCapacity := none
  time w := (0, w)
  hardware w := (⟨[500, 1000], [500, 1000]⟩, w)
  idlePower _ _ w := ((10, 20), w)
  serviceTimes _ prompts w := (prompts.map fun n => ⟨n, n + 10, some (n + 20)⟩, w)
  setPromptLimit _ w := (1, w)
  wallTime w := (0, w)

namespace LocatorState

def steadyStart : LocatorState ℚ Unit := .fresh .defaults (.defaults 200) ()

theorem asAsked_steady : AsAsked steadyPair.toProbeBackend := fun _ _ _ _ _ _ => rfl

theorem sound_steady : Sound steadyPair steadyStart := fun _ _ h => by cases h

theorem located_of_locate_steady :
    ∃ t c', steadyStart.locate steadyPair (fun _ _ _ _ _ => (none, none)) 1 [16, 64] none = .ok (t, c') ∧
    t.h = ⟨1000, 500⟩ ∧ t.park = ⟨500, 500⟩ ∧ Located steadyPair ⟨[500, 1000], [500, 1000]⟩ none c' t := by
  have hvalue : ((steadyStart.locate steadyPair (fun _ _ _ _ _ => (none, none)) 1 [16, 64] none).toOption.any fun r =>
      decide (r.1.h = ⟨1000, 500⟩ ∧ r.1.park = ⟨500, 500⟩)) = true := by decide +kernel
  obtain ⟨⟨t, c'⟩, hlocate, hvalue⟩ := exists_ok_of_any hvalue
  obtain ⟨hh, hpark⟩ := of_decide_eq_true hvalue
  exact ⟨t, c', hlocate, hh, hpark, (located_of_locate asAsked_steady sound_steady hlocate).2⟩

end LocatorState
end CanaTune

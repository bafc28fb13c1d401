import CanaTune.Controller.Windows

/-! The ramp to the capacity at the top clock, and the search of the P clock at a load. -/

namespace CanaTune
variable {K σ : Type} [Scalar K]

namespace TierLocator

/-! ### Ramp -/

/-- The load doubles while it meets the target, and halves until it does once. -/
def climb (b : ProbeBackend K σ) (top : ClockPoint) (alpha : K) :
    ℕ → Option (WindowResult K) → Option (WindowResult K) → K → TierLocator K σ →
      (Option (WindowResult K) × Option (WindowResult K)) × TierLocator K σ
  | 0, good, bad, _, l => ((good, bad), l)
  | steps + 1, good, bad, load, l =>
    let (w, l) := l.openWindow b top load alpha
    if l.settings.meetsTarget w then climb b top alpha steps (some w) bad (load * 2) l
    else if good.isSome then ((good, some w), l)
    else climb b top alpha steps good (some w) (load / 2) l

/-- The window at the good end after `steps` tests between a good load and a bad one. -/
def bisectLoad (b : ProbeBackend K σ) (top : ClockPoint) (alpha : K) :
    ℕ → K → K → WindowResult K → TierLocator K σ → WindowResult K × TierLocator K σ
  | 0, _, _, good, l => (good, l)
  | steps + 1, lo, hi, good, l =>
    let (w, l) := l.openWindow b top ((lo + hi) / 2) alpha
    if l.settings.meetsTarget w then bisectLoad b top alpha steps w.load hi w l
    else bisectLoad b top alpha steps lo w.load good l

/-- The clock reached under load: below the lock under a power cap or when limited. -/
def effectiveClock (s : SearchSettings K) (hw : Hardware) (top : ClockPoint) (good : WindowResult K) :
    Except (SearchError K) ℕ :=
  match good.prefillMhzMedian with
  | some busy =>
    if busy < top.prefillMhz * (1 - s.capGap) ∨ s.limitedFractionMax < good.prefillLimited then
      snapDown hw.prefillClocks busy
    else .ok top.prefillMhz
  | none => .ok top.prefillMhz

/-- C0 in equivalent tokens/s, and f_eff. -/
def ramp (b : ProbeBackend K σ) (l : TierLocator K σ) (hw : Hardware) (top : ClockPoint) (alpha meanPrompt : K) :
    Except (SearchError K) ((K × ℕ) × TierLocator K σ) :=
  match climb b top alpha l.settings.rampMaxSteps none none (l.settings.rampStartRps * (meanPrompt + alpha)) l with
  | ((none, _), _) => .error (.locator .noLoad)
  | ((some good, bad), l) =>
    let (good, l) := match bad with
      | some w => bisectLoad b top alpha 2 good.load w.load good l
      | none => (good, l)
    do
      let fEff ← effectiveClock l.settings hw top good
      return ((good.load, fEff), { l with capacity := some (good.load, fEff) })

end TierLocator

/-! ### Search of the P clock -/

/-- `d[k]`. -/
def lookupKey {ν : Type} (d : Dict ℕ ν) (k : ℕ) : Except (SearchError K) ν :=
  match d.lookup k with
  | some v => .ok v
  | none => .error .key

/-- `xs[i]`. -/
def lookupIndex (xs : List ℕ) (i : ℕ) : Except (SearchError K) ℕ :=
  match xs[i]? with
  | some f => .ok f
  | none => .error .index

/-- What a search of the P clock measures: its clocks, and where it holds D and the load. -/
structure PrefillQuery (K : Type) where
  grid : List ℕ
  decodeMhz : ℕ
  load : K
  alpha : K

/-- The windows measured in this search by their clock, and the locator. -/
structure PrefillScan (K σ : Type) where
  meas : Dict ℕ (WindowResult K)
  locator : TierLocator K σ

namespace PrefillScan

def settings (s : PrefillScan K σ) : SearchSettings K := s.locator.settings

/-- The window at the grid's clock nearest to `f`, measured once in this search. -/
def measure (b : ProbeBackend K σ) (q : PrefillQuery K) (s : PrefillScan K σ) (f : ℕ) :
    Except (SearchError K) (WindowResult K × PrefillScan K σ) := do
  let f ← snap q.grid (f : K)
  match s.meas.lookup f with
  | some w => return (w, s)
  | none =>
    let (w, l) := s.locator.openWindow b ⟨f, q.decodeMhz⟩ q.load q.alpha
    return (w, ⟨s.meas.insert f w, l⟩)

/-- Down to the first infeasible clock: lower ones only get slower. -/
def coarse (b : ProbeBackend K σ) (q : PrefillQuery K) :
    List ℕ → PrefillScan K σ → Except (SearchError K) (PrefillScan K σ)
  | [], s => .ok s
  | f :: rest, s => do
    let (w, s) ← s.measure b q f
    if s.settings.feasible w then coarse b q rest s else return s

/-- Energy of the feasible clocks, where it is known. -/
def feasibleEnergy (s : PrefillScan K σ) : Dict ℕ K :=
  (s.meas.filter fun _ w => s.settings.feasible w && w.prefillJ.isSome).mapValues fun _ w => w.prefillJ.getD 0

/-- Bisection of the edge between an infeasible clock and a feasible one. -/
def edge (b : ProbeBackend K σ) (q : PrefillQuery K) (step : ℤ) :
    ℕ → ℕ → ℕ → Dict ℕ K → PrefillScan K σ → Except (SearchError K) (PrefillScan K σ)
  | 0, _, _, _, s => .ok s
  | steps + 1, lo, hi, energies, s =>
    if (hi : ℤ) - lo ≤ 2 * step then .ok s
    else do
      let mid ← snap q.grid (((lo : K) + hi) / 2)
      let (w, s) ← s.measure b q mid
      if s.settings.feasible w then
        match w.prefillJ with
        | some e =>
          let top ← lookupKey energies hi
          if e ≤ top * (1 + s.settings.eps / 2) then edge b q step steps lo mid s.feasibleEnergy s
          else return s -- feasible but costlier: the valley is above
        | none => return s
      else edge b q step steps mid hi energies s

/-- Golden section around the cheapest clock. -/
def golden (b : ProbeBackend K σ) (q : PrefillQuery K) (step : ℤ) :
    ℕ → ℕ → ℕ → PrefillScan K σ → Except (SearchError K) (PrefillScan K σ)
  | 0, _, _, s => .ok s
  | steps + 1, left, right, s =>
    if (right : ℤ) - left ≤ 2 * step then .ok s
    else do
      let g : K := (Scalar.sqrt 5 - 1) / 2
      let c ← snap q.grid ((right : K) - g * ((right : K) - left))
      let d ← snap q.grid ((left : K) + g * ((right : K) - left))
      let (wc, s) ← s.measure b q c
      let (wd, s) ← s.measure b q d
      let cheaper := match wd.prefillJ, wc.prefillJ with
        | some ed, some ec => decide (ed < ec)
        | _, _ => false
      if !s.settings.feasible wc || (s.settings.feasible wd && cheaper) then golden b q step steps c right s
      else golden b q step steps left d s

/-- Upper edge of the eps band, skipping clocks held down by limits. -/
def choose (settings : SearchSettings K) (meas : Dict ℕ (WindowResult K)) (energies : Dict ℕ K) :
    Except (SearchError K) ℕ := do
  let some emin := (energies.items.map (·.2)).min? | .error .value
  let band := (energies.items.filter fun e => e.2 ≤ (1 + settings.eps) * emin).map (·.1)
  let windows ← band.mapM fun f => do return (f, ← lookupKey meas f)
  let steady := (windows.filter fun e => e.2.prefillLimited ≤ settings.limitedFractionMax).map (·.1)
  match (if steady = [] then band else steady).max? with
  | some f => return f
  | none => .error .value

/-- `sorted(meas)`. -/
def clocks (s : PrefillScan K σ) : List ℕ := s.meas.sorted.map (·.1)

/-- The clock below index `i`, when it was measured infeasible. -/
def infeasibleBelow (s : PrefillScan K σ) (i : ℕ) : Except (SearchError K) (Option ℕ) :=
  if i = 0 then .ok none
  else do
    let f ← lookupIndex s.clocks (i - 1)
    let w ← lookupKey s.meas f
    return if s.settings.feasible w then none else some f

/-- Around the cheapest clock of the coarse scan: the edge next to an infeasible clock, else golden section. -/
def refine (b : ProbeBackend K σ) (q : PrefillQuery K) (step : ℤ) (best : ℕ) (energies : Dict ℕ K)
    (s : PrefillScan K σ) : Except (SearchError K) (PrefillScan K σ) := do
  let some i := s.clocks.idxOf? best | .error .value
  match ← s.infeasibleBelow i with
  | some lo => edge b q step (s.settings.refineSteps + 2) lo best energies s
  | none => do
    let left ← lookupIndex s.clocks (i - 1)
    let right ← lookupIndex s.clocks (min (i + 1) (s.clocks.length - 1))
    golden b q step s.settings.refineSteps left right s

end PrefillScan

namespace TierLocator

/-- The coarse windows at `load`, from f_eff down. -/
def coarseScan (b : ProbeBackend K σ) (l : TierLocator K σ) (q : PrefillQuery K) (fEff : ℕ) :
    Except (SearchError K) (PrefillScan K σ) := do
  let some low := q.grid.head? | .error .index
  let clocks ← spread q.grid low fEff l.settings.coarsePoints
  PrefillScan.coarse b q clocks ⟨∅, l⟩

/-- The clocks up to f_eff. -/
def prefillQuery (hw : Hardware) (fEff decodeMhz : ℕ) (load alpha : K) : PrefillQuery K :=
  ⟨hw.prefillClocks.filter (· ≤ fEff), decodeMhz, load, alpha⟩

/-- The distance of the lowest two clocks. -/
def gridStep : List ℕ → ℤ
  | f :: g :: _ => (g : ℤ) - f
  | _ => 15

/-- Coarse scan and refinement at `load`: the chosen clock, and all windows at this load. -/
def searchPrefill (b : ProbeBackend K σ) (l : TierLocator K σ) (hw : Hardware) (fEff decodeMhz : ℕ) (load alpha : K) :
    Except (SearchError K) ((ℕ × Dict ℕ (WindowResult K)) × TierLocator K σ) := do
  let q := prefillQuery hw fEff decodeMhz load alpha
  let step := gridStep q.grid
  let s ← l.coarseScan b q fEff
  let energies := s.feasibleEnergy
  match energies.items.reverse.argmin (·.2) with
  | none => .error (.locator (.noPrefillClock load))
  | some best => do
    let s ← s.refine b q step best.1 energies
    let f ← PrefillScan.choose s.settings s.meas s.feasibleEnergy
    return ((f, s.meas), s.locator)

end TierLocator
end CanaTune

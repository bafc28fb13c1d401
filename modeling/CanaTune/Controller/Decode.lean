import CanaTune.Controller.Search
import CanaTune.Domain.Models

/-! The search of the D clock: by the length model fitted on closed windows, or by counting clean sequences. -/

namespace CanaTune
variable {K σ : Type} [Scalar K]

namespace TierLocator

/-! ### The clock by J/token -/

/-- D iteration time vs running sequences: a window at a second load. -/
def secondLevel (b : ProbeBackend K σ) (l : TierLocator K σ) (point : ClockPoint) : Option ℕ → TierLocator K σ
  | some c => (l.closedWindow b point c 0 .all).2
  | none => l

/-- The combined windows at `load` from the highest of the clocks down to the first that is not clean; `second` is measured
    below each clean one. -/
def decodeScan (b : ProbeBackend K σ) (prefillMhz load : ℕ) (second : Option ℕ) :
    List ℕ → TierLocator K σ → Except (SearchError K) (List (ℕ × WindowResult K) × TierLocator K σ)
  | [], l => .ok ([], l)
  | f :: rest, l => do
    let (w, l) ← l.closedMedian b ⟨prefillMhz, f⟩ load
    if l.settings.decodeClean w then
      let (perClock, l) ← decodeScan b prefillMhz load second rest (l.secondLevel b ⟨prefillMhz, f⟩ second)
      return ((f, w) :: perClock, l)
    else return ([(f, w)], l)

/-- J/token of the clean clocks, where it is known. -/
def cleanEnergies (s : SearchSettings K) (perClock : List (ℕ × WindowResult K)) : List (ℕ × K) :=
  perClock.filterMap fun e => if s.decodeClean e.2 then e.2.decodeJ.map fun j => (e.1, j) else none

/-- The highest clock whose J/token is within (1 + eps) of the least; `missing` when no clock is clean. -/
def chooseDecode (s : SearchSettings K) (missing : LocatorError K) (ok : List (ℕ × K)) : Except (SearchError K) ℕ :=
  match (ok.map (·.2)).min? with
  | none => .error (.locator missing)
  | some emin =>
    match ((ok.filter fun e => e.2 ≤ (1 + s.eps) * emin).map (·.1)).max? with
    | none => .error .value
    | some f => .ok f

/-- The load at which the D clock is chosen. -/
def decodeLoad (s : SearchSettings K) (sequences : K) : ℕ :=
  (max 1 (Scalar.roundEven (s.decodeLoadFraction * sequences))).toNat

/-! ### Length model -/

/-- Closed windows of one half of the prompts, at a concurrency that fills the KV cache and a quarter of it. -/
def fitWindows (b : ProbeBackend K σ) (point : ClockPoint) (capacity : ℕ) (l : TierLocator K σ) (mix : Mix) :
    List (WindowResult K) × TierLocator K σ :=
  let context := b.mixContext mix l.world
  let high := (Scalar.toInt (l.settings.decodeFitFill * capacity / max context 1)).toNat
  let high := max 2 (min l.settings.decodeFitMaxConcurrency high)
  closedEach b point [(max 1 (high / 4), 0, mix), (high, 0, mix)] l

/-- Length model at one D clock; windows with a D queue or preemption are left out. -/
def fitLength (b : ProbeBackend K σ) (l : TierLocator K σ) (point : ClockPoint) (capacity : ℕ)
    (extra : List (WindowResult K)) : Except (SearchError K) (DecodeCoef K × TierLocator K σ) :=
  let (short, l) := fitWindows b point capacity l .short
  let (long, l) := fitWindows b point capacity l .long
  let used := (extra ++ short ++ long).filter fun w => w.decodePreemptions = 0 ∧ w.decodeWaitingMax = 0
  let points := used.flatMap (·.decodePoints)
  match if l.settings.decodeFitMinPoints ≤ points.length then fitDecodeLength points else none with
  | some coef => .ok (coef, l)
  | none => .error (.locator (.lengthFit point.decodeMhz points.length))

/-- The length model at the chosen clock: the top clock's own, or fitted there over the windows of the choice too. -/
def fitChosen (b : ProbeBackend K σ) (l : TierLocator K σ) (prefillMhz capacity topD fD load : ℕ) (coefTop : DecodeCoef K) :
    Except (SearchError K) (DecodeCoef K × TierLocator K σ) :=
  if fD = topD then .ok (coefTop, l)
  else
    let (repeated, l) := l.repeats b ⟨prefillMhz, fD⟩ load
    l.fitLength b ⟨prefillMhz, fD⟩ capacity repeated

structure LengthEvidence (K : Type) where
  lengthModel : Dict ℕ (DecodeCoef K)
  contextTokens : K
  capacity : Dict ℕ (DecodeCapacity K)
  decodeLoadConcurrency : ℕ
  decodeJPerToken : List (ℕ × K)
  bStarRunning : ℤ
  kvWall : Bool
  kvCapacityTokens : ℕ

/-- The D clock by J/token at a share of the capacity the length model implies, and B* by the model fitted there. -/
def decodeLength (b : ProbeBackend K σ) (l : TierLocator K σ) (hw : Hardware) (prefillMhz capacity : ℕ) :
    Except (SearchError K) ((ℕ × ℤ × Bool × LengthEvidence K) × TierLocator K σ) := do
  let s := l.settings
  let slo := s.tpotSloMs
  let some topD := hw.decodeClocks.getLast? | .error .index
  let (coefTop, l) ← l.fitLength b ⟨prefillMhz, topD⟩ capacity []
  let context := b.mixContext .all l.world
  let shortest := b.mixContext .short l.world
  let alone := decodeTpot coefTop 1 shortest
  if slo < alone then .error (.locator (.infeasible slo shortest alone topD))
  else
    let capTop := decodeCapacity coefTop context slo (some (capacity : K)) s.decodeKvLimit
    let load := decodeLoad s (capTop.sequencesOr s.decodeFitMaxConcurrency)
    let clocks ← spread hw.decodeClocks (hw.decodeClocks.headD topD) topD s.coarsePoints
    let (perClock, l) ← decodeScan b prefillMhz load none clocks l
    let ok := cleanEnergies s perClock
    let fD ← chooseDecode s .noModelClock ok
    let (coef, l) ← l.fitChosen b prefillMhz capacity topD fD load coefTop
    let cap := decodeCapacity coef context slo (some (capacity : K)) s.decodeKvLimit
    let sequences := max 1 (Scalar.toInt (cap.sequencesOr s.decodeFitMaxConcurrency))
    let evidence : LengthEvidence K :=
      { lengthModel := (Dict.ofList [(topD, coefTop)]).insert fD coef
        contextTokens := context
        capacity := (Dict.ofList [(topD, capTop)]).insert fD cap
        decodeLoadConcurrency := load
        decodeJPerToken := ok
        bStarRunning := sequences
        kvWall := cap.kvBound
        kvCapacityTokens := capacity }
    return ((fD, sequences, cap.kvBound, evidence), l)

/-! ### Count model -/

/-- Doubling from `c` while clean and below the bad end: the best concurrency and its window, and the bad end. -/
def doubleClean (b : ProbeBackend K σ) (point : ClockPoint) :
    ℕ → ℕ → ℕ → Option (WindowResult K) → Option ℕ → TierLocator K σ →
      Except (SearchError K) ((ℕ × Option (WindowResult K) × Option ℕ) × TierLocator K σ)
  | 0, _, _, _, _, _ => .error .endless
  | fuel + 1, c, good, goodW, bad, l =>
    if c ≤ l.settings.decodeMaxConcurrency ∧ bad.all (c < ·) then
      let (w, l) := l.closedWindow b point c 0 .all
      if l.settings.decodeClean w then doubleClean b point fuel (c * 2) c (some w) bad l
      else .ok ((good, goodW, some c), l)
    else .ok ((good, goodW, bad), l)

/-- Two bisections between a clean concurrency and one that is not. -/
def bisectClean (b : ProbeBackend K σ) (point : ClockPoint) :
    ℕ → ℕ → ℕ → Option (WindowResult K) → TierLocator K σ → (ℕ × Option (WindowResult K)) × TierLocator K σ
  | 0, lo, _, goodW, l => ((lo, goodW), l)
  | steps + 1, lo, hi, goodW, l =>
    let mid := (lo + hi) / 2
    if mid = lo ∨ mid = hi then ((lo, goodW), l)
    else
      let (w, l) := l.closedWindow b point mid 0 .all
      if l.settings.decodeClean w then bisectClean b point steps mid hi (some w) l
      else bisectClean b point steps lo mid goodW l

/-- The search from concurrency `c` below the bad end: doubling, then bisections. -/
def searchClean (b : ProbeBackend K σ) (l : TierLocator K σ) (point : ClockPoint) (c : ℕ) (bad : Option ℕ) :
    Except (SearchError K) ((ℕ × Option (WindowResult K)) × TierLocator K σ) := do
  -- Doubled from 1 a concurrency passes the limit within as many steps; only 0 never does.
  let ((good, goodW, bad), l) ← doubleClean b point (l.settings.decodeMaxConcurrency + 1) c 0 none bad l
  match bad with
  | some hi => if 0 < good then return bisectClean b point 2 good hi goodW l else return ((good, goodW), l)
  | none => return ((good, goodW), l)

/-- The largest clean concurrency found at a D clock and its window; the hint is tested first. -/
def bStar (b : ProbeBackend K σ) (l : TierLocator K σ) (point : ClockPoint) (hint : Option ℕ) :
    Except (SearchError K) ((ℕ × Option (WindowResult K)) × TierLocator K σ) :=
  match hint with
  | none => l.searchClean b point l.settings.decodeStartConcurrency none
  | some hint =>
    let (w, l) := l.closedWindow b point hint 0 .all
    if l.settings.decodeClean w then .ok ((hint, some w), l)
    else l.searchClean b point (max l.settings.decodeStartConcurrency (hint / 2)) (some hint)

/-- What the choice of the D clock leaves: the highest clock and its B*, the load, the windows and the clock. -/
structure CountChoice (K : Type) where
  topD : ℕ
  bTop : ℕ
  load : ℕ
  perClock : List (ℕ × WindowResult K)
  ok : List (ℕ × K)
  fD : ℕ

/-- B* at the highest clock, and the D clock by J/token near it. -/
def chooseCount (b : ProbeBackend K σ) (l : TierLocator K σ) (hw : Hardware) (prefillMhz : ℕ) :
    Except (SearchError K) (CountChoice K × TierLocator K σ) := do
  let some topD := hw.decodeClocks.getLast? | .error .index
  let ((bTop, _), l) ← l.bStar b ⟨prefillMhz, topD⟩ none
  if bTop = 0 then .error (.locator .startNotClean)
  else
    let load := decodeLoad l.settings bTop
    let clocks ← spread hw.decodeClocks (hw.decodeClocks.headD topD) topD l.settings.coarsePoints
    let second := if 2 ≤ load then some (max 1 (load / 2)) else none
    let (perClock, l) ← decodeScan b prefillMhz load second clocks l
    let ok := cleanEnergies l.settings perClock
    let fD ← chooseDecode l.settings .noDecodeClock ok
    return (⟨topD, bTop, load, perClock, ok, fD⟩, l)

/-- B* at the chosen clock and its window. -/
def verifyCount (b : ProbeBackend K σ) (l : TierLocator K σ) (prefillMhz : ℕ) (c : CountChoice K) :
    Except (SearchError K) ((ℕ × Option (WindowResult K)) × TierLocator K σ) := do
  let ((bLow, window), l) ← l.bStar b ⟨prefillMhz, c.fD⟩ (if c.fD = c.topD then none else some c.bTop)
  if bLow = 0 then .error (.locator .chosenNotClean) else return ((bLow, window), l)

structure CountEvidence (K : Type) where
  decodeLoadConcurrency : ℕ
  decodeJPerToken : List (ℕ × K)
  bStarConcurrency : Dict ℕ ℕ
  bStarRunning : ℤ
  kvWall : Bool
  kvCapacityTokens : Option ℕ
  kvPeakClean : Option K
  kStarTokens : Option K

/-- The D clock by J/token near B*, B* re-checked there, and whether a higher clock would raise it. -/
def decodeCount (b : ProbeBackend K σ) (l : TierLocator K σ) (hw : Hardware) (prefillMhz : ℕ) :
    Except (SearchError K) ((ℕ × ℤ × Bool × CountEvidence K) × TierLocator K σ) := do
  let (c, l) ← l.chooseCount b hw prefillMhz
  let ((bLow, window), l) ← l.verifyCount b prefillMhz c
  let wall :=
    if c.fD = c.topD then c.perClock.all fun e => l.settings.decodeClean e.2
    else decide ((c.bTop : K) < bLow * (1 + l.settings.decodeWallTolerance))
  let published : ℤ := match window.bind (·.decodeRunningMax) with
    | some running => if running = 0 then bLow else Scalar.toInt running
    | none => bLow
  let (capacity, l) := match b.kvCapacity with
    | some ask => ((ask l.world).1, { l with world := (ask l.world).2 })
    | none => (none, l)
  let kvPeak := window.bind (·.decodeKvMax)
  let evidence : CountEvidence K :=
    { decodeLoadConcurrency := c.load
      decodeJPerToken := c.ok
      bStarConcurrency := (Dict.ofList [(c.fD, bLow)]).insert c.topD c.bTop
      bStarRunning := published
      kvWall := wall
      kvCapacityTokens := capacity
      kvPeakClean := kvPeak
      kStarTokens := capacity.bind fun tokens => kvPeak.map (· * tokens) }
  return ((c.fD, published, wall, evidence), l)

end TierLocator
end CanaTune

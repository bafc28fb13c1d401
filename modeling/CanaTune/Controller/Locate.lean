import CanaTune.Controller.Decode
import CanaTune.Domain.Groups

/-! A whole run of the locator: park, alpha, ramp, the P clock, the prefill tables, the D clock, both together, the fill
    windows at H, and the periodic check of H's neighbours. -/

namespace CanaTune
variable {K σ : Type} [Scalar K]

/-- What a run asks of the pair besides windows, and the wall clock. -/
structure LocatorBackend (K σ : Type) extends ProbeBackend K σ where
  hardware : σ → Hardware × σ
  /-- Mean W of P and of D with the Canary idle at a clock. -/
  idlePower (clock : ClockPoint) (seconds : K) : σ → (K × K) × σ
  serviceTimes (clock : ClockPoint) (prompts : List ℕ) : σ → List (ServiceSample K) × σ
  /-- Only prompts up to the limit from now on: their mean length. -/
  setPromptLimit (limit : Option ℕ) : σ → K × σ
  wallTime : σ → K × σ

inductive DecodeModel
  | length
  | count
  deriving DecidableEq

/-- What a whole run reads of the settings besides its searches. -/
structure LocateSettings (K : Type) where
  ttftSloMs : K
  targetLoadFraction : K
  fillLoadFractions : List K
  fillBisectSteps : ℕ
  idleWindowS : K
  parkCandidates : ℕ
  idleNoiseW : K
  decodeModel : DecodeModel

/-- The settings of an empty configuration at a TTFT target. -/
def LocateSettings.defaults (ttftSloMs : K) : LocateSettings K where
  ttftSloMs := ttftSloMs
  targetLoadFraction := 8 / 10
  fillLoadFractions := [3 / 10, 5 / 10, 8 / 10, 1]
  fillBisectSteps := 2
  idleWindowS := 5
  parkCandidates := 5
  idleNoiseW := 5 / 10
  decodeModel := .length

/-- What ends a run without a table. -/
inductive LocateError (K : Type)
  | search (e : SearchError K)
  | fewLengths
  | flatPrefill (points : List (ℕ × K))
  | noPromptLength
  | noJointClock (prefillMhz : ℕ) (load : K)
  | noFillLoad
  deriving DecidableEq

/-- `none`: not an error of the procedure. -/
def LocateError.message (points : List (ℕ × K) → String) : LocateError K → Option String
  | .search (.locator e) => some e.message
  | .search _ => none
  | .fewLengths => some "service-time fit needs at least two prompt lengths"
  | .flatPrefill measured => some ("prefill time does not grow with prompt length: " ++ points measured)
  | .noPromptLength => some "no prompt length meets the TTFT target even on an idle system"
  | .noJointClock prefillMhz load =>
    some ("P " ++ toString prefillMhz ++ " MHz misses the SLO at load " ++ whole load ++ " with every D clock")
  | .noFillLoad => some "no fill load is feasible at H: table not published"

/-- What is read of the evidence of the D clock. -/
structure DecodeEvidence (K : Type) where
  lengthModel : Option (Dict ℕ (DecodeCoef K))
  kvCapacityTokens : Option ℕ

/-- A table with more of what it says, which a later run reads back. -/
structure LocatedTable (K : Type) extends TierTable K where
  decodeWall : Bool
  idlePowerW : Option (Dict ℕ K × Dict ℕ K)
  targetLoad : Option K
  decodeAlone : Option ℕ
  decodeEvidence : Option (DecodeEvidence K)
  /-- The energies of the check that moved H last. -/
  recheck : Option (Dict ℕ K)

/-- The locator in a run: its windows, its idle and service measurements, and the run's evidence. -/
structure LocatorState (K σ : Type) extends TierLocator K σ where
  plan : LocateSettings K
  idle : Dict ClockPoint ((K × K) × K)
  service : Dict (ClockPoint × List ℕ) (Cached K)
  evidence : LocatorEvidence K
  idlePowerW : Option (Dict ℕ K × Dict ℕ K)
  promptLimit : Option ℕ
  /-- The MAX table of the fit of alpha. -/
  alphaFit : Dict ℕ K

/-- What the admission parameters and the cluster model are made of: the windows, and the samples in them. -/
abbrev Calibrate (K σ : Type) :=
  LocatorState K σ → ClockPoint → WindowResult K → Option ℤ → ℕ → Option (AdmissionCalibration K) × Option (ClusterModel K)

def noEvidence : LocatorEvidence K := ⟨∅, ∅, ∅, none⟩

namespace LocatorState

def fresh (settings : SearchSettings K) (plan : LocateSettings K) (world : σ) : LocatorState K σ :=
  ⟨.fresh settings world, plan, ∅, ∅, noEvidence, none, none, ∅⟩

/-- A run starts with the caches and nothing else. -/
def newRun (c : LocatorState K σ) (meanPrompt : K) : LocatorState K σ :=
  { c with
    meanPrompt := meanPrompt
    windows := 0
    reused := 0
    results := []
    capacity := none
    evidence := noEvidence
    idlePowerW := none
    promptLimit := none
    alphaFit := ∅ }

/-- A step of the searches. -/
def search {α : Type} (c : LocatorState K σ) (r : Except (SearchError K) (α × TierLocator K σ)) :
    Except (LocateError K) (α × LocatorState K σ) :=
  match r with
  | .ok (a, l) => .ok (a, { c with toTierLocator := l })
  | .error e => .error (.search e)

/-- `self.open`. -/
def window (b : LocatorBackend K σ) (c : LocatorState K σ) (clock : ClockPoint) (eqTps alpha : K) :
    WindowResult K × LocatorState K σ :=
  let (w, l) := c.toTierLocator.openWindow b.toProbeBackend clock eqTps alpha
  (w, { c with toTierLocator := l })

/-! ### Park -/

def idleMeasured (b : LocatorBackend K σ) (c : LocatorState K σ) (point : ClockPoint) : (K × K) × LocatorState K σ :=
  let (watts, world) := b.idlePower point c.plan.idleWindowS c.world
  let (now, world) := b.time world
  (watts, { c with idle := c.idle.insert point (watts, now), windows := c.windows + 1, world := world })

/-- The idle power at a point, cached as the windows are. -/
def idleAt (b : LocatorBackend K σ) (c : LocatorState K σ) (point : ClockPoint) : (K × K) × LocatorState K σ :=
  match c.idle.lookup point with
  | none => c.idleMeasured b point
  | some hit =>
    let (now, world) := b.time c.world
    if now - hit.2 ≤ c.settings.cacheTtlS then (hit.1, { c with reused := c.reused + 1, world := world })
    else idleMeasured b { c with world := world } point

/-- `power.setdefault(f, w)`. -/
def setDefault (power : Dict ℕ K) (f : ℕ) (w : K) : Dict ℕ K :=
  if (power.lookup f).isSome then power else power.insert f w

/-- P and D are separate GPUs: one pair of clocks a window. -/
def idleScan (b : LocatorBackend K σ) : List ClockPoint → Dict ℕ K × Dict ℕ K → LocatorState K σ →
    (Dict ℕ K × Dict ℕ K) × LocatorState K σ
  | [], power, c => (power, c)
  | point :: rest, power, c =>
    let (watts, c) := c.idleAt b point
    idleScan b rest (setDefault power.1 point.prefillMhz watts.1, setDefault power.2 point.decodeMhz watts.2) c

/-- The lowest clock whose idle power is the least, up to the noise. -/
def lowest (noise : K) (power : Dict ℕ K) : Except (SearchError K) ℕ :=
  match (power.items.map (·.2)).min? with
  | none => .error .value
  | some best =>
    match ((power.items.filter fun e => e.2 ≤ best + noise).map (·.1)).min? with
    | none => .error .value
    | some f => .ok f

/-- The candidates of both sides, the shorter list's last one repeated. -/
def parkPoints (ps ds : List ℕ) : List ClockPoint :=
  (List.range (max ps.length ds.length)).map fun i =>
    ⟨ps.getD (min i (ps.length - 1)) 0, ds.getD (min i (ds.length - 1)) 0⟩

/-- The clocks from the lowest to the highest, as candidates. -/
def candidates (n : ℕ) (grid : List ℕ) : Except (SearchError K) (List ℕ) := do
  let some low := grid.head? | .error .index
  spread grid low (grid.getLastD low) n

def parkStep (b : LocatorBackend K σ) (c : LocatorState K σ) (hw : Hardware) :
    Except (SearchError K) (ClockPoint × LocatorState K σ) := do
  let ps ← candidates c.plan.parkCandidates hw.prefillClocks
  let ds ← candidates c.plan.parkCandidates hw.decodeClocks
  let (power, c) := idleScan b (parkPoints ps ds) (∅, ∅) c
  let p ← lowest c.plan.idleNoiseW power.1
  let d ← lowest c.plan.idleNoiseW power.2
  return (⟨p, d⟩, { c with idlePowerW := some power })

def park (b : LocatorBackend K σ) (c : LocatorState K σ) (hw : Hardware) :
    Except (LocateError K) (ClockPoint × LocatorState K σ) :=
  (c.parkStep b hw).mapError .search

/-! ### Service times -/

/-- The locator as its prefill tables know it, at `now`. -/
def asLocator (c : LocatorState K σ) (now : K) : Locator K :=
  ⟨c.settings.toLocatorSettings, c.service, now, c.windows, c.reused, c.evidence⟩

/-- What the pair answers if asked, and what asking leaves: the answer and when it came. -/
def askService (b : LocatorBackend K σ) (c : LocatorState K σ) (clock : ClockPoint) (lengths : List ℕ) (world : σ) :
    Cached K × σ :=
  let (samples, world) := b.serviceTimes clock (List.replicate c.settings.serviceRepeats lengths).flatten world
  let (now, world) := b.time world
  (⟨samples, now⟩, world)

/-- `now` for a look into the cache: read only when there is something cached. -/
def lookTime (b : LocatorBackend K σ) (c : LocatorState K σ) (key : ClockPoint × List ℕ) : K × σ :=
  if (c.service.lookup key).isSome then b.time c.world else (0, c.world)

/-- The service samples of the lengths at a clock. -/
def serviceSamples (b : LocatorBackend K σ) (c : LocatorState K σ) (clock : ClockPoint) (lengths : List ℕ) :
    Except PyError (List (ServiceSample K) × LocatorState K σ) := do
  let (now, world) := c.lookTime b (clock, lengths)
  let (answer, asked) := c.askService b clock lengths world
  let (samples, l) ← (c.asLocator now).cached (clock, lengths) (.ok answer)
  return (samples,
    { c with
      service := l.cache
      windows := l.windows
      reused := l.reused
      world := if l.windows = c.windows then world else asked })

def pythonError (e : PyError) : LocateError K :=
  match e with
  | .key => .search .key
  | _ => .search .value

/-! ### Alpha -/

/-- `fit_alpha`: prefill time is a + b * tokens on the medians; alpha is a / b. -/
def fitAlpha (samples : List (ℕ × K)) : Except (LocateError K) K :=
  let points := (medians samples).sorted
  let n : K := points.length
  let mx := (points.map fun p => (p.1 : K)).sum / n
  let my := (points.map (·.2)).sum / n
  let sxx := (points.map fun p => ((p.1 : K) - mx) ^ 2).sum
  let b := (points.map fun p => ((p.1 : K) - mx) * (p.2 - my)).sum / sxx
  let a := my - b * mx
  if points.length < 2 then .error .fewLengths
  else if b ≤ 0 then .error (.flatPrefill points)
  else .ok (max 0 (a / b))

/-- The upper median of the idle TTFTs of each length that has one. -/
def idleTtfts (lengths : List ℕ) (samples : List (ServiceSample K)) : Dict ℕ K :=
  Dict.ofList (lengths.filterMap fun t =>
    let values := (samples.filterMap fun s => if s.tokens = t then s.ttft else none).insertionSort (· ≤ ·)
    values[values.length / 2]?.map fun ttft => (t, ttft))

/-- Alpha, and the longest prompt that meets the TTFT target when idle; `none`: every one does. -/
def alpha (b : LocatorBackend K σ) (c : LocatorState K σ) (top : ClockPoint) (prompts : List ℕ) :
    Except (LocateError K) ((K × Option ℕ) × LocatorState K σ) := do
  let lengths ← (serviceLengths prompts c.settings.serviceLengths).mapError pythonError
  let (samples, c) ← (c.serviceSamples b top lengths).mapError pythonError
  let times := samples.map fun s => (s.tokens, s.ms)
  let alpha ← fitAlpha times
  let ttfts := idleTtfts lengths samples
  let ok := lengths.filter fun t => (ttfts.lookup t).any fun ttft => decide (ttft ≤ c.plan.ttftSloMs)
  let some longest := ok.max? | .error .noPromptLength
  let limit := if ok.length = lengths.length then none else some longest
  return ((alpha, limit),
    { c with
      promptLimit := limit
      alphaFit := medians times
      evidence :=
        { c.evidence with
          idleTtftMs := ttfts
          prefillMsByClock := Dict.ofList [(top.prefillMhz, medians times)]
          residenceMsByLength := medians (samples.filterMap fun s => s.ttft.map fun t => (s.tokens, t - s.ms)) } })

/-! ### Prefill tables -/

/-- S(L) at a clock, as the locator of the tables takes it from the pair's answer. -/
def prefillTable (b : LocatorBackend K σ) (c : LocatorState K σ) (clock : ClockPoint) (prompts : List ℕ)
    (fresh idle : Bool) : Except (LocateError K) (LocatorState K σ) := do
  let lengths ← (serviceLengths prompts c.settings.serviceLengths).mapError pythonError
  let (now, world) := if fresh then (0, c.world) else c.lookTime b (clock, lengths)
  let (answer, asked) := c.askService b clock lengths world
  let l ← ((c.asLocator now).prefillTable clock prompts fresh idle fun _ _ => .ok answer).mapError pythonError
  return { c with
    service := l.cache
    windows := l.windows
    reused := l.reused
    evidence := l.evidence
    world := if l.windows = c.windows then world else asked }

/-- Tables one after the other. -/
def prefillTables (b : LocatorBackend K σ) (prompts : List ℕ) :
    List (ClockPoint × Bool × Bool) → LocatorState K σ → Except (LocateError K) (LocatorState K σ)
  | [], c => .ok c
  | (clock, fresh, idle) :: rest, c => do
    let c ← c.prefillTable b clock prompts fresh idle
    prefillTables b prompts rest c

/-- Contradicting clocks are measured once more; what still contradicts takes the envelope of the lower clocks. -/
def consistentTables (b : LocatorBackend K σ) (c : LocatorState K σ) (top : ClockPoint) (prompts : List ℕ) :
    Except (LocateError K) (LocatorState K σ) := do
  let bad := Locator.tableConflicts c.evidence.prefillMsByClock c.settings.eps
  let again := bad.map fun f =>
    let clock := if f = top.prefillMhz then top else ⟨f, top.decodeMhz⟩
    (clock, true, decide (clock = top))
  let c ← prefillTables b prompts again c
  let tables := c.evidence.prefillMsByClock
  let left := Locator.tableConflicts tables c.settings.eps
  return { c with evidence :=
    { c.evidence with
      prefillMsByClock := if left = [] then tables else Locator.envelope tables
      prefillConsistency := some ⟨bad, left⟩ } }

/-- S(L) at every P clock the solver may choose. -/
def tables (b : LocatorBackend K σ) (c : LocatorState K σ) (hw : Hardware) (top : ClockPoint) (fEff fH : ℕ)
    (prompts : List ℕ) : Except (LocateError K) (LocatorState K σ) := do
  let grid := hw.prefillClocks.filter (· ≤ fEff)
  let some low := grid.head? | .error (.search .index)
  let clocks ← (spread (K := K) grid low fEff c.settings.coarsePoints).mapError .search
  let others := ((fH :: clocks).dedup.insertionSort (· ≤ ·)).filter (· ≠ top.prefillMhz)
  let c ← prefillTables b prompts (others.map fun f => (⟨f, top.decodeMhz⟩, false, false)) c
  c.consistentTables b top prompts

/-! ### The D clock -/

def isLengthFit : SearchError K → Bool
  | .locator (.lengthFit _ _) => true
  | _ => false

/-- Where a fit of the length model has measured its windows. -/
def fitted (b : ProbeBackend K σ) (l : TierLocator K σ) (point : ClockPoint) (capacity : ℕ) : TierLocator K σ :=
  (l.fitWindows b point capacity .short).2.fitWindows b point capacity .long |>.2

/-- Where a search of the D clock without a fitted length model stopped: at the highest clock, or at the chosen one. -/
def unfitted (b : ProbeBackend K σ) (l : TierLocator K σ) (hw : Hardware) (prefillMhz capacity : ℕ) :
    Except (SearchError K) (TierLocator K σ) := do
  let s := l.settings
  let some topD := hw.decodeClocks.getLast? | .error .index
  match l.fitLength b ⟨prefillMhz, topD⟩ capacity [] with
  | .error _ => return fitted b l ⟨prefillMhz, topD⟩ capacity
  | .ok (coefTop, l) => do
    let capTop := decodeCapacity coefTop (b.mixContext .all l.world) s.tpotSloMs (some (capacity : K)) s.decodeKvLimit
    let load := TierLocator.decodeLoad s (capTop.sequencesOr s.decodeFitMaxConcurrency)
    let clocks ← spread hw.decodeClocks (hw.decodeClocks.headD topD) topD s.coarsePoints
    let (perClock, l) ← TierLocator.decodeScan b prefillMhz load none clocks l
    let fD ← TierLocator.chooseDecode s .noModelClock (TierLocator.cleanEnergies s perClock)
    return fitted b (l.repeats b ⟨prefillMhz, fD⟩ load).2 ⟨prefillMhz, fD⟩ capacity

/-- By the length model; `none` without D's KV size, or when the model cannot be fitted. -/
def decodeFitted (b : ProbeBackend K σ) (l : TierLocator K σ) (hw : Hardware) (prefillMhz capacity : ℕ) :
    Except (SearchError K) (Option (ℕ × ℤ × Bool × DecodeEvidence K) × TierLocator K σ) :=
  if capacity = 0 then .ok (none, l)
  else match l.decodeLength b hw prefillMhz capacity with
  | .ok ((fD, n, wall, ev), l) => .ok (some (fD, n, wall, ⟨some ev.lengthModel, some ev.kvCapacityTokens⟩), l)
  | .error e => if isLengthFit e then do
      let l ← unfitted b l hw prefillMhz capacity
      return (none, l)
    else .error e

/-- D's KV size, if the length model is asked for and the backend knows it. -/
def kvCapacity (b : ProbeBackend K σ) (c : LocatorState K σ) : ℕ × TierLocator K σ :=
  match (if c.plan.decodeModel = .length then b.kvCapacity else none) with
  | some ask => ((ask c.world).1.getD 0, { c.toTierLocator with world := (ask c.world).2 })
  | none => (0, c.toTierLocator)

def decodeStep (b : ProbeBackend K σ) (c : LocatorState K σ) (hw : Hardware) (prefillMhz : ℕ) :
    Except (SearchError K) ((ℕ × ℤ × Bool × DecodeEvidence K) × TierLocator K σ) := do
  let (capacity, l) := c.kvCapacity b
  let (found, l) ← decodeFitted b l hw prefillMhz capacity
  match found with
  | some r => return (r, l)
  | none => do
    let ((fD, n, wall, ev), l) ← l.decodeCount b hw prefillMhz
    return ((fD, n, wall, ⟨none, ev.kvCapacityTokens⟩), l)

/-- The D clock, B* and whether the KV cache bounds it: by the length model, else by counting. -/
def decode (b : LocatorBackend K σ) (c : LocatorState K σ) (hw : Hardware) (prefillMhz : ℕ) :
    Except (LocateError K) ((ℕ × ℤ × Bool × DecodeEvidence K) × LocatorState K σ) :=
  c.search (c.decodeStep b.toProbeBackend hw prefillMhz)

/-! ### Both clocks, and the capacity -/

/-- The first clock of the ladder whose window at the load meets the target. -/
def climbLadder (b : LocatorBackend K σ) (prefillMhz : ℕ) (load alpha : K) :
    List ℕ → LocatorState K σ → Except (LocateError K) (ℕ × LocatorState K σ)
  | [], _ => .error (.noJointClock prefillMhz load)
  | f :: above, c =>
    let (w, c) := c.window b ⟨prefillMhz, f⟩ load alpha
    if c.settings.meetsTarget w then .ok (f, c) else climbLadder b prefillMhz load alpha above c

/-- The lowest D clock from `decodeMhz` up that holds with P at `prefillMhz` under the load. -/
def joint (b : LocatorBackend K σ) (c : LocatorState K σ) (hw : Hardware) (prefillMhz decodeMhz : ℕ) (load alpha : K) :
    Except (LocateError K) (ℕ × LocatorState K σ) := do
  let some topD := hw.decodeClocks.getLast? | .error (.search .index)
  let ladder ← (spread (K := K) hw.decodeClocks decodeMhz topD (c.settings.coarsePoints - 1)).mapError .search
  climbLadder b prefillMhz load alpha (ladder.dedup.insertionSort (· ≤ ·)) c

/-- The windows at the fill loads: those that meet the target, and the loads of the others. -/
def fillScan (b : LocatorBackend K σ) (point : ClockPoint) (c0 alpha : K) :
    List K → LocatorState K σ → (List (WindowResult K) × List K) × LocatorState K σ
  | [], c => (([], []), c)
  | fraction :: rest, c =>
    let (w, c) := c.window b point (fraction * c0) alpha
    let ((good, bad), c') := fillScan b point c0 alpha rest c
    (if c.settings.meetsTarget w then (w :: good, bad) else (good, w.load :: bad), c')

def fillBisect (b : LocatorBackend K σ) (point : ClockPoint) (alpha : K) :
    ℕ → WindowResult K → K → LocatorState K σ → WindowResult K × LocatorState K σ
  | 0, best, _, c => (best, c)
  | steps + 1, best, hi, c =>
    let (w, c) := c.window b point ((best.load + hi) / 2) alpha
    if c.settings.meetsTarget w then fillBisect b point alpha steps w hi c
    else fillBisect b point alpha steps best w.load c

/-- C_H and its window. -/
def fill (b : LocatorBackend K σ) (c : LocatorState K σ) (point : ClockPoint) (c0 alpha : K) :
    Except (LocateError K) ((K × WindowResult K) × LocatorState K σ) :=
  let ((good, bad), c) := fillScan b point c0 alpha c.plan.fillLoadFractions c
  match good.argmax (·.load) with
  | none => .error .noFillLoad
  | some best =>
    let (best, c) := match (bad.filter (best.load < ·)).min? with
      | some hi => fillBisect b point alpha c.plan.fillBisectSteps best hi c
      | none => (best, c)
    .ok ((best.load, best), c)

/-! ### Runs -/

/-- Park, or what is reused of the table a relocation builds on. -/
def parkOf (b : LocatorBackend K σ) (c : LocatorState K σ) (hw : Hardware) (previous : Option (LocatedTable K)) :
    Except (LocateError K) (ClockPoint × LocatorState K σ) :=
  match previous with
  | some table => .ok (table.park, { c with idlePowerW := table.idlePowerW })
  | none => c.park b hw

def limitPrompts (b : LocatorBackend K σ) (c : LocatorState K σ) (limit : Option ℕ) : K × LocatorState K σ :=
  let (mean, world) := b.setPromptLimit limit c.world
  (mean, { c with world := world })

/-- The D clock alone, or what is reused of the table a relocation builds on. -/
def decodeOf (b : LocatorBackend K σ) (c : LocatorState K σ) (hw : Hardware) (fEff : ℕ)
    (previous : Option (LocatedTable K)) :
    Except (LocateError K) ((ℕ × Option ℤ × Bool × DecodeEvidence K) × LocatorState K σ) :=
  match previous with
  | some table =>
    .ok ((table.h.decodeMhz, table.decodeMaxRunning, table.decodeWall, table.decodeEvidence.getD ⟨none, none⟩), c)
  | none => do
    let ((fD, n, wall, ev), c) ← c.decode b hw fEff
    return ((fD, some n, wall, ev), c)

/-- The capacity at the top clock, with probes of this mean length. -/
def ramp (b : LocatorBackend K σ) (c : LocatorState K σ) (hw : Hardware) (top : ClockPoint) (alpha meanPrompt : K) :
    Except (LocateError K) ((K × ℕ) × LocatorState K σ) :=
  let c := { c with meanPrompt := meanPrompt }
  c.search (c.toTierLocator.ramp b.toProbeBackend hw top alpha meanPrompt)

/-- Park, alpha, and the capacity at the top clock with the clock it is reached at. -/
def prepare (b : LocatorBackend K σ) (c : LocatorState K σ) (hw : Hardware) (top : ClockPoint) (prompts : List ℕ)
    (previous : Option (LocatedTable K)) : Except (LocateError K) ((ClockPoint × K × K × ℕ) × LocatorState K σ) := do
  let (park, c) ← c.parkOf b hw previous
  let (_, c) := c.limitPrompts b none
  let ((alpha, limit), c) ← c.alpha b top prompts
  let (meanPrompt, c) := c.limitPrompts b limit
  let ((c0, fEff), c) ← c.ramp b hw top alpha meanPrompt
  return ((park, alpha, c0, fEff), c)

/-- The P clock at a load. -/
def prefillClock (b : LocatorBackend K σ) (c : LocatorState K σ) (hw : Hardware) (fEff decodeMhz : ℕ) (load alpha : K) :
    Except (LocateError K) ((ℕ × Dict ℕ (WindowResult K)) × LocatorState K σ) :=
  c.search (c.toTierLocator.searchPrefill b.toProbeBackend hw fEff decodeMhz load alpha)

/-- What the windows under load decide. -/
structure Found (K : Type) where
  h : ClockPoint
  alone : ℕ
  bStar : Option ℤ
  wall : Bool
  evidence : DecodeEvidence K
  capacity : K
  window : WindowResult K

/-- H and its capacity, from the capacity `c0` at the top clock. -/
def findH (b : LocatorBackend K σ) (c : LocatorState K σ) (hw : Hardware) (top : ClockPoint) (c0 : K) (fEff : ℕ) (alpha : K)
    (prompts : List ℕ) (previous : Option (LocatedTable K)) : Except (LocateError K) (Found K × LocatorState K σ) := do
  let target := c.plan.targetLoadFraction * c0
  let ((fH, _), c) ← c.prefillClock b hw fEff top.decodeMhz target alpha
  let c ← c.tables b hw top fEff fH prompts
  let ((alone, bStar, wall, ev), c) ← c.decodeOf b hw fEff previous
  let (fD, c) ← c.joint b hw fH alone target alpha
  let ((capacity, window), c) ← c.fill b ⟨fH, fD⟩ c0 alpha
  return (⟨⟨fH, fD⟩, alone, bStar, wall, ev, capacity, window⟩, c)

/-- The table of what a run found. -/
def publish (c : LocatorState K σ) (park : ClockPoint) (alpha c0 : K) (found : Found K)
    (calibrated : Option (AdmissionCalibration K) × Option (ClusterModel K)) (now : K) : LocatedTable K where
  park := park
  h := found.h
  capacityH := found.capacity
  alphaTokens := alpha
  l := none
  decodeMaxRunning := found.bStar
  decodeKvLimit := some c.settings.decodeKvLimit
  decodeLength := found.evidence.lengthModel
  decodeKvTokens := found.evidence.kvCapacityTokens
  publishedAt := now
  evidence :=
    { prefillMsByClock := c.evidence.prefillMsByClock
      prefillMsByLength := c.alphaFit
      idleTtftMs := c.evidence.idleTtftMs
      admission := calibrated.1
      model := calibrated.2
      capacityRps := some (found.capacity / max (c.meanPrompt + alpha) 1) }
  decodeWall := found.wall
  idlePowerW := c.idlePowerW
  targetLoad := some (c.plan.targetLoadFraction * c0)
  decodeAlone := some found.alone
  decodeEvidence := some found.evidence
  recheck := none

/-- Full calibration; with `previous` its park and D results are reused. -/
def locate (b : LocatorBackend K σ) (calibrate : Calibrate K σ) (c : LocatorState K σ) (meanPrompt : K) (prompts : List ℕ)
    (previous : Option (LocatedTable K)) : Except (LocateError K) (LocatedTable K × LocatorState K σ) := do
  let c := c.newRun meanPrompt
  let (hw, world) := b.hardware c.world
  let c := { c with world := world }
  let some topP := hw.prefillClocks.getLast? | .error (.search .index)
  let some topD := hw.decodeClocks.getLast? | .error (.search .index)
  let ((park, alpha, c0, fEff), c) ← c.prepare b hw ⟨topP, topD⟩ prompts previous
  let (found, c) ← c.findH b hw ⟨topP, topD⟩ c0 fEff alpha prompts previous
  let calibrated := calibrate c park found.window found.bStar found.h.prefillMhz
  let (now, world) := b.wallTime c.world
  return (c.publish park alpha c0 found calibrated now, { c with world := world })

/-- One window at a configuration the solver chose, at the rate of a group. -/
def verify (b : LocatorBackend K σ) (c : LocatorState K σ) (point : ClockPoint) (rateRps alpha : K) :
    WindowResult K × LocatorState K σ :=
  (c.newRun c.meanPrompt).window b point (rateRps * (c.meanPrompt + alpha)) alpha

/-- H's clock on the grid and the two a stride away, as far as the grid has them. -/
def neighbours (grid : List ℕ) (i : ℕ) : List ℕ :=
  let stride := max 1 (grid.length / 50)
  [if stride ≤ i then grid[i - stride]? else none, grid[i]?, grid[i + stride]?].filterMap id

/-- The windows of the neighbours at the load. -/
def neighbourScan (b : LocatorBackend K σ) (decodeMhz : ℕ) (load alpha : K) :
    List ℕ → Dict ℕ (WindowResult K) → LocatorState K σ → Dict ℕ (WindowResult K) × LocatorState K σ
  | [], meas, c => (meas, c)
  | f :: rest, meas, c =>
    let (w, c) := c.window b ⟨f, decodeMhz⟩ load alpha
    neighbourScan b decodeMhz load alpha rest (meas.insert f w) c

/-- The energies of the clocks that meet the target. -/
def energies (s : SearchSettings K) (meas : Dict ℕ (WindowResult K)) : Dict ℕ K :=
  (meas.filter fun _ w => s.feasible w && w.prefillJ.isSome).mapValues fun _ w => w.prefillJ.getD 0

/-- The clock H moves to: the cheapest one, if it is cheaper than H's beyond eps. -/
def better (s : SearchSettings K) (energies : Dict ℕ K) (h : ℕ) : Option ℕ := do
  let now ← energies.lookup h
  let best ← energies.items.reverse.argmin (·.2)
  if best.1 ≠ h ∧ best.2 < now * (1 - s.eps) then some best.1 else none

/-- The target load of the table, or a share of its capacity. -/
def recheckLoad (plan : LocateSettings K) (table : LocatedTable K) : K :=
  match table.targetLoad.filter (· ≠ 0) with
  | some load => load
  | none => plan.targetLoadFraction * table.capacityH

/-- The periodic check of H's neighbours at the target load: H moves one stride when a neighbour is cheaper beyond eps. -/
def recheck (b : LocatorBackend K σ) (c : LocatorState K σ) (table : LocatedTable K) : LocatedTable K × LocatorState K σ :=
  let c := c.newRun c.meanPrompt
  let (hw, world) := b.hardware c.world
  let c := { c with world := world }
  match hw.prefillClocks.idxOf? table.h.prefillMhz with
  | none => (table, c)
  | some i =>
    let (meas, c) := neighbourScan b table.h.decodeMhz (recheckLoad c.plan table) table.alphaTokens
      (neighbours hw.prefillClocks i) ∅ c
    let energies := energies c.settings meas
    match better c.settings energies table.h.prefillMhz with
    | none => (table, c)
    | some f =>
      let (now, world) := b.wallTime c.world
      ({ table with h := ⟨f, table.h.decodeMhz⟩, publishedAt := now, recheck := some energies }, { c with world := world })

end LocatorState
end CanaTune

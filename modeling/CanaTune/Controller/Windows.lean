import CanaTune.Controller.Locator

/-! The windows the locator's searches measure: cached by what was asked, judged by the targets. -/

namespace CanaTune
variable {K σ : Type} [Scalar K]

/-! ### The measurement interface -/

/-- Supported SM clocks, ascending. -/
structure Hardware where
  prefillClocks : List ℕ
  decodeClocks : List ℕ

/-- The prompts of a closed window: the distribution, or one half of it by length. -/
inductive Mix
  | all
  | short
  | long
  deriving DecidableEq

structure WindowResult (K : Type) where
  load : K
  requests : ℤ
  violations : ℤ
  tpotP95 : Option K
  prefillJ : Option K
  decodeJ : Option K
  prefillMhzMedian : Option K
  /-- Share of busy samples with power or thermal limits. -/
  prefillLimited : K
  decodePreemptions : K
  decodeWaitingMax : K
  decodeKvMax : Option K
  /-- Sequences D actually ran. -/
  decodeRunningMax : Option K
  aborted : Bool
  /-- Mean running sequences, mean KV tokens and TPOT of each request. -/
  decodePoints : List (K × K × K)

/-- A window of `requests` requests at a load that saw nothing else. -/
def WindowResult.quiet (load : K) (requests : ℤ) : WindowResult K :=
  ⟨load, requests, 0, none, none, none, none, 0, 0, 0, none, none, false, []⟩

/-- The pair under test and the locator's clock, over the state `σ` of what is measured. -/
structure ProbeBackend (K σ : Type) where
  openWindow (clock : ClockPoint) (eqTps alpha seconds abortAbove : K) : σ → WindowResult K × σ
  closedWindow (clock : ClockPoint) (concurrency : ℕ) (seconds : K) (rep : ℕ) (mix : Mix) : σ → WindowResult K × σ
  mixContext (mix : Mix) : σ → K
  /-- `none`: the backend does not report D's KV size. -/
  kvCapacity : Option (σ → Option ℕ × σ)
  time : σ → K × σ

/-- What the searches read of the settings. -/
structure SearchSettings (K : Type) extends LocatorSettings K where
  theta : K
  tpotSloMs : K
  windowS : K
  minWindowRequests : ℕ
  maxWindowS : K
  coarsePoints : ℕ
  refineSteps : ℕ
  limitedFractionMax : K
  capGap : K
  ucbZ : K
  rampStartRps : K
  rampMaxSteps : ℕ
  decodeStartConcurrency : ℕ
  decodeMaxConcurrency : ℕ
  decodeWallTolerance : K
  decodeLoadFraction : K
  decodeKvLimit : K
  decodeWindowS : K
  decodeClockRepeats : ℕ
  decodeFitFill : K
  decodeFitMaxConcurrency : ℕ
  decodeFitMinPoints : ℕ

/-- The settings of an empty configuration. -/
def SearchSettings.defaults : SearchSettings K where
  eps := 2 / 100
  serviceLengths := []
  serviceRepeats := 3
  cacheTtlS := 3600
  theta := 1 / 10
  tpotSloMs := 200
  windowS := 20
  minWindowRequests := 60
  maxWindowS := 120
  coarsePoints := 5
  refineSteps := 3
  limitedFractionMax := 3 / 10
  capGap := 5 / 100
  ucbZ := 128 / 100
  rampStartRps := 1
  rampMaxSteps := 10
  decodeStartConcurrency := 8
  decodeMaxConcurrency := 512
  decodeWallTolerance := 25 / 100
  decodeLoadFraction := 7 / 10
  decodeKvLimit := 90 / 100
  decodeWindowS := 60
  decodeClockRepeats := 2
  decodeFitFill := 6 / 10
  decodeFitMaxConcurrency := 64
  decodeFitMinPoints := 12

/-! ### Errors -/

/-- The procedure cannot produce a usable tier table. -/
inductive LocatorError (K : Type)
  | noLoad
  | noPrefillClock (load : K)
  /-- A `LengthFitError`. -/
  | lengthFit (decodeMhz points : ℕ)
  | infeasible (slo shortest alone : K) (topD : ℕ)
  | noModelClock
  | startNotClean
  | noDecodeClock
  | chosenNotClean
  deriving DecidableEq

/-- What ends a search: an error of the procedure, one of the runtime, or nothing ever (`endless`). -/
inductive SearchError (K : Type)
  | locator (e : LocatorError K)
  | index
  | key
  | value
  | endless
  deriving DecidableEq

/-- `f"{x:.0f}"`. -/
def whole (x : K) : String := toString (Scalar.roundEven x)

/-- `f"{x:.1f}"`. -/
def oneDecimal (x : K) : String :=
  let tenths := Scalar.roundEven (x * 10)
  (if tenths < 0 then "-" else "") ++ toString (tenths.natAbs / 10) ++ "." ++ toString (tenths.natAbs % 10)

def LocatorError.message : LocatorError K → String
  | .noLoad => "no load meets the SLO even at the highest clock"
  | .noPrefillClock load => "no feasible prefill clock at load " ++ whole load
  | .lengthFit mhz points =>
    "decode length model at " ++ toString mhz ++ " MHz: " ++ toString points ++ " usable requests"
  | .infeasible slo shortest alone topD =>
    "TPOT SLO " ++ whole slo ++ " ms is infeasible: one sequence of " ++ whole shortest ++ " context tokens needs "
      ++ oneDecimal alone ++ " ms at the highest D clock (" ++ toString topD ++ " MHz)"
  | .noModelClock => "no decode clock is clean at 0.7 of the modelled capacity"
  | .startNotClean => "decode is not clean even at the start concurrency"
  | .noDecodeClock => "no decode clock is clean at 0.7 B*"
  | .chosenNotClean => "decode is not clean at the chosen clock"

/-! ### Clock grids -/

def snap (grid : List ℕ) (mhz : K) : Except (SearchError K) ℕ :=
  match grid.argmin fun f : ℕ => toLex (|(f : K) - mhz|, f) with
  | some f => .ok f
  | none => .error .value

def snapDown (grid : List ℕ) (mhz : K) : Except (SearchError K) ℕ :=
  match ((grid.filter fun f : ℕ => (f : K) ≤ mhz).max?).or grid.min? with
  | some f => .ok f
  | none => .error .value

/-- `n` clocks evenly spaced in [low, high], snapped to the grid, descending. -/
def spread (grid : List ℕ) (low high n : ℕ) : Except (SearchError K) (List ℕ) :=
  if n ≤ 1 ∨ high ≤ low then do
    let f ← snap grid (high : K)
    return [f]
  else do
    let points ← (List.range n).mapM fun i => snap grid ((low : K) + ((high : K) - low) * i / ((n : K) - 1))
    return points.dedup.insertionSort (· ≥ ·)

/-! ### Cached windows -/

inductive WindowKey (K : Type)
  | opened (clock : ClockPoint) (load alpha : K)
  | closed (clock : ClockPoint) (concurrency rep : ℕ) (mix : Mix)
  deriving DecidableEq

structure TierLocator (K σ : Type) where
  settings : SearchSettings K
  /-- Each window and when it was measured. -/
  cache : Dict (WindowKey K) (WindowResult K × K)
  meanPrompt : K
  windows : ℕ
  reused : ℕ
  /-- Every window of the run. -/
  results : List (WindowResult K)
  /-- `capacity_c0` and `f_eff` of the evidence. -/
  capacity : Option (K × ℕ)
  world : σ

namespace TierLocator

/-- Nothing measured yet. -/
def fresh (settings : SearchSettings K) (world : σ) : TierLocator K σ := ⟨settings, ∅, 512, 0, 0, [], none, world⟩

/-- A window measured now. -/
def measured (b : ProbeBackend K σ) (l : TierLocator K σ) (key : WindowKey K) (measure : σ → WindowResult K × σ) :
    WindowResult K × TierLocator K σ :=
  let (w, world) := measure l.world
  let (now, world) := b.time world
  (w, { l with
    cache := l.cache.insert key (w, now)
    windows := l.windows + 1
    results := l.results ++ [w]
    world := world })

def cached (b : ProbeBackend K σ) (l : TierLocator K σ) (key : WindowKey K) (measure : σ → WindowResult K × σ) :
    WindowResult K × TierLocator K σ :=
  match l.cache.lookup key with
  | none => l.measured b key measure
  | some hit =>
    let (now, world) := b.time l.world
    if now - hit.2 ≤ l.settings.cacheTtlS then
      (hit.1, { l with reused := l.reused + 1, results := l.results ++ [hit.1], world := world })
    else measured b { l with world := world } key measure

/-- Long enough for `minWindowRequests` at this load, within `maxWindowS`. -/
def openSeconds (l : TierLocator K σ) (eqTps alpha : K) : K :=
  let rps := eqTps / max (l.meanPrompt + alpha) 1
  let needed := if 0 < rps then l.settings.minWindowRequests / rps else l.settings.maxWindowS
  min l.settings.maxWindowS (max l.settings.windowS needed)

def openKey (clock : ClockPoint) (eqTps alpha : K) : WindowKey K :=
  .opened clock (Scalar.roundTo 1 eqTps) (Scalar.roundTo 1 alpha)

def openWindow (b : ProbeBackend K σ) (l : TierLocator K σ) (clock : ClockPoint) (eqTps alpha : K) :
    WindowResult K × TierLocator K σ :=
  let seconds := l.openSeconds eqTps alpha
  l.cached b (openKey clock eqTps alpha) (b.openWindow clock eqTps alpha seconds (2 * l.settings.theta))

def closedWindow (b : ProbeBackend K σ) (l : TierLocator K σ) (clock : ClockPoint) (concurrency : ℕ) (rep : ℕ)
    (mix : Mix) : WindowResult K × TierLocator K σ :=
  l.cached b (.closed clock concurrency rep mix) (b.closedWindow clock concurrency l.settings.decodeWindowS rep mix)

/-- Closed windows of several concurrencies, repeats and mixes, one after the other. -/
def closedEach (b : ProbeBackend K σ) (clock : ClockPoint) :
    List (ℕ × ℕ × Mix) → TierLocator K σ → List (WindowResult K) × TierLocator K σ
  | [], l => ([], l)
  | (concurrency, rep, mix) :: rest, l =>
    let (w, l) := l.closedWindow b clock concurrency rep mix
    let (ws, l) := closedEach b clock rest l
    (w :: ws, l)

/-- One window for each fixed trace. -/
def repeats (b : ProbeBackend K σ) (l : TierLocator K σ) (clock : ClockPoint) (concurrency : ℕ) :
    List (WindowResult K) × TierLocator K σ :=
  closedEach b clock ((List.range l.settings.decodeClockRepeats).map fun rep => (concurrency, rep, .all)) l

end TierLocator

/-- `statistics.median` of sorted values. -/
def median (values : List K) : Option K :=
  if values = [] then none
  else if values.length % 2 = 1 then values[values.length / 2]?
  else some ((values.getD (values.length / 2 - 1) 0 + values.getD (values.length / 2) 0) / 2)

/-- Several windows as one: clean only if every one is, J/token their median. -/
def combined (w : WindowResult K) (ws : List (WindowResult K)) : WindowResult K :=
  let all := w :: ws
  { w with
    requests := (all.map (·.requests)).sum
    violations := (all.map (·.violations)).sum
    tpotP95 := (all.filterMap (·.tpotP95)).max?
    decodeJ := median ((all.filterMap (·.decodeJ)).insertionSort (· ≤ ·))
    decodePreemptions := (all.map (·.decodePreemptions)).sum
    decodeWaitingMax := (ws.map (·.decodeWaitingMax)).foldl max w.decodeWaitingMax
    decodeKvMax := (all.filterMap (·.decodeKvMax)).max?
    decodeRunningMax := (all.filterMap (·.decodeRunningMax)).max? }

/-- `decodeClockRepeats` windows with different fixed traces, combined. -/
def TierLocator.closedMedian (b : ProbeBackend K σ) (l : TierLocator K σ) (clock : ClockPoint) (concurrency : ℕ) :
    Except (SearchError K) (WindowResult K × TierLocator K σ) :=
  match l.repeats b clock concurrency with
  | ([], _) => .error .index
  | (w :: ws, l) => .ok (combined w ws, l)

/-! ### Targets -/

namespace SearchSettings

/-- The violation bound holds. -/
def feasible (s : SearchSettings K) (w : WindowResult K) : Bool :=
  decide (0 < w.requests) && decide (Locator.wilsonUcb w.violations w.requests s.ucbZ ≤ s.theta)

/-- Capacity uses the admission criterion itself, in a window that ran to its end. -/
def meetsTarget (s : SearchSettings K) (w : WindowResult K) : Bool := s.feasible w && !w.aborted

def decodeClean (s : SearchSettings K) (w : WindowResult K) : Bool :=
  decide (0 < w.requests) && w.tpotP95.any (fun ms => decide (ms ≤ s.tpotSloMs)) &&
    decide (w.decodePreemptions = 0) && decide (w.decodeWaitingMax = 0)

end SearchSettings

/-! ### What a window cached or measured is -/

namespace TierLocator
variable {b : ProbeBackend K σ} {l : TierLocator K σ} {holds : WindowKey K → WindowResult K → Prop}

/-- Every cached window has a property of its key. -/
def CacheHolds (holds : WindowKey K → WindowResult K → Prop) (l : TierLocator K σ) : Prop :=
  ∀ key hit, l.cache.lookup key = some hit → holds key hit.1

/-- Only the measurements of a run grew, by the windows `ws`. -/
structure Grew (holds : WindowKey K → WindowResult K → Prop) (l : TierLocator K σ) (ws : List (WindowResult K))
    (l' : TierLocator K σ) : Prop where
  holds : l'.CacheHolds holds
  settings : l'.settings = l.settings
  meanPrompt : l'.meanPrompt = l.meanPrompt
  capacity : l'.capacity = l.capacity
  results : l'.results = l.results ++ ws

theorem Grew.nil (h : l.CacheHolds holds) : Grew holds l [] l := ⟨h, rfl, rfl, rfl, (List.append_nil _).symm⟩

theorem Grew.trans {l₁ l₂ l₃ : TierLocator K σ} {vs ws : List (WindowResult K)} (h : Grew holds l₁ vs l₂)
    (h' : Grew holds l₂ ws l₃) : Grew holds l₁ (vs ++ ws) l₃ where
  holds := h'.holds
  settings := h'.settings.trans h.settings
  meanPrompt := h'.meanPrompt.trans h.meanPrompt
  capacity := h'.capacity.trans h.capacity
  results := by rw [h'.results, h.results, List.append_assoc]

theorem measured_grew {key : WindowKey K} {measure : σ → WindowResult K × σ} (hl : l.CacheHolds holds)
    (hm : ∀ s, holds key (measure s).1) :
    holds key (l.measured b key measure).1 ∧
      Grew holds l [(l.measured b key measure).1] (l.measured b key measure).2 := by
  refine ⟨hm _, ?_, rfl, rfl, rfl, rfl⟩
  intro k hit hk
  by_cases hkey : k = key
  · subst hkey
    rw [measured, AList.lookup_insert] at hk
    obtain rfl := Option.some.inj hk
    exact hm _
  · rw [measured, AList.lookup_insert_ne hkey] at hk
    exact hl k hit hk

/-- What every measurement of a key has and every cached window has, the window returned has. -/
theorem cached_grew {key : WindowKey K} {measure : σ → WindowResult K × σ} (hl : l.CacheHolds holds)
    (hm : ∀ s, holds key (measure s).1) :
    holds key (l.cached b key measure).1 ∧
      Grew holds l [(l.cached b key measure).1] (l.cached b key measure).2 := by
  unfold cached
  cases hhit : l.cache.lookup key with
  | none => exact measured_grew hl hm
  | some hit =>
    simp only
    split
    · exact ⟨hl key hit hhit, hl, rfl, rfl, rfl, rfl⟩
    · obtain ⟨h, hgrew⟩ := measured_grew (b := b) (l := { l with world := (b.time l.world).2 }) hl hm
      exact ⟨h, hgrew.holds, hgrew.settings, hgrew.meanPrompt, hgrew.capacity, hgrew.results⟩

theorem openWindow_grew {clock : ClockPoint} {eqTps alpha : K} (hl : l.CacheHolds holds)
    (hm : ∀ seconds above s, holds (openKey clock eqTps alpha) (b.openWindow clock eqTps alpha seconds above s).1) :
    holds (openKey clock eqTps alpha) (l.openWindow b clock eqTps alpha).1 ∧
      Grew holds l [(l.openWindow b clock eqTps alpha).1] (l.openWindow b clock eqTps alpha).2 :=
  cached_grew hl fun s => hm _ _ s

theorem closedWindow_grew {clock : ClockPoint} {concurrency rep : ℕ} {mix : Mix} (hl : l.CacheHolds holds)
    (hm : ∀ seconds s, holds (.closed clock concurrency rep mix) (b.closedWindow clock concurrency seconds rep mix s).1) :
    holds (.closed clock concurrency rep mix) (l.closedWindow b clock concurrency rep mix).1 ∧
      Grew holds l [(l.closedWindow b clock concurrency rep mix).1] (l.closedWindow b clock concurrency rep mix).2 :=
  cached_grew hl fun s => hm _ s

end TierLocator
end CanaTune

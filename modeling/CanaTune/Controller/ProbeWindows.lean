import CanaTune.Controller.Probe
import CanaTune.Controller.Windows
import CanaTune.Domain.Groups
import CanaTune.Domain.Load
import CanaTune.Domain.Risk

/-! The probe's windows. A window starts tasks that make requests, and leaves once all of them are over: when the window
    ends, when a reading raises, and when whoever runs it is cancelled. -/

namespace CanaTune
variable {K : Type} [Scalar K]

/-! ### What a window measures -/

/-- What P's or D's agent reads of its GPU. -/
structure GpuReading (K : Type) where
  smMhz : ℕ
  powerW : K
  energyMj : K
  throttleReasons : Option ℕ

structure DecodeSnapshot (K : Type) extends EndpointSnapshot K where
  preemptionsTotal : Option K

/-- A sample: when, what P and D read, and D's latest telemetry. -/
structure WindowSample (K : Type) where
  time : K
  prefill : GpuReading K
  decode : GpuReading K
  snapshot : Option (DecodeSnapshot K)

/-- One Canary request and the state it was sent into. -/
structure ProbeSample (K : Type) where
  prefillMhz : ℕ
  decodeMhz : ℕ
  promptTokens : ℤ
  /-- Prompt lengths of the requests still at P. -/
  atPrefill : List ℤ
  /-- Prompt tokens between P's return and the first token. -/
  inflightTokens : ℤ
  decoding : ℤ
  ttftMs : Option K
  violated : Option Bool

/-- A window's result with what the calibration and the cluster model read of it. -/
structure ProbeWindow (K : Type) extends WindowResult K where
  clock : ClockPoint
  durationS : K
  ttftP95 : Option K
  samples : List (ProbeSample K)
  prefillAvgW : Option K
  decodeAvgW : Option K
  decodeBusyFraction : Option K
  decodeRunningMean : Option K
  tpotP50 : Option K

/-- NVML reasons that mean "held below the requested clock": power cap, slowdown, thermal, power brake. -/
def limitMask : ℕ := 236

def p95 (values : List K) : Option K :=
  if values = [] then none
  else some ((values.insertionSort (· ≤ ·)).getD (p95Index K values.length) 0)

def meanOf (values : List K) : Option K := if values = [] then none else some (values.sum / values.length)

/-- `_diff`. -/
def counterDiff (before after : Option K) : Option K := do return max 0 ((← after) - (← before))

/-- Snapshots that say both how many run and how full the KV cache is, one a time, the earliest first. -/
def orderedSnapshots (snapshots : List (DecodeSnapshot K)) : List (K × K × K) :=
  let seen : Dict K (K × K) := snapshots.foldl (fun seen s =>
    match s.running, s.kvUsage with
    | some running, some kv => seen.insert s.takenAt (running, kv)
    | _, _ => seen) ∅
  seen.items.insertionSort fun a b => a.1 ≤ b.1

/-- Mean running sequences, mean KV tokens and TPOT of a request over its own decode interval; at least two snapshots. -/
def decodePoint (ordered : List (K × K × K)) (kvTokens : ℕ) (o : ProbeOutcome K) : Option (K × K × K) := do
  let tpot ← o.tpotMs
  let first ← o.firstTokenAt
  let last ← o.lastTokenAt
  let inside := ordered.filter fun s => first ≤ s.1 ∧ s.1 ≤ last
  if inside.length < 2 then none
  else
    let running := (inside.map (·.2.1)).sum / inside.length
    let kv := (inside.map (·.2.2)).sum / inside.length * kvTokens
    some (running, kv, tpot)

def decodePoints (outcomes : List (ProbeOutcome K)) (snapshots : List (DecodeSnapshot K)) (kvTokens : Option ℕ) :
    List (K × K × K) :=
  match kvTokens with
  | none => []
  | some tokens => if tokens = 0 then [] else outcomes.filterMap (decodePoint (orderedSnapshots snapshots) tokens)

/-- Share of the busy readings that limits hold down. -/
def limitedFraction (busy : List (GpuReading K)) : K :=
  let limited := busy.filter fun r => r.throttleReasons.any fun reasons => decide (reasons &&& limitMask ≠ 0)
  if busy = [] then 0 else (limited.length : K) / busy.length

/-- Preemptions between the first snapshot and the last. -/
def preemptions (snapshots : List (DecodeSnapshot K)) : K :=
  match snapshots with
  | first :: second :: rest =>
    match first.preemptionsTotal with
    | some before => max 0 ((((second :: rest).getLastD first).preemptionsTotal.getD 0) - before)
    | none => 0
  | _ => 0

/-! ### Windows -/

structure WindowSettings (K : Type) where
  abortMinRequests : ℕ
  ttftSloMs : K
  tpotSloMs : K

inductive WindowAsk (K : Type)
  | opened (clock : ClockPoint) (eqTps alpha seconds abortAbove : K)
  | closed (clock : ClockPoint) (concurrency : ℕ) (seconds : K) (mix : Mix)
  deriving DecidableEq

def WindowAsk.clock : WindowAsk K → ClockPoint
  | opened clock .. => clock
  | closed clock .. => clock

def WindowAsk.load : WindowAsk K → K
  | opened _ eqTps .. => eqTps
  | closed _ concurrency .. => concurrency

/-- What the random generator of a window draws: indices, and shares of the unit interval. -/
structure Draws (K : Type) where
  index : ℕ → ℕ
  share : ℕ → K

/-- A task of a window: not begun, in its spread start, in a request, or finished. -/
inductive ProbeJob
  | fresh (spread : Bool) (prompts : List ℕ)
  | asleep (prompts : List ℕ)
  | asks (request : ℕ) (rest : List ℕ)
  | finished
  deriving DecidableEq

/-- Where a window awaits. -/
inductive WindowPoint (K : Type)
  | locking
  /-- D's KV size: closed windows ask for it once. -/
  | sizing
  /-- The client. -/
  | opening
  /-- D's token counter. -/
  | counting
  | firstSample
  /-- An open window, until the next arrival. -/
  | launching (todo : List (K × ℕ))
  /-- The tasks, up to a timeout. -/
  | draining
  | lastSample
  | lastCount
  /-- Every task has been asked to stop; with the exception that left the block. -/
  | gathering (pending : Option Raised)
  /-- The client closes. -/
  | leaving (pending : Option Raised)

/-- A window with its local variables. -/
structure WindowRun (K : Type) where
  ask : WindowAsk K
  point : WindowPoint K
  arrivals : List (K × ℕ)
  tokensBefore : Option K
  tokensAfter : Option K
  start : K
  aborted : Bool
  outcomes : List (ProbeOutcome K)
  violations : ℕ
  samples : List (WindowSample K)
  sampling : Bool
  jobs : List ProbeJob
  /-- Tasks that are asked to stop and have not been told yet. -/
  stopping : List ℕ

namespace ProbeJob

def isOver (j : ProbeJob) : Bool := decide (j = finished)

end ProbeJob

def divisionByZero : ProbeError := .other "ZeroDivisionError"

namespace LengthStats

/-- Pairs up to a prompt limit; never empty. -/
def pairsUpto (s : LengthStats) (maxPrompt : Option ℕ) : List (ℕ × ℕ) :=
  match maxPrompt with
  | none => s.pairs
  | some limit =>
    let kept := s.pairs.filter fun e => e.1 ≤ limit
    if kept ≠ [] then kept
    else
      let outputs := (s.pairs.map (·.2)).insertionSort (· ≤ ·)
      [(limit, outputs.getD (outputs.length / 2) 0)]

def meanPrompt (s : LengthStats) (maxPrompt : Option ℕ) : K :=
  let pairs := s.pairsUpto maxPrompt
  ((pairs.map (·.1)).sum : ℕ) / (pairs.length : K)

/-- `count` prompts drawn from the pairs. -/
def samplePrompts (s : LengthStats) (draws : Draws K) (count : ℕ) (maxPrompt : Option ℕ) : List ℕ :=
  let pairs := s.pairsUpto maxPrompt
  (List.range count).map fun i => (pairs.getD (draws.index i % pairs.length) (0, 0)).1

/-- Prompt lengths of a mix: the distribution, or its lower or upper half by length. -/
def mixPrompts (s : LengthStats) (maxPrompt : Option ℕ) : Mix → List ℕ
  | .all => ((s.pairsUpto maxPrompt).map (·.1)).insertionSort (· ≤ ·)
  | .short =>
    let prompts := ((s.pairsUpto maxPrompt).map (·.1)).insertionSort (· ≤ ·)
    prompts.take ((prompts.length + 1) / 2)
  | .long =>
    let prompts := ((s.pairsUpto maxPrompt).map (·.1)).insertionSort (· ≤ ·)
    prompts.drop (prompts.length / 2)

/-- The arrivals of an open window: a Poisson process conditioned on its count. -/
def arrivals (s : LengthStats) (maxPrompt : Option ℕ) (draws : Draws K) (eqTps alpha seconds : K) :
    Except ProbeError (List (K × ℕ)) :=
  let mean := s.meanPrompt maxPrompt + alpha
  if mean = 0 then .error divisionByZero
  else
    let count := (max 1 (Scalar.roundEven (eqTps / mean * seconds))).toNat
    let times := ((List.range count).map fun i => seconds * draws.share i).insertionSort (· ≤ ·)
    .ok (times.zip (s.samplePrompts draws count maxPrompt))

/-- More prompts than a worker can finish within any window. -/
def perWorker : ℕ := 64

/-- The prompts of each worker of a closed window. -/
def workers (s : LengthStats) (maxPrompt : Option ℕ) (draws : Draws K) (concurrency : ℕ) (mix : Mix) : List (List ℕ) :=
  let count := concurrency * perWorker
  let prompts :=
    if mix = .all then s.samplePrompts draws count maxPrompt
    else
      let pool := s.mixPrompts maxPrompt mix
      (List.range count).map fun i => pool.getD (draws.index (count + i) % pool.length) 0
  (List.range concurrency).map fun i => (prompts.drop (i * perWorker)).take perWorker

end LengthStats

namespace WindowRun

def of (ask : WindowAsk K) : WindowRun K where
  ask
  point := .locking
  arrivals := []
  tokensBefore := none
  tokensAfter := none
  start := 0
  aborted := false
  outcomes := []
  violations := 0
  samples := []
  sampling := false
  jobs := []
  stopping := []

def goTo (w : WindowRun K) (point : WindowPoint K) : WindowRun K := { w with point }

def setJob (w : WindowRun K) (i : ℕ) (j : ProbeJob) : WindowRun K := { w with jobs := w.jobs.set i j }

def isQuiet (w : WindowRun K) : Bool := w.jobs.all (·.isOver)

/-- The `finally` block: every task that is not over, and the sampler, are asked to stop. -/
def unwind (w : WindowRun K) (pending : Option Raised) : WindowRun K :=
  { w with
    point := .gathering pending
    sampling := false
    stopping := (List.range w.jobs.length).filter fun i => !(w.jobs.getD i .finished).isOver }

/-- The tasks that run are waited for. -/
def drain (w : WindowRun K) : WindowRun K := w.goTo (if w.isQuiet then .lastSample else .draining)

/-- From the head of the loop over the arrivals: a task for each one that is due, unless the window is aborted. The
    clock is read once an arrival. -/
def launch (s : WindowSettings K) (abortAbove : K) : List (K × ℕ) → (ℕ → K) → WindowRun K → WindowRun K
  | [], _, w => w.drain
  | arrival :: rest, clock, w =>
    let done := w.outcomes.length
    if s.abortMinRequests ≤ done ∧ done = 0 then w.unwind (some (.error divisionByZero))
    else if s.abortMinRequests ≤ done ∧ abortAbove < (w.violations : K) / done then drain { w with aborted := true }
    else if w.start + arrival.1 - clock 0 ≤ 0 then
      launch s abortAbove rest (fun k => clock (k + 1)) { w with jobs := w.jobs ++ [.fresh false [arrival.2]] }
    else w.goTo (.launching (arrival :: rest))

/-- The workers of a closed window; there must be one. -/
def launchWorkers (w : WindowRun K) (prompts : List (List ℕ)) : WindowRun K :=
  let w := { w with jobs := prompts.map (.fresh true) }
  if prompts = [] then w.unwind (some (.error (.python .value))) else w.goTo .draining

/-- When the workers stop asking. -/
def deadline (w : WindowRun K) : K :=
  match w.ask with
  | .opened _ _ _ seconds _ => w.start + seconds
  | .closed _ _ seconds _ => w.start + seconds

/-- The samples of the clean requests. -/
def probeSamples (s : WindowSettings K) (w : WindowRun K) : List (ProbeSample K) :=
  (w.outcomes.filter (·.status.isNone)).map fun o =>
    { prefillMhz := w.ask.clock.prefillMhz
      decodeMhz := w.ask.clock.decodeMhz
      promptTokens := o.promptTokens
      atPrefill := o.atPrefill
      inflightTokens := o.inflightTokens
      decoding := o.decodingAtSend
      ttftMs := o.ttftMs
      violated := isViolation o.ttftMs o.tpotMs s.ttftSloMs s.tpotSloMs }

/-- `_result`, from the first sample to the last. -/
def resultBetween (s : WindowSettings K) (kvTokens : Option ℕ) (w : WindowRun K) (first last : WindowSample K) :
    ProbeWindow K :=
  let ok := w.outcomes.filter (·.status.isNone)
  let duration := last.time - first.time
  let prefillJ := (last.prefill.energyMj - first.prefill.energyMj) / 1000
  let decodeJ := (last.decode.energyMj - first.decode.energyMj) / 1000
  let busy := (w.samples.map (·.prefill)).filter fun r => 0 < r.powerW
  let snaps := w.samples.filterMap (·.snapshot)
  let running := snaps.map fun s => s.running.getD 0
  let tpots := (ok.filterMap (·.tpotMs)).insertionSort (· ≤ ·)
  let counted : K := ((ok.map (·.outputTokens)).sum : ℕ)
  -- D's own count includes the tokens of requests that were cut off.
  let tokens := match counterDiff w.tokensBefore w.tokensAfter with
    | some generated => if 0 < generated then generated else counted
    | none => counted
  { load := w.ask.load
    requests := ok.length
    violations := w.violations
    tpotP95 := p95 (ok.filterMap (·.tpotMs))
    prefillJ := if ok = [] then none else some (prefillJ / ok.length)
    decodeJ := if tokens = 0 then none else some (decodeJ / tokens)
    prefillMhzMedian := median ((busy.map fun r => (r.smMhz : K)).insertionSort (· ≤ ·))
    prefillLimited := limitedFraction busy
    decodePreemptions := preemptions snaps
    decodeWaitingMax := ((snaps.map fun s => s.waiting.getD 0).max?).getD 0
    decodeKvMax := (snaps.map fun s => s.kvUsage.getD 0).max?
    decodeRunningMax := (snaps.map fun s => s.running.getD 0).max?
    aborted := w.aborted
    decodePoints := decodePoints ok snaps kvTokens
    clock := w.ask.clock
    durationS := duration
    ttftP95 := p95 (ok.filterMap (·.ttftMs))
    samples := w.probeSamples s
    prefillAvgW := if 0 < duration then some (prefillJ / duration) else none
    decodeAvgW := if 0 < duration then some (decodeJ / duration) else none
    decodeBusyFraction := if running = [] then none else some (running.countP (0 < ·) / running.length)
    decodeRunningMean := meanOf running
    tpotP50 := tpots[tpots.length / 2]? }

def result (s : WindowSettings K) (kvTokens : Option ℕ) (w : WindowRun K) : Except Raised (ProbeWindow K) :=
  match w.samples.head?, w.samples.getLast? with
  | some first, some last => .ok (w.resultBetween s kvTokens first last)
  | _, _ => .error (.error (.other "IndexError"))

end WindowRun

/-! ### The probe and its windows -/

/-- The probe, the risk table it records in, the window in progress, and how the earlier ones ended. -/
structure WindowedProbe (K : Type) where
  settings : WindowSettings K
  pool : ProbePool K
  table : RiskTable
  kvTokens : Option ℕ
  promptLimit : Option ℕ
  window : Option (WindowRun K)
  ended : List (Except Raised (ProbeWindow K))

/-- How an await of a window ends, with the length statistics of that moment where prompts are drawn. -/
inductive WindowAnswer (K : Type)
  | locked (lengths : LengthStats) (draws : Draws K)
  | capacity (tokens : Option ℕ)
  | client
  | count (tokens : Option K)
  | sample (x : WindowSample K) (lengths : LengthStats) (draws : Draws K) (clock : ℕ → K)
  | slept (clock : ℕ → K)
  | waited
  | gathered
  | left
  | raised (r : Raised)

inductive WindowEvent (K : Type)
  | window (ask : WindowAsk K)
  | main (answer : WindowAnswer K)
  /-- A task begins, wakes up, or its request goes on. -/
  | begin (i : ℕ) (now : K)
  | wake (i : ℕ) (now : K)
  | job (i : ℕ) (now : K) (answer : ProbeAnswer K)
  | sampled (x : WindowSample K)
  | limit (maxPrompt : Option ℕ)

namespace WindowedProbe

def fresh (settings : WindowSettings K) (connector : Connector) (vocabLow vocabHigh : ℤ) (table : RiskTable) :
    WindowedProbe K :=
  ⟨settings, ⟨.fresh connector vocabLow vocabHigh, []⟩, table, none, none, none, []⟩

def goOn (s : WindowedProbe K) (w : WindowRun K) : WindowedProbe K := { s with window := some w }

def finish (s : WindowedProbe K) (r : Except Raised (ProbeWindow K)) : WindowedProbe K :=
  { s with window := none, ended := s.ended ++ [r] }

/-! #### The window itself -/

def locked (s : WindowedProbe K) (w : WindowRun K) (lengths : LengthStats) (draws : Draws K) : WindowedProbe K :=
  match w.ask with
  | .opened _ eqTps alpha seconds _ =>
    match lengths.arrivals s.promptLimit draws eqTps alpha seconds with
    | .error e => s.finish (.error (.error e))
    | .ok arrivals => s.goOn { w with arrivals, point := .opening }
  | .closed .. => s.goOn (w.goTo (if s.kvTokens.isNone then .sizing else .opening))

/-- The first sample is in: the sampler and the tasks start. -/
def sampled (s : WindowedProbe K) (w : WindowRun K) (x : WindowSample K) (lengths : LengthStats) (draws : Draws K)
    (clock : ℕ → K) : WindowedProbe K :=
  let w := { w with samples := w.samples ++ [x], sampling := true, start := clock 0 }
  match w.ask with
  | .opened _ _ _ _ abortAbove => s.goOn (w.launch s.settings abortAbove w.arrivals fun k => clock (k + 1))
  | .closed _ concurrency _ mix => s.goOn (w.launchWorkers (lengths.workers s.promptLimit draws concurrency mix))

/-- A sleep of an open window is over. -/
def slept (s : WindowedProbe K) (w : WindowRun K) (todo : List (K × ℕ)) (clock : ℕ → K) : WindowedProbe K :=
  match w.ask with
  | .opened _ _ _ _ abortAbove => s.goOn (w.launch s.settings abortAbove todo clock)
  | .closed .. => s

/-- The window is over: its result, or the exception that left its block. -/
def leave (s : WindowedProbe K) (w : WindowRun K) : Option Raised → WindowedProbe K
  | some r => s.finish (.error r)
  | none => s.finish (w.result s.settings s.kvTokens)

/-- The window goes on from its await; it waits for its tasks even where it is cancelled. -/
def resume (s : WindowedProbe K) (w : WindowRun K) : WindowPoint K → WindowAnswer K → Option (WindowedProbe K)
  | .locking, .locked lengths draws => some (s.locked w lengths draws)
  | .locking, .raised r => some (s.finish (.error r))
  | .sizing, .capacity tokens => some ({ s with kvTokens := tokens }.goOn (w.goTo .opening))
  | .sizing, .raised r => some (s.finish (.error r))
  | .opening, .client => some (s.goOn (w.goTo .counting))
  | .opening, .raised r => some (s.finish (.error r))
  | .counting, .count tokens => some (s.goOn { w with tokensBefore := tokens, point := .firstSample })
  | .counting, .raised r => some (s.goOn (w.goTo (.leaving (some r))))
  | .firstSample, .sample x lengths draws clock => some (s.sampled w x lengths draws clock)
  | .firstSample, .raised r => some (s.goOn (w.goTo (.leaving (some r))))
  | .launching todo, .slept clock => some (s.slept w todo clock)
  | .launching _, .raised r => some (s.goOn (w.unwind (some r)))
  | .draining, .waited => some (s.goOn (w.goTo .lastSample))
  | .draining, .raised r => some (s.goOn (w.unwind (some r)))
  | .lastSample, .sample x _ _ _ => some (s.goOn { w with samples := w.samples ++ [x], point := .lastCount })
  | .lastSample, .raised r => some (s.goOn (w.unwind (some r)))
  | .lastCount, .count tokens => some (s.goOn (WindowRun.unwind { w with tokensAfter := tokens } none))
  | .lastCount, .raised r => some (s.goOn (w.unwind (some r)))
  | .gathering pending, .gathered => if w.isQuiet then some (s.goOn (w.goTo (.leaving pending))) else none
  | .gathering _, .raised .cancelled =>
    if w.isQuiet then some (s.goOn (w.goTo (.leaving (some .cancelled)))) else none
  | .leaving pending, .left => some (s.leave w pending)
  | .leaving _, .raised r => some (s.finish (.error r))
  | _, _ => none

/-! #### Its tasks -/

/-- The request of a task; the task is over at once when no prompt can be drawn. -/
def ask (s : WindowedProbe K) (w : WindowRun K) (i prompt : ℕ) (rest : List ℕ) (now : K) : WindowedProbe K :=
  let (p, point) := s.pool.probe.request (prompt : ℤ) now
  let job := match point with
    | .raised _ => .finished
    | _ => .asks s.pool.requests.length rest
  { s with pool := ⟨p, s.pool.requests ++ [point]⟩, window := some (w.setJob i job) }

/-- A worker asks until the deadline. -/
def nextPrompt (s : WindowedProbe K) (w : WindowRun K) (i : ℕ) (prompts : List ℕ) (now : K) : WindowedProbe K :=
  match prompts with
  | [] => s.goOn (w.setJob i .finished)
  | prompt :: rest => if w.deadline ≤ now then s.goOn (w.setJob i .finished) else s.ask w i prompt rest now

/-- `_record`, and the window's own count; a failed request may count as a violation. -/
def violated (s : WindowedProbe K) (o : ProbeOutcome K) : Option Bool :=
  isViolation o.ttftMs o.tpotMs s.settings.ttftSloMs s.settings.tpotSloMs

def recordOutcome (s : WindowSettings K) (clock : ClockPoint) (t : RiskTable) (o : ProbeOutcome K) : RiskTable :=
  if o.status.isNone then
    match isViolation o.ttftMs o.tpotMs s.ttftSloMs s.tpotSloMs with
    | some v => t.record (t.cell clock o.nAwaitAtSend o.promptTokens.toNat o.dBusyAtSend) v
    | none => t
  else t

/-- A request returned: its outcome is counted, and the task goes on. -/
def returned (s : WindowedProbe K) (w : WindowRun K) (i : ℕ) (rest : List ℕ) (now : K) (o : ProbeOutcome K) :
    WindowedProbe K :=
  let w := { w with
    outcomes := w.outcomes ++ [o]
    violations := if s.violated o = some true then w.violations + 1 else w.violations }
  { s with table := recordOutcome s.settings w.ask.clock s.table o }.nextPrompt w i rest now

/-- The request of a task goes on from its await. -/
def resumeRequest (d : Decoder K) (s : WindowedProbe K) (w : WindowRun K) (i k : ℕ) (rest : List ℕ) (now : K)
    (answer : ProbeAnswer K) : Option (WindowedProbe K) := do
  let pool ← s.pool.step d (.resume k now answer)
  let s := { s with pool }
  match pool.requests[k]? with
  | some (.returned o) => return s.returned w i rest now o
  | some (.raised _) => return s.goOn (w.setJob i .finished)
  | _ => return s.goOn w

def isCancel : ProbeAnswer K → Bool
  | .raised .cancelled => true
  | _ => false

/-- A task that is asked to stop gets nothing but that. -/
def permits (w : WindowRun K) (i : ℕ) (answer : ProbeAnswer K) : Bool := decide (i ∉ w.stopping) || isCancel answer

def told (w : WindowRun K) (i : ℕ) : WindowRun K := { w with stopping := w.stopping.filter (· ≠ i) }

/-- A task begins; one that is asked to stop never does. -/
def begin (s : WindowedProbe K) (w : WindowRun K) (i : ℕ) (now : K) : Option (WindowedProbe K) :=
  match w.jobs[i]? with
  | some (.fresh spread prompts) =>
    if i ∈ w.stopping then some (s.goOn ((told w i).setJob i .finished))
    else if spread then some (s.goOn (w.setJob i (.asleep prompts)))
    else
      match prompts with
      | [] => some (s.goOn (w.setJob i .finished))
      | prompt :: rest => some (s.ask w i prompt rest now)
  | _ => none

def wake (s : WindowedProbe K) (w : WindowRun K) (i : ℕ) (now : K) : Option (WindowedProbe K) :=
  match w.jobs[i]? with
  | some (.asleep prompts) =>
    if i ∈ w.stopping then some (s.goOn ((told w i).setJob i .finished)) else some (s.nextPrompt w i prompts now)
  | _ => none

def job (d : Decoder K) (s : WindowedProbe K) (w : WindowRun K) (i : ℕ) (now : K) (answer : ProbeAnswer K) :
    Option (WindowedProbe K) :=
  match w.jobs[i]? with
  | some (.asks k rest) => if permits w i answer then resumeRequest d s (told w i) i k rest now answer else none
  | _ => none

/-! #### Runs -/

def step (d : Decoder K) (s : WindowedProbe K) : WindowEvent K → Option (WindowedProbe K)
  | .window ask => if s.window.isNone then some (s.goOn (.of ask)) else none
  | .main answer => s.window.bind fun w => s.resume w w.point answer
  | .begin i now => s.window.bind fun w => s.begin w i now
  | .wake i now => s.window.bind fun w => s.wake w i now
  | .job i now answer => s.window.bind fun w => s.job d w i now answer
  | .sampled x => s.window.bind fun w => if w.sampling then some (s.goOn { w with samples := w.samples ++ [x] }) else none
  | .limit maxPrompt => some { s with promptLimit := maxPrompt }

/-- A list of events, one after the other. -/
def run (d : Decoder K) (s : WindowedProbe K) : List (WindowEvent K) → Option (WindowedProbe K)
  | [] => some s
  | e :: es => (s.step d e).bind fun s => run d s es

end WindowedProbe
end CanaTune

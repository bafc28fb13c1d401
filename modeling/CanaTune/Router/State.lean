import CanaTune.Domain.Groups
import CanaTune.Domain.Calibration
import CanaTune.Domain.Load

/-! The Router's settings and state. One synchronous call reads the clock once (`now`). -/

namespace CanaTune
variable {K : Type} [Scalar K] {n : ℕ}

/-! ### Settings -/

inductive AdmissionKind
  | slack
  | cells
  deriving DecidableEq

inductive OverloadPolicy
  | reject
  | serve
  | bestEffort
  deriving DecidableEq

inductive DoomedPolicy
  | backfill
  | dispatch
  deriving DecidableEq

inductive Pairing
  | fixed
  | dynamic
  deriving DecidableEq

inductive DChoice
  | concentrate
  | balance
  deriving DecidableEq

inductive PChoice
  | balance
  | same
  | concentrate
  deriving DecidableEq

inductive GroupChoice
  | concentrate
  | roundRobin
  | fill
  deriving DecidableEq

inductive TpotFeedback
  | window
  | gap
  deriving DecidableEq

/-- The Controller's mode. -/
inductive Mode
  | energy
  | warning
  | confirming
  | expanding
  | fullEffort
  deriving DecidableEq

structure RouterSettings (K : Type) where
  theta : K
  ttftSloMs : K
  tpotSloMs : K
  maxWaitMs : K
  retryPeriodMs : K
  snapshotMaxAgeS : K
  dBusyMinRunning : ℤ
  loadWindowS : K
  admission : AdmissionKind
  kvBytesPerToken : K
  /-- D's KV receive buffer; `none`: none (NIXL). -/
  kvBufferBytes : Option K
  overload : OverloadPolicy
  doomed : DoomedPolicy
  /-- `none`: the lowest slack whose observed risk is at most theta / 2. -/
  backfillSlackMs : Option K
  holdMaxMs : K
  pairing : Pairing
  kvGrowth : Bool
  kvProjectionHard : Bool
  kvProjectionLimit : Option K
  dBalanceModes : List Mode
  dChoice : DChoice
  pChoice : PChoice
  groupChoice : GroupChoice
  fillP2cGroups : ℕ
  nearSlo : K
  kneeUpdate : Bool
  tpotFeedback : TpotFeedback
  tpotWindowS : K
  tpotWindowQuantile : K
  tpotWindowMinGaps : ℕ
  tpotStallFactor : K

/-- The settings that have a default. -/
def RouterSettings.defaults (theta ttftSloMs tpotSloMs maxWaitMs retryPeriodMs snapshotMaxAgeS : K)
    (dBusyMinRunning : ℤ) (loadWindowS : K) : RouterSettings K where
  theta := theta
  ttftSloMs := ttftSloMs
  tpotSloMs := tpotSloMs
  maxWaitMs := maxWaitMs
  retryPeriodMs := retryPeriodMs
  snapshotMaxAgeS := snapshotMaxAgeS
  dBusyMinRunning := dBusyMinRunning
  loadWindowS := loadWindowS
  admission := .slack
  kvBytesPerToken := 131072
  kvBufferBytes := some (10 ^ 9)
  overload := .bestEffort
  doomed := .backfill
  backfillSlackMs := none
  holdMaxMs := 30000
  pairing := .fixed
  kvGrowth := true
  kvProjectionHard := false
  kvProjectionLimit := none
  dBalanceModes := [.confirming, .expanding, .fullEffort]
  dChoice := .concentrate
  pChoice := .balance
  groupChoice := .concentrate
  fillP2cGroups := 4
  nearSlo := 9 / 10
  kneeUpdate := true
  tpotFeedback := .window
  tpotWindowS := 5
  tpotWindowQuantile := 95 / 100
  tpotWindowMinGaps := 50
  tpotStallFactor := 5

/-! ### Tickets -/

/-- The P of one group and the D of another (the same group when fixed). A route is its own key. -/
structure Route (n : ℕ) where
  p : Fin n
  d : Fin n
  deriving DecidableEq

inductive Stage
  | prefill
  | transfer
  | decode
  | done
  deriving DecidableEq

/-- What the Router saw when it issued a ticket. -/
structure AdmissionSnapshot (K : Type) (n : ℕ) where
  decodeGroup : Fin n
  nAwait : ℤ
  tAwait : ℤ
  nInflight : ℤ
  nAtP : ℤ
  dBusy : Bool
  tier : Tier
  clock : Option ClockPoint
  openAdmission : Bool
  pendingMs : K
  inflightMb : K
  nDecoding : ℤ
  predictedMs : Option K
  tpotBoundMs : Option K
  overflow : Option Overflow
  /-- Issued in baseline mode. -/
  routingBaseline : Bool

/-- One admitted request: its reservation and the admission snapshot. `group` owns its P; `decodeGroup`
    owns its D when that is another group's. -/
structure Ticket (K : Type) (n : ℕ) where
  id : ℕ
  group : Fin n
  cell : Cell
  /-- `none`: cold-start or baseline admission. -/
  estimate : Option (RiskEstimate K)
  promptTokens : ℕ
  promptExact : Bool
  admittedAt : K
  waitMs : K
  clockEpoch : ℕ
  snapshot : AdmissionSnapshot K n
  firstTokenAt : Option K
  lastTokenAt : Option K
  finished : Bool
  streaming : Bool
  stage : Stage
  sOwnMs : K
  features : List K
  predictedMs : Option K
  overflow : Option Overflow
  slackMs : Option K
  decodeGroup : Option (Fin n)
  decodeEpoch : ℕ

/-- The group whose D serves the request. -/
def Ticket.dgroup (t : Ticket K n) : Fin n := t.decodeGroup.getD t.group

/-! ### State -/

/-- Features, prediction and slack estimate of a route in the last scan. -/
structure SlackEntry (K : Type) where
  features : List K
  predicted : K
  slack : Option (SlackEstimate K)

/-- A route that may take the request, with its risk cell. -/
structure Candidate (K : Type) (n : ℕ) where
  route : Route n
  cell : Cell
  estimate : Option (RiskEstimate K)
  dBusy : Bool

/-- A route within the hard limits, with its risk cell. -/
structure WithinLimits (n : ℕ) where
  route : Route n
  cell : Cell
  dBusy : Bool

/-- The side tables of the last scan. -/
structure Scan (K : Type) (n : ℕ) where
  slackByGroup : Dict (Route n) (SlackEntry K)
  /-- Length-model TPOT bound per group. -/
  tpotByGroup : Dict (Fin n) K
  withinLimits : List (WithinLimits n)
  /-- Routes whose D fails the length model. -/
  dUnsafe : List (Route n)

/-- Who waits, and since when. -/
structure WaiterBooks (K : Type) where
  /-- serve: waiters past the wait budget, in arrival order. -/
  holding : List ℕ
  /-- Waiters that ever entered the hold queue. -/
  held : ℕ
  /-- Waiters still within the wait budget. -/
  fresh : Finset ℕ
  /-- holder ↦ clock time its SLO is lost -/
  expires : Dict ℕ K
  signalled : Finset ℕ
  queue : List ℕ
  waitingSince : Dict ℕ K
  nextWaiter : ℕ
  /-- Times of the offered requests. -/
  arrivals : List K

/-- What admission learned: the risk table, the predictor, the slack risk, the knees and their thresholds. -/
structure Learned (K : Type) where
  table : RiskTable
  predictor : TtftPredictor K
  slack : SlackRisk K
  /-- Share of D's receive buffer allowed in flight. -/
  kvFraction : K
  /-- Requests at one P from which violations were measured; `none`: no cap. -/
  pSlotCap : Option ℤ
  kvKnee : Option KneeCounts
  slotKnee : Option KneeCounts
  /-- SLO outcomes of risk-admitted production requests. -/
  outcomes : List Bool

/-- What was read from the table in force when it was applied. -/
structure Applied (K : Type) where
  key : Option K
  costs : CostBook K
  idleTtft : Dict ℕ K

/-- One request's latest TTFT and TPOT evidence; `⊥` is a time before every other. -/
structure LatencySample (K : Type) where
  ttftTime : WithBot K
  ttftRatio : K
  tpotTime : WithBot K
  tpotRatio : K

/-- What production feedback is computed from. -/
structure Production (K : Type) (n : ℕ) where
  /-- Unfinished tickets (best effort). -/
  live : List ℕ
  samples : Dict ℕ (LatencySample K)
  /-- id ↦ (group, admitted) -/
  origin : Dict ℕ (Fin n × K)
  /-- fill: group ↦ clock time until it has no room -/
  cooled : Dict (Fin n) K
  /-- Recent token gaps (time, ms) per D. -/
  gaps : List (Fin n × List (K × K))
  /-- Marks: no D safe for one more request. -/
  dExhausted : List K
  pressureEvent : Bool
  riskSignals : ℕ

structure OverflowCounts where
  rescue : ℕ
  doomed : ℕ
  backfill : ℕ
  bestEffort : ℕ

/-- `sample(population, 2)`: two different positions, by draw number and population size. -/
structure Sampler where
  pick : ℕ → ℕ → ℕ × ℕ
  lt : ∀ draw size, 2 ≤ size → (pick draw size).1 < size ∧ (pick draw size).2 < size
  ne : ∀ draw size, 2 ≤ size → (pick draw size).1 ≠ (pick draw size).2

structure Router (K : Type) (n : ℕ) where
  settings : RouterSettings K
  now : K
  groups : Fin n → Group K
  tiers : TierState K
  telemetry : Option (Telemetry K n)
  lengths : Option LengthStats
  clockEpochs : Fin n → ℕ
  /-- Every ticket issued so far, in the order of its id. -/
  tickets : List (Ticket K n)
  books : WaiterBooks K
  learned : Learned K
  applied : Applied K
  scan : Scan K n
  production : Production K n
  rejections : ℕ
  admitted : ℕ
  overflows : OverflowCounts
  outputMeanAt : Option K
  outputMeanCached : K
  fullEffort : Bool
  controlMode : Mode
  /-- Round robin over the fixed pairs, hard limits only. -/
  baselineMode : Bool
  rr : ℕ
  groupRr : ℕ
  sampler : Sampler
  draws : ℕ
  arrivalKeepS : K

/-- A Router before its first request. -/
def Router.fresh (settings : RouterSettings K) (table : RiskTable) (now : K) (groups : Fin n → Group K)
    (tiers : TierState K) (telemetry : Option (Telemetry K n)) (lengths : Option LengthStats) (sampler : Sampler) :
    Router K n where
  settings := settings
  now := now
  groups := groups
  tiers := tiers
  telemetry := telemetry
  lengths := lengths
  clockEpochs := fun _ => 0
  tickets := []
  books := ⟨[], 0, ∅, ∅, ∅, [], ∅, 1, []⟩
  learned :=
    { table := table
      predictor := .fresh (some (2 * settings.ttftSloMs))
      slack := .fresh (slackEdges settings.ttftSloMs) table.minSamples
      kvFraction := 1
      pSlotCap := none
      kvKnee := none
      slotKnee := none
      outcomes := [] }
  applied := ⟨none, .ofTables ∅, ∅⟩
  scan := ⟨∅, ∅, [], []⟩
  production := ⟨[], ∅, ∅, ∅, [], [], false, 0⟩
  rejections := 0
  admitted := 0
  overflows := ⟨0, 0, 0, 0⟩
  outputMeanAt := none
  outputMeanCached := 0
  fullEffort := false
  controlMode := .energy
  baselineMode := false
  rr := 0
  groupRr := 0
  sampler := sampler
  draws := 0
  arrivalKeepS := 600

section Small

/-- Settings, risk table and draws of the worked runs. -/
def smallSettings : RouterSettings ℚ := .defaults (1 / 10) 1000 50 100 20 1 1 10

def smallTable : RiskTable := .fresh ⟨[0, 1, 2, 4], [512, 2048], by decide, by decide⟩ 20 (by decide)

def smallSampler : Sampler where
  pick _ _ := (0, 1)
  lt _ _ h := ⟨by omega, by omega⟩
  ne _ _ _ := by decide

def smallMax : ClockPoint := ⟨1800, 1500⟩

/-- A cold start with every pair locked at the highest clocks, the first the Canary. -/
def smallCold (n : ℕ) : Router ℚ n :=
  .fresh smallSettings smallTable 0
    (fun g => { Group.fresh (decide (g.val = 0)) with effective := some smallMax })
    ⟨smallMax, none, none⟩ none none smallSampler

/-- A table published at `publishedAt` whose KV gate is at a share of the receive buffer. -/
def smallPublished (publishedAt gate : ℚ) : TierTable ℚ where
  park := ⟨600, 600⟩
  h := ⟨1200, 1100⟩
  capacityH := 2
  alphaTokens := 1
  l := none
  decodeMaxRunning := none
  decodeKvLimit := none
  decodeLength := none
  decodeKvTokens := none
  publishedAt := publishedAt
  evidence := ⟨∅, ∅, ∅, some ⟨[0, 0, 0, 0, 0], ∅, some gate, none, ∅, ∅⟩, none, none⟩

/-- The same pairs once the first table is published. -/
def smallServing (n : ℕ) : Router ℚ n :=
  { smallCold n with tiers := ⟨smallMax, some (smallPublished 1 (1 / 2)), none⟩ }

end Small

/-- An exception that leaves a Router call. -/
inductive RouterError
  | key
  | index
  | value
  | assertion
  deriving DecidableEq

namespace Router

/-- Cold start: no tier table yet, every request is admitted. -/
def openAdmission (r : Router K n) : Bool := r.tiers.table.isNone

def setGroup (r : Router K n) (i : Fin n) (f : Group K → Group K) : Router K n :=
  { r with groups := Function.update r.groups i (f (r.groups i)) }

section
omit [Scalar K]
variable (r : Router K n) (i : Fin n) (f : Group K → Group K)

theorem setGroup_groups (g : Fin n) : (r.setGroup i f).groups g = if g = i then f (r.groups i) else r.groups g := by
  simp [setGroup, Function.update_apply]

/-- An update that adds to a reading of the group adds to it there and nowhere else. -/
theorem read_setGroup {M : Type} [AddZeroClass M] (read : Group K → M) (δ : M)
    (hf : read (f (r.groups i)) = read (r.groups i) + δ) (g : Fin n) :
    read ((r.setGroup i f).groups g) = read (r.groups g) + if g = i then δ else 0 := by
  rw [setGroup_groups]
  split_ifs with h
  · rw [hf, h]
  · rw [add_zero]

theorem read_setGroup_same {M : Type} (read : Group K → M) (hf : ∀ x, read (f x) = read x) (g : Fin n) :
    read ((r.setGroup i f).groups g) = read (r.groups g) := by
  rw [setGroup_groups]
  split_ifs with h
  · rw [hf, h]
  · rfl

@[simp] theorem setGroup_tickets : (r.setGroup i f).tickets = r.tickets := rfl
@[simp] theorem setGroup_books : (r.setGroup i f).books = r.books := rfl
@[simp] theorem setGroup_settings : (r.setGroup i f).settings = r.settings := rfl

end

/-- Wake control at once; clocks do not change here. -/
def signalPressure (r : Router K n) : Router K n :=
  { r with production := { r.production with
      riskSignals := r.production.riskSignals + 1, pressureEvent := true } }

/-! ### The table in force -/

/-- S(L) per P clock: the Canary's tables, or the MAX table of older tier tables. -/
def costBook (r : Router K n) (evidence : Option (Evidence K)) : CostBook K :=
  match evidence with
  | none => .ofTables ∅
  | some e =>
    if e.prefillMsByClock.items = [] ∧ e.prefillMsByLength.items ≠ [] then
      .ofTables ((∅ : Dict ℕ (Dict ℕ K)).insert r.tiers.maxPoint.prefillMhz e.prefillMsByLength)
    else .ofTables e.prefillMsByClock

def nonemptyBins (bins : Dict ℕ (ℕ × ℕ)) : Option KneeCounts :=
  if bins.items = [] then none else some (.ofSeed bins)

/-- The predictor prior, the slack seed and the thresholds of a calibration. -/
def applyCalibration (s : RouterSettings K) (l : Learned K) (a : AdmissionCalibration K) : Learned K :=
  { l with
    predictor := l.predictor.setPrior a.predictorCoef
    slack := l.slack.setSeed a.slackCounts
    kvFraction :=
      match a.kvGateFraction with
      | some f => if f = 0 then 1 else f
      | none => 1
    pSlotCap := a.pSlotCap
    kvKnee :=
      match s.kvBufferBytes with
      | some b => if b = 0 then none else nonemptyBins a.kvGateBins
      | none => none
    slotKnee := nonemptyBins a.pSlotBins }

/-- On a newly published tier table: its S(L) tables and the admission parameters it carries. -/
def applyTable (r : Router K n) : Router K n :=
  let key := r.tiers.table.map (·.publishedAt)
  if key = r.applied.key then r
  else
    let evidence := r.tiers.table.map (·.evidence)
    { r with
      applied := ⟨key, r.costBook evidence, ((evidence.map (·.idleTtftMs)).getD ∅)⟩
      learned :=
        match evidence.bind (·.admission) with
        | some a => applyCalibration r.settings r.learned a
        | none => r.learned }

/-- S(L) at P clock `mhz` (`none`: the highest measured). -/
def prefillCost (r : Router K n) (mhz : Option ℕ) : PrefillCost K × Router K n :=
  let r := r.applyTable
  (r.applied.costs.forClock mhz, r)

/-- Longest wait after which the SLO can still be met. -/
def deadlineMs (r : Router K n) (tokens : ℕ) : K × Router K n :=
  let r := r.applyTable
  (max 0 (r.settings.ttftSloMs - (interpolate r.applied.idleTtft (tokens : K)).getD 0), r)

/-- Spare-capacity margin for backfilling doomed requests. -/
def backfillSlackMs (r : Router K n) : K :=
  match r.settings.backfillSlackMs with
  | some v => v
  | none =>
    match r.learned.slack.safeSlack (r.settings.theta / 2) with
    | some safe => max 0 safe
    | none => r.learned.slack.edges.getLastD 0

end Router
end CanaTune

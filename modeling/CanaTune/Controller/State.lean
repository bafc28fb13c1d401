import CanaTune.Router.Feedback
import CanaTune.Lib.EventLoop

/-! What the Controller, the Canary scheduler and the clock agents keep next to the Router. `trace` tells what
    happened, for the theorems; no function reads it. -/

namespace CanaTune
variable {K : Type} [Scalar K] {n : ℕ}

/-! ### Controller -/

/-- Clocks of a group at tier H. -/
inductive ProductionClocks
  | canary
  | max
  deriving DecidableEq

/-- How full effort routes. -/
inductive EffortRouting
  | baseline
  | cantune
  deriving DecidableEq

structure ControllerSettings (K : Type) [Scalar K] where
  periodS : K
  loadWindowS : K
  tDownS : K
  minActiveGroups : ℕ
  staggerS : K
  energyLogPeriodS : K
  burstWindowS : K
  burstBucketS : K
  switchGain : K
  feedbackWindowS : K
  feedbackMinSamples : ℕ
  feedbackNearSlo : K
  confirmS : K
  expansionGraceS : K
  solver : Bool
  fullEffortRouting : EffortRouting
  confirmWindowS : K
  confirmFraction : K
  dTriggerCount : ℕ
  dTriggerWindowS : K
  fullEffortMinS : K
  exitRateFraction : K
  productionClocks : ProductionClocks
  redirect : Bool
  feedbackWindowS_pos : 0 < feedbackWindowS
  feedbackMinSamples_pos : 0 < feedbackMinSamples
  feedbackNearSlo_pos : 0 < feedbackNearSlo
  feedbackNearSlo_le : feedbackNearSlo ≤ 1
  confirmS_nonneg : 0 ≤ confirmS
  expansionGraceS_nonneg : 0 ≤ expansionGraceS
  confirmWindowS_pos : 0 < confirmWindowS
  confirmFraction_pos : 0 < confirmFraction
  confirmFraction_le : confirmFraction ≤ 1
  dTriggerCount_pos : 0 < dTriggerCount
  dTriggerWindowS_pos : 0 < dTriggerWindowS
  fullEffortMinS_nonneg : 0 ≤ fullEffortMinS
  exitRateFraction_pos : 0 < exitRateFraction
  exitRateFraction_le : exitRateFraction ≤ 1

/-- Why full effort is entered. -/
inductive EffortReason
  | severeBacklog
  | decodeExhausted
  | expansionInsufficient
  | redirectInsufficient
  | nothingToExpand
  | reclaimRetry
  deriving DecidableEq

/-- What the solver was built from. -/
structure SolverKey (K : Type) where
  publishedAt : K
  caps : List (ClockPoint × K)
  predictorCoef : Option (List K)
  slackCounts : Option (List (ℕ × ℕ × ℕ))
  deriving DecidableEq

structure Controller (K : Type) [Scalar K] (n : ℕ) where
  settings : ControllerSettings K
  /-- Clock agents that report energy. -/
  agents : ℕ
  calmSince : Option K
  /-- (n, point) the solver keeps choosing. -/
  target : Option (ℕ × ClockPoint)
  targetSince : Option K
  plan : Option (Evaluation K)
  solverKey : Option (SolverKey K)
  solver : Option (Solver K)
  /-- (t, rate) of the last `tDownS`. -/
  demand : List (K × K)
  pressureAt : WithBot K
  rejectionsSeen : ℕ
  lastEnergyLog : WithBot K
  /-- Groups whose last clock lock failed: next retry time and backoff. -/
  retry : Fin n → Option (K × K)
  fullEffort : Bool
  /-- A tick is in progress. -/
  controlLock : Bool
  switchS : K
  mode : Mode
  warningSeen : ℕ
  warningAt : WithBot K
  confirmSince : Option K
  severeSince : Option K
  expandedAt : Option K
  pressureTicks : List (K × Bool)
  fullEffortSince : WithBot K
  fullEffortRate : K
  /-- Expanding by a redirect since then. -/
  redirectedAt : Option K

def Controller.fresh (settings : ControllerSettings K) (agents : ℕ) : Controller K n where
  settings := settings
  agents := agents
  calmSince := none
  target := none
  targetSince := none
  plan := none
  solverKey := none
  solver := none
  demand := []
  pressureAt := ⊥
  rejectionsSeen := 0
  lastEnergyLog := ⊥
  retry := fun _ => none
  fullEffort := false
  controlLock := false
  switchS := 0
  mode := .energy
  warningSeen := 0
  warningAt := ⊥
  confirmSince := none
  severeSince := none
  expandedAt := none
  pressureTicks := []
  fullEffortSince := ⊥
  fullEffortRate := 0
  redirectedAt := none

/-! ### Canary scheduler -/

/-- What an experiment does. -/
inductive Kind
  | full
  | relocate
  | verify
  | recheck
  deriving DecidableEq

/-- Why it was started. -/
inductive Trigger
  | coldStart
  | noModel
  | lengthShift
  | plan
  | violationDrift
  | periodic
  | api
  deriving DecidableEq

structure SchedulerSettings (K : Type) where
  periodS : K
  quietS : K
  minIntervalS : K
  maxDuty : K
  periodicS : K
  lengthShift : K
  driftMinSamples : ℕ
  drainTimeoutS : K

structure CanaryScheduler (K : Type) where
  settings : SchedulerSettings K
  theta : K
  /-- A tier locator is there. -/
  locator : Bool
  t0 : K
  task : Option ℕ
  lastEnd : Option K
  exploreS : K
  startedAt : Option K
  rejectionsSeen : ℕ
  lastRejectionAt : WithBot K
  reference : Option (LengthSummary K)
  drainingSince : Option K
  pending : Option (Kind × Trigger)
  /-- Point ↦ the highest per-group rate confirmed. -/
  verified : Dict ClockPoint K

def CanaryScheduler.fresh (settings : SchedulerSettings K) (theta : K) (locator : Bool) (t0 : K) (rejections : ℕ) :
    CanaryScheduler K where
  settings := settings
  theta := theta
  locator := locator
  t0 := t0
  task := none
  lastEnd := none
  exploreS := 0
  startedAt := none
  rejectionsSeen := rejections
  lastRejectionAt := ⊥
  reference := none
  drainingSince := none
  pending := none
  verified := ∅

/-! ### Clock agents -/

/-- The GPUs of one pair: the clocks in force, the commands sent so far, and for each GPU whether its agent
    acknowledged the commands it is through with. Every agent works in the order of the commands. -/
structure GpuPair where
  inForce : ClockPoint
  sent : List ClockPoint
  prefillDone : List Bool
  decodeDone : List Bool

namespace GpuPair

def fresh (inForce : ClockPoint) : GpuPair := ⟨inForce, [], [], []⟩

/-- Whether both agents acknowledged a call's commands; `none` while one of them is not through. -/
def answer (p : GpuPair) (call : ℕ) : Option Bool :=
  match p.prefillDone[call]?, p.decodeDone[call]? with
  | some a, some b => some (a && b)
  | _, _ => none

/-- P's agent is through with its next command: `applied` or not, acknowledged or failed. -/
def prefillStep (p : GpuPair) (applied acked : Bool) : Option GpuPair :=
  if acked && !applied then none
  else
    p.sent[p.prefillDone.length]?.map fun point => { p with
      inForce := if applied then { p.inForce with prefillMhz := point.prefillMhz } else p.inForce
      prefillDone := p.prefillDone ++ [acked] }

def decodeStep (p : GpuPair) (applied acked : Bool) : Option GpuPair :=
  if acked && !applied then none
  else
    p.sent[p.decodeDone.length]?.map fun point => { p with
      inForce := if applied then { p.inForce with decodeMhz := point.decodeMhz } else p.inForce
      decodeDone := p.decodeDone ++ [acked] }

end GpuPair

/-! ### The runtime -/

/-- What happened: the Controller's verdicts and decisions, and what became of the Canary. -/
inductive Event (K : Type) (n : ℕ)
  /-- A tick at `at_` saw pressure or not, in evidence since the two times, and no safe D or not. -/
  | verdict (at_ : K) (pressure exhausted : Bool) (since admittedSince : WithBot K)
  /-- Confirmed pressure, or a redirect, changed what serves; the grace starts now. -/
  | expand (at_ : K)
  | redirect (at_ : K)
  | expanded (at_ : K)
  /-- Full effort is newly entered. -/
  | fullEffort (at_ : K) (reason : EffortReason)
  /-- An experiment starts on the Canary, by an earlier claim or by one of this step. -/
  | experiment (earlier : Bool) (state : GroupState) (nInflight : ℤ)
  /-- Its measuring phase is over. -/
  | measured
  /-- Both nodes of the Canary were found idle. -/
  | quiesced
  /-- A group that was chosen before an await is woken or drained; its state at that moment. -/
  | taken (state : GroupState)
  /-- A failed lock is tried again, in full effort or not. -/
  | retried (fullEffort : Bool) (tier : Tier)
  deriving DecidableEq

structure System (K : Type) [Scalar K] (n : ℕ) where
  router : Router K n
  controller : Controller K n
  canary : CanaryScheduler K
  pairs : Fin n → GpuPair
  trace : List (Event K n)

namespace System

def tell (s : System K n) (e : Event K n) : System K n := { s with trace := s.trace ++ [e] }

/-- A group's record changes. -/
def setGroup (s : System K n) (g : Fin n) (f : Group K → Group K) : System K n :=
  { s with router := s.router.setGroup g f }

def setState (s : System K n) (g : Fin n) (state : GroupState) : System K n :=
  s.setGroup g fun x => { x with state }

/-- The clocks are the Router's own. -/
def now (s : System K n) : K := s.router.now

def group (s : System K n) (g : Fin n) : Group K := s.router.groups g

/-- The Canary's position. -/
def canaryGroup (s : System K n) : Option (Fin n) := (List.finRange n).find? fun g => (s.group g).canary

end System
end CanaTune

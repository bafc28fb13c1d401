import CanaTune.Controller.Tick

/-! The runtime: its tasks, and everything around them that acts between two awaits. -/

namespace CanaTune
variable {K : Type} [Scalar K] {n : ℕ}

open Prog

/-! ### Tasks -/

/-- A bad round must not stop the loop. -/
def guarded (p : Prog K n Unit) : Prog K n Unit := p.handle fun e => if e = .error then pure () else Co.raise e

def System.clearPressureEvent (s : System K n) : System K n :=
  { s with router := { s.router with production := { s.router.production with pressureEvent := false } } }

/-- A pause ends with the period, or at once when pressure is signalled. -/
def controllerLoop : ℕ → Prog K n Unit
  | 0 => pure ()
  | ticks + 1 => do
    modify fun s => s.clearPressureEvent
    guarded tick
    pause
    controllerLoop ticks

def schedulerLoop : ℕ → Prog K n Unit
  | 0 => pure ()
  | steps + 1 => do
    guarded schedulerStep
    pause
    schedulerLoop steps

/-- Without a locator the Canary serves like any production group. -/
def serveCanary : Prog K n Unit := do
  let s ← get
  match s.canaryGroup with
  | none => pure ()
  | some g =>
    if !s.canary.locator ∧ s.exploring g then do
      modify fun s => s.setState g .active
      setTier g .max
    else pure ()

def runtimeMain (ticks steps : ℕ) : Prog K n Unit := do
  start
  serveCanary
  let _ ← spawn (.controller ticks)
  let _ ← spawn (.scheduler steps)

def code (id : ℕ) : Label n → Prog K n Unit
  | .runtime ticks steps => runtimeMain ticks steps
  | .controller ticks => controllerLoop ticks
  | .scheduler steps => schedulerLoop steps
  | .change g => setTier g .max
  | .experiment kind _ => experiment id kind

/-! ### Around the tasks -/

inductive Outside (K : Type) (n : ℕ)
  | clock (now : K)
  | telemetry (latest : Fin n → Option (EndpointSnapshot K))
  | newWaiter
  | attempt (waiter tokens : ℕ) (exact : Bool) (waitedMs : K)
  | release (waiter : ℕ)
  | prefillDone (ticket : ℕ)
  | firstToken (ticket : ℕ)
  | tokenProgress (ticket : ℕ) (tpotMs : Option K)
  | finish (ticket : ℕ) (ok : Bool) (ttftMs tpotMs : Option K) (outputTokens : ℕ)
  /-- P's or D's agent is through with a lock command. -/
  | prefillGpu (g : Fin n) (applied acked : Bool)
  | decodeGpu (g : Fin n) (applied acked : Bool)
  /-- A lock reports how long the change took. -/
  | switched (seconds : K)
  | request (kind : Kind)
  | abort

/-- What a request, its proxy or the telemetry does to the Router. -/
def routerActs (r : Router K n) : Outside K n → Option (Router K n)
  | .clock now => if r.now ≤ now then some { r with now } else none
  | .telemetry latest => r.telemetry.map fun _ => { r with telemetry := some ⟨latest⟩ }
  | .newWaiter => some r.newWaiter.2
  | .attempt waiter tokens exact waitedMs =>
    match r.step waiter tokens exact waitedMs with
    | .ok (_, r) => some r
    | .error _ => none
  | .release waiter => some (r.release waiter)
  | .prefillDone ticket => some (r.prefillDone ticket)
  | .firstToken ticket => some (r.firstToken ticket)
  | .tokenProgress ticket tpotMs => some (r.tokenProgress ticket tpotMs)
  | .finish ticket ok ttftMs tpotMs outputTokens => some (r.finish ticket ok ttftMs tpotMs outputTokens)
  | _ => none

def GpuPair.act (p : GpuPair) (prefill applied acked : Bool) : Option GpuPair :=
  if prefill then p.prefillStep applied acked else p.decodeStep applied acked

def System.gpuActs (s : System K n) (g : Fin n) (prefill applied acked : Bool) : Option (System K n) :=
  ((s.pairs g).act prefill applied acked).map fun pair => { s with pairs := Function.update s.pairs g pair }

def System.noteSwitch (s : System K n) (seconds : K) : System K n :=
  { s with controller := { s.controller with switchS := max s.controller.switchS seconds } }

def outside (e : Outside K n) (w : Runtime K n) : Option (Runtime K n) :=
  match e with
  | .prefillGpu g applied acked => (w.state.gpuActs g true applied acked).map fun state => { w with state }
  | .decodeGpu g applied acked => (w.state.gpuActs g false applied acked).map fun state => { w with state }
  | .switched seconds => some (w.map fun s => s.noteSwitch seconds)
  | .request kind => some (request w kind)
  | .abort => some (CanaTune.abort w).2
  | e => (routerActs w.state.router e).map fun router => w.map fun s => { s with router }

/-- A lock is answered once both agents are through with its commands, a join once its tasks are over; what
    talks to services may fail. -/
def answers (w : Runtime K n) : (op : Op n) → Except Exn (Op.Ans K op) → Bool
  | .lock g call, .ok acked => decide ((w.state.pairs g).answer call = some (show Bool from acked))
  | .join tasks, .ok _ => tasks.all fun t => w.isOver t
  | .sleep, .ok _ => true
  | .readings, .ok _ => true
  | .pause, .ok _ => true
  | .quiesce, .ok _ => true
  | .quiesce, .error e => decide (e = .error)
  | .locate, .ok _ => true
  | .locate, .error e => decide (e = .error)
  | .recheck, .ok _ => true
  | .recheck, .error e => decide (e = .error)
  | .verify, .ok _ => true
  | .verify, .error e => decide (e = .error)
  | _, .error _ => false

def runtime : Loop (Label n) (System K n) (Op n) (Op.Ans K) Exn (Outside K n) where
  code := code
  outside := outside
  answers := answers
  stopped := .cancelled

/-- A pool that begins with one task. -/
def boot (s : System K n) (label : Label n) : Pool (Label n) (System K n) (Op n) (Op.Ans K) Exn :=
  ⟨⟨s, ⟨[label], [0], [], []⟩⟩, fun _ => none⟩

/-- The system as it is built: every group parked, the Router before its first request. -/
structure Built (s : System K n) : Prop where
  groups : ∀ g, s.group g = { Group.fresh (decide (g.val = 0)) with state := .park, tier := .park }
  tickets : s.router.tickets = []
  controller : s.controller = .fresh s.controller.settings s.controller.agents
  fullEffort : s.router.fullEffort = false
  pending : s.canary.pending = none
  task : s.canary.task = none
  trace : s.trace = []

section Small

/-- Settings of the worked runs: the defaults, with the solver on. -/
def smallControl : ControllerSettings ℚ where
  periodS := 1
  loadWindowS := 10
  tDownS := 30
  minActiveGroups := 1
  staggerS := 2
  energyLogPeriodS := 5
  burstWindowS := 120
  burstBucketS := 10
  switchGain := 2 / 100
  feedbackWindowS := 10
  feedbackMinSamples := 5
  feedbackNearSlo := 9 / 10
  confirmS := 2
  expansionGraceS := 3
  solver := true
  fullEffortRouting := .baseline
  confirmWindowS := 10
  confirmFraction := 6 / 10
  dTriggerCount := 5
  dTriggerWindowS := 3
  fullEffortMinS := 30
  exitRateFraction := 8 / 10
  productionClocks := .canary
  redirect := true
  feedbackWindowS_pos := by decide +kernel
  feedbackMinSamples_pos := by decide
  feedbackNearSlo_pos := by decide +kernel
  feedbackNearSlo_le := by decide +kernel
  confirmS_nonneg := by decide +kernel
  expansionGraceS_nonneg := by decide +kernel
  confirmWindowS_pos := by decide +kernel
  confirmFraction_pos := by decide +kernel
  confirmFraction_le := by decide +kernel
  dTriggerCount_pos := by decide
  dTriggerWindowS_pos := by decide +kernel
  fullEffortMinS_nonneg := by decide +kernel
  exitRateFraction_pos := by decide +kernel
  exitRateFraction_le := by decide +kernel

def smallScheduler : SchedulerSettings ℚ := ⟨1, 60, 600, 1 / 10, 1800, 3 / 10, 200, 30⟩

/-- A Router with its Controller and scheduler, every GPU at its lowest clocks. -/
def smallSystem (r : Router ℚ n) : System ℚ n where
  router := r
  controller := .fresh smallControl 1
  canary := .fresh smallScheduler (1 / 10) true r.now r.pressure
  pairs := fun _ => .fresh ⟨600, 600⟩
  trace := []

/-- Every lock is acknowledged, and the locator has no answer. -/
def obliging : (op : Op n) → Except Exn (Op.Ans ℚ op)
  | .lock _ _ => .ok true
  | .verify => .ok true
  | .sleep => .ok ()
  | .readings => .ok ()
  | .join _ => .ok ()
  | .quiesce => .ok ()
  | .pause => .ok ()
  | .locate => .error .error
  | .recheck => .error .error

end Small
end CanaTune

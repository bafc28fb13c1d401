import CanaTune.Controller.State

/-! Clock changes, the lifecycle of the groups, and the solver over the published model. -/

namespace CanaTune
variable {K : Type} [Scalar K] {n : ℕ}

/-! ### Coroutines of the runtime -/

/-- What a coroutine awaits. -/
inductive Op (n : ℕ)
  /-- Both lock commands of a clock change. -/
  | lock (g : Fin n) (call : ℕ)
  | sleep
  /-- Energy readings of one agent. -/
  | readings
  | join (tasks : List ℕ)
  /-- Both vLLM nodes of the Canary are idle. -/
  | quiesce
  | locate
  | recheck
  | verify
  /-- The pause of a control loop. -/
  | pause

def Op.Ans (K : Type) [Scalar K] : Op n → Type
  | .lock _ _ => Bool
  | .locate => TierTable K
  | .recheck => TierTable K
  | .verify => Bool
  | _ => Unit

inductive Exn
  | cancelled
  | error
  deriving DecidableEq

/-- The tasks. The two control loops run for a number of rounds. -/
inductive Label (n : ℕ)
  | runtime (ticks steps : ℕ)
  | controller (ticks : ℕ)
  | scheduler (steps : ℕ)
  /-- One clock change of full effort. -/
  | change (g : Fin n)
  | experiment (kind : Kind) (reason : Trigger)
  deriving DecidableEq

abbrev Runtime (K : Type) [Scalar K] (n : ℕ) := World (Label n) (System K n)

abbrev Prog (K : Type) [Scalar K] (n : ℕ) := Co (Runtime K n) (Op n) (Op.Ans K) Exn

namespace Prog
variable {α : Type}

def get : Prog K n (System K n) := Co.act id fun w => Co.ret w.state

def modify (f : System K n → System K n) : Prog K n Unit := Co.update (World.map f)

/-- Reads and writes the system at once. -/
def step (f : System K n → α × System K n) : Prog K n α := Co.act (World.map fun s => (f s).2) fun w => Co.ret (f w.state).1

/-- A computation of the model may raise. -/
def ofModel (r : Except ModelError α) : Prog K n α :=
  match r with
  | .ok a => Co.ret a
  | .error _ => Co.fail .error

def spawn (l : Label n) : Prog K n ℕ := Co.atomic fun w => (w.tasks.labels.length, w.spawn l)

/-! The awaits. -/

def lock (g : Fin n) (call : ℕ) : Prog K n Bool := Co.call (Op.lock g call)
def sleep : Prog K n Unit := Co.call Op.sleep
def readings : Prog K n Unit := Co.call Op.readings
def join (tasks : List ℕ) : Prog K n Unit := Co.call (Op.join tasks)
def quiesce : Prog K n Unit := Co.call Op.quiesce
def locate : Prog K n (TierTable K) := Co.call Op.locate
def recheck : Prog K n (TierTable K) := Co.call Op.recheck
def verifyPoint : Prog K n Bool := Co.call Op.verify
def pause : Prog K n Unit := Co.call Op.pause

end Prog

/-! ### Clock changes -/

/-- What a clock change keeps across its await. -/
structure Call where
  old : Option ClockPoint
  target : ClockPoint
  index : ℕ

namespace System

/-- The clocks of a tier; tier H of the ablation runs at MAX. `none`: no such tier is published. -/
def target (s : System K n) (tier : Tier) : Option ClockPoint :=
  if tier = .h ∧ s.controller.settings.productionClocks = .max then s.router.tiers.clocks .max
  else s.router.tiers.clocks tier

def bumpEpoch (s : System K n) (g : Fin n) : System K n :=
  { s with router := { s.router with
      clockEpochs := Function.update s.router.clockEpochs g (s.router.clockEpochs g + 1) } }

/-- Up to the locks: the Router sees the conservative point meanwhile. -/
def beginTier (s : System K n) (g : Fin n) (tier : Tier) (target : ClockPoint) : Call × System K n :=
  let old := (s.group g).effective
  let effective := if tier = .park then none else old.map fun o => slower o target
  (⟨old, target, (s.pairs g).sent.length⟩,
    { (s.bumpEpoch g).setGroup g fun x => { x with tier, effective } with
      pairs := Function.update s.pairs g { s.pairs g with sent := (s.pairs g).sent ++ [target] } })

/-- The next retry of a failed lock: the delay doubles from half a period up to `tDownS`. -/
def backOff (s : System K n) (g : Fin n) : K × K :=
  let delay := min (2 * ((s.controller.retry g).map (·.2)).getD (s.controller.settings.periodS / 2))
    s.controller.settings.tDownS
  (s.now + delay, delay)

def setRetry (s : System K n) (g : Fin n) (retry : Option (K × K)) : System K n :=
  { s with controller := { s.controller with retry := Function.update s.controller.retry g retry } }

/-- After the locks, unless the tier changed meanwhile. On failure the conservative point stays. -/
def settleTier (s : System K n) (g : Fin n) (tier : Tier) (call : Call) (ok : Bool) : System K n :=
  let s := if (s.group g).tier = tier then s.setRetry g (if ok then none else some (s.backOff g)) else s
  let s :=
    if tier ≠ .park ∧ (s.group g).tier = tier then
      if ok then s.setGroup g fun x => { x with effective := some call.target }
      else
        match call.old with
        | some old => s.setGroup g fun x => { x with effective := some (slower old call.target) }
        | none => s
    else s
  s.bumpEpoch g

end System

open Prog

/-- Lock P and D to `tier`. -/
def setTier (g : Fin n) (tier : Tier) : Prog K n Unit := do
  let s ← get
  match s.target tier with
  | none => Co.raise .error
  | some point =>
    let call ← step fun s => s.beginTier g tier point
    let ok ← lock g call.index
    modify fun s => s.settleTier g tier call ok

/-! ### Lifecycle -/

namespace System

/-- Every group, production first. -/
def productionFirst (s : System K n) (groups : List (Fin n)) : List (Fin n) :=
  groups.filter (fun g => !(s.group g).canary) ++ groups.filter fun g => (s.group g).canary

/-- A new table; the solver chooses again on its model. -/
def adopt (s : System K n) (table : TierTable K) : System K n :=
  { s with
    router := { s.router with tiers := { s.router.tiers with table := some table, working := none } }
    controller := { s.controller with target := none, targetSince := none } }

/-- The tier a published group moves to, unless it is there. -/
def publishTier (s : System K n) (g : Fin n) : Option Tier :=
  let tier : Tier := if s.controller.fullEffort then .max else .h
  if (s.group g).state ≠ .active ∨ (s.group g).effective = s.router.tiers.clocks tier then none else some tier

/-- The parked group that is woken first. -/
def parked (s : System K n) : Option (Fin n) :=
  (s.productionFirst ((List.finRange n).filter fun g => (s.group g).state = .park)).head?

end System

/-- Production active, at MAX on a cold start and at H with a stored table; on a cold start the locator drives the
    Canary's clocks. -/
def start : Prog K n Unit := do
  let s ← get
  let cold := s.router.tiers.table.isNone
  Co.each (s.productionFirst (List.finRange n)) fun g =>
    if (s.group g).canary && cold then modify fun s => s.setState g .exploring
    else do
      modify fun s => s.setState g .active
      setTier g (if cold then .max else .h)

/-- Active groups move to the new table one at a time. -/
def publish (table : TierTable K) : Prog K n Unit := do
  modify fun s => s.adopt table
  Co.each (List.finRange n) fun g => do
    let s ← get
    match s.publishTier g with
    | none => pure ()
    | some tier =>
      setTier g tier
      sleep

def wake : Prog K n (Option (Fin n)) := do
  let s ← get
  match s.parked with
  | none => pure none
  | some g =>
    modify fun s => s.setState g .active
    setTier g .h
    pure (some g)

/-! ### Solver -/

namespace System

/-- Seed and production counts of every bucket, the lowest first. -/
def mergedCounts (slack : SlackRisk K) : Dict ℕ (ℕ × ℕ) :=
  slack.counts.sorted.foldl (fun (d : Dict ℕ (ℕ × ℕ)) e =>
    let old := (d.lookup e.1).getD (0, 0)
    d.insert e.1 (old.1 + e.2.1, old.2 + e.2.2)) (Dict.ofList slack.seed.sorted)

/-- The published model, with the Router's own predictor and counts when the Canary fitted a predictor. -/
def solverModel (s : System K n) : Option (ClusterModel K) × System K n :=
  if s.controller.settings.solver then
    match s.router.tiers.modelJson with
    | none => (none, s)
    | some m =>
      match m.predictorCoef with
      | none => (some m, s)
      | some _ =>
        let router := s.router.applyTable
        (some { m with
          predictorCoef := some router.learned.predictor.coef
          slackCounts := some (mergedCounts router.learned.slack) }, { s with router })
  else (none, s)

def solverKey (s : System K n) (m : ClusterModel K) : SolverKey K where
  publishedAt := ((s.router.tiers.table.map (·.publishedAt)).getD 0)
  caps := m.caps.items
  predictorCoef := m.predictorCoef
  slackCounts := m.slackCounts.map (·.items)

/-- Rebuilt when a table is published, the Canary capped a point, or the Router learned more. -/
def solver (s : System K n) : Option (Solver K) × System K n :=
  let (model, s) := s.solverModel
  let key := model.map s.solverKey
  if key = s.controller.solverKey then (s.controller.solver, s)
  else
    let solver := model.map fun m => Solver.build m n
    (solver, { s with controller := { s.controller with solverKey := key, solver } })

/-! ### Demand -/

def offered (s : System K n) (now windowS bucketS : K) : (K × K) × System K n :=
  let (answer, router) := s.router.offered now windowS bucketS
  (answer, { s with router })

/-- Offered requests/s, and the recent (prompt, output) lengths. -/
def demand (s : System K n) (now : K) : (K × List (ℕ × ℕ)) × System K n :=
  let c := s.controller.settings
  let ((rate, _), s) := s.offered now c.loadWindowS c.burstBucketS
  let (rate, s) : K × System K n :=
    -- Bursts count before the long window fills.
    if s.router.settings.overload = .bestEffort then
      let ((recent, _), s) := s.offered now (max c.periodS 1) (max c.periodS 1)
      (max rate recent, s)
    else (rate, s)
  let (_, s) := s.offered now c.burstWindowS c.burstBucketS
  ((rate, ((s.router.lengths.map (·.pairs)).getD [])), s)

/-- The clock point of tier H; a table always has one. -/
def workingPoint (s : System K n) : ClockPoint := (s.router.tiers.clocks .h).getD s.router.tiers.maxPoint

/-- Would `groups` groups at the working point carry the current demand? -/
def canCarry (s : System K n) (groups : ℕ) (now : K) : Except ModelError Bool × System K n :=
  match s.solver with
  | (none, s) => (.ok false, s)
  | (some solver, s) =>
    if groups < 1 then (.ok false, s)
    else
      let ((rate, lengths), s) := s.demand now
      if rate ≤ 0 then (.ok true, s)
      else if lengths = [] then (.ok false, s)
      else
        let peak := (s.controller.demand.map (·.2)).foldl max rate
        ((solver.evaluate peak lengths groups s.workingPoint).map (·.feasible), s)

end System
end CanaTune

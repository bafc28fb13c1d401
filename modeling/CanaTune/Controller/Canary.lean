import CanaTune.Controller.Feedback

/-! Canary scheduler: when an experiment starts, how it is stopped and how the Canary is taken back. -/

namespace CanaTune
variable {K : Type} [Scalar K] {n : ℕ}

/-! ### Conditions -/

namespace System

def tableSome (s : System K n) : Bool := s.router.tiers.table.isSome

/-- Rejections and overflows push the last quiet moment. -/
def noteRejections (s : System K n) : System K n :=
  if s.router.pressure = s.canary.rejectionsSeen then s
  else { s with canary := { s.canary with
    rejectionsSeen := s.router.pressure, lastRejectionAt := (s.now : WithBot K) } }

/-- Per-group rate of a plan. -/
def planRate (plan : Evaluation K) (rate : K) : K := plan.rates.max?.getD (rate / (max plan.n 1 : ℕ))

/-- The plan's point and per-group rate, when the Canary has not seen that point feasible at that rate. -/
def unverified (s : System K n) : Option (ClockPoint × K) × System K n :=
  match s.controller.plan with
  | none => (none, s)
  | some plan =>
    if !plan.feasible then (none, s)
    else
      let ((rate, _), s) := s.demand s.now
      let perGroup := planRate plan rate
      if perGroup ≤ (s.canary.verified.lookup plan.point).getD 0 then (none, s) else (some (plan.point, perGroup), s)

/-- Production really violates more than theta: the lower confidence bound is above it. -/
def drifted (s : System K n) : Bool :=
  let outcomes := s.router.learned.outcomes
  let k := outcomes.countP (· = true)
  decide (s.canary.settings.driftMinSamples ≤ outcomes.length) &&
    (decide (s.canary.theta < (k : K) / outcomes.length) &&
      decide (s.canary.theta < 1 - wilsonUcb ((outcomes.length : ℤ) - k) outcomes.length wilsonZ))

def trigger (s : System K n) : Option (Kind × Trigger) × System K n :=
  if !s.tableSome then (some (.full, .coldStart), s)
  else if s.controller.settings.solver && s.router.tiers.modelJson.isNone then (some (.full, .noModel), s)
  else
    let shifted := match s.canary.reference, s.router.lengths with
      | some reference, some lengths =>
        !lengths.usingDefault && (lengths.summary : LengthSummary K).shifted reference s.canary.settings.lengthShift
      | _, _ => false
    if shifted then (some (.verify, .lengthShift), s)
    else
      let (point, s) := s.unverified
      if point.isSome then (some (.verify, .plan), s)
      else if s.drifted then (some (.relocate, .violationDrift), s)
      else if s.canary.settings.periodicS ≤ s.now - s.canary.lastEnd.getD s.canary.t0 then
        (some (.recheck, .periodic), s)
      else (none, s)

/-- The rest of the pool can carry production, and the budget allows an experiment. -/
def mayStart (s : System K n) : Except ModelError Bool × System K n :=
  let c := s.canary
  if s.controller.mode ≠ .energy then (.ok false, s)
  -- Cold start claims the Canary before its first run.
  else if (s.canaryGroup.any fun g => decide ((s.group g).state = .exploring)) ∧ c.task.isSome then (.ok false, s)
  else if !s.tableSome then
    (.ok (c.lastEnd.all fun t => decide (c.settings.quietS ≤ s.now - t)), s)
  else if c.lastEnd.any fun t => decide (s.now - t < c.settings.minIntervalS) then (.ok false, s)
  else if c.settings.maxDuty < c.exploreS / max (s.now - c.t0) 1 then (.ok false, s)
  else if ((s.now - c.settings.quietS : K) : WithBot K) < c.lastRejectionAt then (.ok false, s)
  else
    match s.canaryGroup with
    | none => (.ok false, s)
    | some canary =>
      let others := (List.finRange n).filter fun g =>
        g ≠ canary ∧ (s.group g).state = .active ∧ (s.group g).effective.isSome
      if others = [] then (.ok false, s)
      else
        let now := s.now
        let (solver, s) := s.solver
        if solver.isNone then (.ok true, s) else s.canCarry others.length now

/-- The Canary is claimed: no new production requests. -/
def claim (s : System K n) (kind : Kind) (reason : Trigger) : System K n :=
  match s.canaryGroup with
  | none => s
  | some g =>
    if !s.canary.locator then s
    else
      let s := { s with canary := { s.canary with pending := some (kind, reason) } }
      if (s.group g).state = .active then
        { s.setState g .draining with canary := { s.canary with drainingSince := some s.now } }
      else s

end System

/-! ### Control -/

/-- An experiment runs. -/
def running (w : Runtime K n) : Bool := w.state.canary.task.any fun t => !w.isOver t

/-- A running experiment is asked to stop. -/
def stopExperiment (w : Runtime K n) : Bool × Runtime K n :=
  match w.state.canary.task with
  | some t => if w.isOver t then (false, w) else (true, w.stop t)
  | none => (false, w)

/-- A claim is given up: a Canary that drains for it serves on. -/
def System.unclaim (s : System K n) : System K n :=
  let s := { s with canary := { s.canary with pending := none } }
  match s.canaryGroup with
  | some g => if (s.group g).state = .draining then s.setState g .active else s
  | none => s

/-- An experiment that runs or is about to start is stopped; production keeps the Canary. -/
def abort (w : Runtime K n) : Bool × Runtime K n :=
  if !w.state.tableSome ∧ w.state.router.settings.overload ≠ .bestEffort then (false, w)
  else
    let (stopped, w) := stopExperiment w
    if w.state.canary.pending.isNone then (stopped, w) else (true, w.map System.unclaim)

/-- Manual start; the start conditions still apply. -/
def request (w : Runtime K n) (kind : Kind) : Runtime K n :=
  if running w ∨ w.state.canary.pending.isSome then w
  else
    match w.state.mayStart with
    | (.ok true, s) => { w with state := s.claim kind .api }
    | (_, s) => { w with state := s }

namespace System

def dropPending (s : System K n) : System K n := { s with canary := { s.canary with pending := none } }

def exploring (s : System K n) (g : Fin n) : Bool := decide ((s.group g).state = .exploring)

/-- The Canary serves again, once the Controller has confirmed its clocks. -/
def release (s : System K n) (g : Fin n) : System K n :=
  s.setGroup g fun x => { x with state := .active, effective := none }

end System

open Prog

/-- A running experiment is stopped and its cleanup joined. `me`: the calling experiment. -/
def joinExperiment (me : Option ℕ) : Prog K n Unit := do
  let w ← Co.read
  match w.state.canary.task with
  | none => pure ()
  | some t =>
    if running w ∧ me ≠ some t then do
      Co.update fun w => w.stop t
      join [t]
    else pure ()

/-- The Canary is confirmed drained before it serves. -/
def takeBack (g : Fin n) : Prog K n Unit := do
  let s ← get
  if s.exploring g then do
    if s.canary.locator then do
      quiesce
      modify fun s => (s.tell .quiesced).release g
    else modify fun s => s.release g
  else pure ()

/-- Join experiment cleanup, then take the Canary back. -/
def reclaim (me : Option ℕ) : Prog K n Unit := do
  joinExperiment me
  modify fun s => s.dropPending
  let s ← get
  match s.canaryGroup with
  | none => pure ()
  | some g => takeBack g

/-! ### An experiment -/

namespace System

/-- What a verification is about: an unconfirmed rate of the plan, or after a length shift the plan as it is. -/
def verifyTarget (s : System K n) : Option (ClockPoint × K) × System K n :=
  match s.unverified with
  | (some target, s) => (some target, s)
  | (none, s) =>
    match s.controller.plan with
    | none => (none, s)
    | some plan =>
      let ((rate, _), s) := s.demand s.now
      (some (plan.point, planRate plan rate), s)

/-- A failed point is capped below its rate in the published model. -/
def capModel (table : TierTable K) (point : ClockPoint) (rate : K) : TierTable K :=
  let cap (m : ClusterModel K) : ClusterModel K :=
    { m with caps := m.caps.insert point (min ((m.caps.lookup point).getD rate) rate) }
  { table with evidence := { table.evidence with model := table.evidence.model.map cap } }

def capPoint (s : System K n) (point : ClockPoint) (rate : K) : System K n :=
  let tiers := { s.router.tiers with table := s.router.tiers.table.map fun t => capModel t point rate }
  { s with router := { s.router with tiers } }

def confirmPoint (s : System K n) (point : ClockPoint) (rate : K) : System K n :=
  { s with canary := { s.canary with
    verified := s.canary.verified.insert point (max ((s.canary.verified.lookup point).getD 0) rate) } }

def setReference (s : System K n) (reference : Option (LengthSummary K)) : System K n :=
  { s with canary := { s.canary with reference } }

/-- Production starts afresh with the new table. -/
def clearOutcomes (s : System K n) : System K n :=
  { s with router := { s.router with learned := { s.router.learned with outcomes := [] } } }

/-- The fill windows confirmed H up to its capacity. -/
def startVerified (s : System K n) (table : TierTable K) : System K n :=
  let verified : Dict ClockPoint K := match table.evidence.capacityRps with
    | some c => if c = 0 then ∅ else (∅ : Dict ClockPoint K).insert table.h c
    | none => ∅
  { s with canary := { s.canary with verified } }

/-- An experiment is over; a start at clock time 0 is none. -/
def closeExperiment (s : System K n) : System K n :=
  { s with canary := { s.canary with
    exploreS := s.canary.exploreS + (s.now - (s.canary.startedAt.filter (· ≠ 0)).getD s.now)
    lastEnd := some s.now } }.tell .measured

/-- The tier the Canary returns to. -/
def returnTier (s : System K n) : Tier := if s.tableSome && !s.router.fullEffort then .h else .max

end System

/-- The plan's point at its per-group rate, at the current length mix. -/
def verify : Prog K n Unit := do
  let target ← step fun s => s.verifyTarget
  match target with
  | none => pure ()
  | some (point, rate) =>
    let ok ← verifyPoint
    modify fun s => if ok then s.confirmPoint point rate else s.capPoint point rate

/-- What an experiment measures, and publishes. -/
def measure (kind : Kind) : Prog K n Unit := do
  let s ← get
  let summary := s.router.lengths.map (·.summary)
  if kind = .verify ∧ s.tableSome then do
    verify
    modify fun s => s.setReference summary
  else do
    let table ← if kind = .recheck ∧ s.tableSome then recheck else locate
    modify fun s => (s.setReference summary).clearOutcomes
    publish table
    modify fun s => s.startVerified table

/-- The Canary goes back to production, unless full effort takes care of it. -/
def giveBack (me : ℕ) : Prog K n Unit := do
  let s ← get
  match s.canaryGroup with
  | none => pure ()
  | some g =>
    if s.router.fullEffort then pure ()
    else do
      let result ← (reclaim (some me)).attempt
      match result with
      | .error .cancelled => Co.raise .cancelled
      | .error .error => pure ()
      | .ok _ =>
        let s ← get
        setTier g s.returnTier

/-- Probes hit real services: nothing they raise leaves the experiment. -/
def experiment (me : ℕ) (kind : Kind) : Prog K n Unit :=
  ((measure kind).handle fun _ => pure ()).ensure do
    modify fun s => s.closeExperiment
    giveBack me

/-! ### One scheduler step -/

/-- The claim an experiment needs: an earlier one, or a new one. `none`: nothing to start. -/
def System.claimStep (s : System K n) : Except ModelError (Option Bool) × System K n :=
  if s.canary.pending.isSome then (.ok (some true), s)
  else
    match s.trigger with
    | (none, s) => (.ok none, s)
    | (some (kind, reason), s) =>
      match s.mayStart with
      | (.error e, s) => (.error e, s)
      | (.ok false, s) => (.ok none, s)
      | (.ok true, s) => (.ok (some false), s.claim kind reason)

/-- A Canary that could not drain is given up this time. -/
def System.giveUp (s : System K n) (g : Fin n) : System K n :=
  let since := (s.canary.drainingSince.filter fun t => decide (t ≠ 0)).getD s.now
  if s.canary.settings.drainTimeoutS < s.now - since then (s.setState g .active).dropPending else s

/-- The claim is consumed and the experiment is created. -/
def System.beginExperiment (s : System K n) (g : Fin n) (task : ℕ) (earlier : Bool) : System K n :=
  { s.setState g .exploring with canary := { s.canary with
    pending := none, startedAt := some s.now, task := some task } }.tell
      (.experiment earlier (s.group g).state (s.group g).nInflight)

/-- Once the Canary has no production request in flight, the experiment starts. -/
def startExperiment (w : Runtime K n) (g : Fin n) (earlier : Bool) : Except Exn Unit × Runtime K n :=
  if (w.state.group g).state = .draining ∧ (w.state.group g).nInflight ≠ 0 then (.ok (), w.map fun s => s.giveUp g)
  else
    match w.state.canary.pending with
    | none => (.error .error, w)
    | some (kind, reason) =>
      (.ok (), (w.map fun s => s.beginExperiment g w.tasks.labels.length earlier).spawn (.experiment kind reason))

/-- A failed drain is retried before another experiment may start. -/
def retryDrain (g : Fin n) : Prog K n Unit := do
  let s ← get
  if s.canary.task.isSome ∧ s.exploring g then do
    reclaim none
    let s ← get
    if s.router.fullEffort then pure () else setTier g (if s.tableSome then .h else .max)
  else pure ()

def schedulerStep : Prog K n Unit := do
  modify fun s => s.noteRejections
  let w ← Co.read
  match w.state.canaryGroup with
  | none => pure ()
  | some g =>
    if !w.state.canary.locator ∨ running w then pure ()
    else do
      retryDrain g
      let claim ← step fun s => s.claimStep
      match claim with
      | .error _ => Co.raise .error
      | .ok none => pure ()
      | .ok (some earlier) =>
        let result ← Co.atomic fun w => startExperiment w g earlier
        Co.ofExcept result

end CanaTune

import CanaTune.Controller.Canary

/-! One control step. -/

namespace CanaTune
variable {K : Type} [Scalar K] {n : ℕ}

open Prog

/-! ### Expansion -/

namespace System

/-- The groups that serve now, and how many should: enough for the offered rate at the working point, at least
    one more. -/
def expansion (s : System K n) (now : K) : Except ModelError (List (Fin n) × List (Fin n) × ℕ) × System K n :=
  let active := (List.finRange n).filter fun g => (s.group g).routable
  let ((rate, mix), s) := s.demand now
  let (solver, s) := s.solver
  let capacity : Except ModelError K := match solver with
    | some solver => if mix = [] then .ok 0 else solver.capacity mix s.workingPoint
    | none =>
      match s.router.tiers.table with
      | some table =>
        if mix = [] then .ok 0
        else .ok (table.capacityH / ((mix.map fun e => (e.1 : K)).sum / mix.length + s.router.tiers.alphaTokens))
      | none => .ok 0
  let available := s.productionFirst ((List.finRange n).filter fun g => (s.group g).state ≠ .exploring)
  (capacity.map fun c =>
    let needed := if 0 < c then ⌈rate / c⌉.toNat else active.length + 1
    (active, available, min available.length (max (active.length + 1) needed)), s)

end System

/-- A group that was chosen before an await changes its state. -/
def System.take (s : System K n) (g : Fin n) (state : GroupState) : System K n :=
  (s.tell (.taken (s.group g).state)).setState g state

/-- Groups are woken one after the other until enough are routable. -/
def expandOver (needed : ℕ) : List (Fin n) → List (Fin n) → Prog K n Unit
  | _, [] => pure ()
  | active, g :: rest =>
    if needed ≤ active.length then pure ()
    else if g ∈ active then expandOver needed active rest
    else do
      modify fun s => s.take g .active
      let s ← get
      setTier g (if s.tableSome then .h else .max)
      let s ← get
      expandOver needed (if (s.group g).routable then active ++ [g] else active) rest

/-- Wake enough groups at the measured working point. -/
def expandCapacity (now : K) : Prog K n Unit := do
  let result ← step fun s => s.expansion now
  let (active, available, needed) ← ofModel result
  expandOver needed active available

/-! ### Full effort -/

namespace System

/-- The flags of full effort, set once. -/
def beginFullEffort (s : System K n) (reason : EffortReason) : System K n :=
  let c := s.controller.settings
  let now := s.now
  let s := { s with
    controller := { s.controller with
      fullEffort := true, fullEffortSince := (now : WithBot K), target := none, targetSince := none }
    router := { s.router with fullEffort := true, baselineMode := decide (c.fullEffortRouting = EffortRouting.baseline) } }
  let ((rate, _), s) := s.offered now c.loadWindowS c.burstBucketS
  { s with controller := { s.controller with fullEffortRate := rate } }.tell (.fullEffort now reason)

/-- Full effort is newly entered, or held. -/
def raise (s : System K n) (reason : EffortReason) : System K n :=
  let s := s.setMode .fullEffort
  let s := { s with controller := { s.controller with redirectedAt := none } }
  if s.controller.fullEffort then s else s.beginFullEffort reason

/-- Every group serves, an experiment's own excepted. -/
def activateAll (s : System K n) : System K n :=
  (List.finRange n).foldl (fun s g => if s.exploring g then s else s.setState g .active) s

/-- The serving groups that are not at MAX. -/
def belowMax (s : System K n) : List (Fin n) :=
  (List.finRange n).filter fun g => !s.exploring g && decide ((s.group g).tier ≠ .max)

end System

/-- Full effort begins: experiments are stopped. -/
def raiseEffort (reason : EffortReason) (w : Runtime K n) : Runtime K n :=
  let raised := w.map fun s => s.raise reason
  if w.state.controller.fullEffort then raised else (abort raised).2

/-- Every serving group changes to MAX; each change is a task of its own. -/
def raiseTiers (w : Runtime K n) : List ℕ × Runtime K n :=
  let w := w.map fun s => s.activateAll
  let changes := w.state.belowMax
  (List.range' w.tasks.labels.length changes.length, changes.foldl (fun w g => w.spawn (.change g)) w)

namespace System

/-- The Canary serves without confirmed MAX clocks. -/
def needsMax (s : System K n) (g : Fin n) : Bool :=
  (s.group g).canary && decide ((s.group g).state = .active) &&
    (decide ((s.group g).tier ≠ .max) || (s.group g).effective.isNone)

end System

def confirmCanary (g : Fin n) : Prog K n Unit := do
  let s ← get
  if s.needsMax g then setTier g .max else pure ()

/-- A Canary that does not drain remains with its experiment; the next tick retries. -/
def reclaimCanary : Prog K n Unit := do
  let result ← (reclaim none).attempt
  match result with
  | .error .cancelled => Co.raise .cancelled
  | .error .error => pure ()
  | .ok _ => Co.each (List.finRange n) confirmCanary

def enterFullEffort (reason : EffortReason) : Prog K n Unit := do
  Co.update (raiseEffort reason)
  let changes ← Co.atomic raiseTiers
  if changes = [] then pure () else join changes
  reclaimCanary

namespace System

/-- Full effort ends: no pressure for `tDownS`, the minimum time over, the load that needed it gone and no
    experiment or cold-start request left. -/
def mayLeave (s : System K n) (now : K) (f : Feedback K n) : Bool × System K n :=
  let c := s.controller
  if f.pressure ∨ ((now - c.settings.tDownS : K) : WithBot K) < c.pressureAt then (false, s)
  else if ((now - c.settings.fullEffortMinS : K) : WithBot K) < c.fullEffortSince then (false, s)
  else
    let ((rate, _), s) := s.offered now c.settings.loadWindowS c.settings.burstBucketS
    if c.settings.exitRateFraction * c.fullEffortRate < rate then (false, s)
    else if (List.finRange n).any fun g => s.exploring g then (false, s)
    else if !s.tableSome ∧ (List.finRange n).any fun g => decide ((s.group g).nInflight ≠ 0) then (false, s)
    else (true, s)

def endFullEffort (s : System K n) : System K n :=
  { s with
    controller := { s.controller with fullEffort := false, expandedAt := none, redirectedAt := none }
    router := { s.router with fullEffort := false, baselineMode := false } }

end System

def recover (g : Fin n) : Prog K n Unit := do
  let s ← get
  if (s.group g).state = .active ∧ s.tableSome then setTier g .h else pure ()

/-- A tick in full effort: retry what is not at MAX, or recover. -/
def holdFullEffort (now : K) (v : Verdict K n) : Prog K n Unit := do
  enterFullEffort .reclaimRetry
  let leave ← step fun s => s.mayLeave now v.feedback
  if leave then do
    modify fun s => s.endFullEffort
    Co.each (List.finRange n) recover
    modify fun s => s.setMode .energy
  else pure ()

/-! ### The feedback loop -/

namespace System

/-- The grace starts after the locks finish. -/
def endExpansion (s : System K n) : System K n :=
  { s with controller := { s.controller with expandedAt := some s.now, confirmSince := none } }.tell (.expanded s.now)

end System

def carryOut (now : K) : System.Decision → Prog K n Unit
  | .nothing => pure ()
  | .fullEffort reason => enterFullEffort reason
  | .expand => do
    expandCapacity now
    modify fun s => s.endExpansion

def feedbackControl (now : K) : Prog K n Unit := do
  let v ← step fun s => s.observe now
  let s ← get
  if s.controller.fullEffort then holdFullEffort now v
  else do
    let decision ← step fun s => match s.decision now v with
      | .ok (d, s) => (some d, s)
      | .error _ => (none, s)
    match decision with
    | none => Co.raise .error
    | some d => carryOut now d

/-! ### Plan -/

namespace System

/-- The demand of the last `tDownS`. -/
def noteDemand (s : System K n) (now rate : K) : System K n :=
  { s with controller := { s.controller with demand :=
    (s.controller.demand ++ [(now, rate)]).dropWhile fun e => decide (e.1 < now - s.controller.settings.tDownS) } }

/-- What the plan does. -/
structure PlanStep (n : ℕ) where
  target : ℕ
  point : ClockPoint
  active : List (Fin n)
  routable : List (Fin n)
  minimum : ℕ
  /-- The working point moves. -/
  moved : Bool

/-- A warning of the model alone never expands or enters MAX. -/
def warnCapacity (s : System K n) (now : K) : System K n :=
  if s.controller.mode = .energy then
    let s := { s with router := s.router.signalPressure }
    { s with controller := { s.controller with warningAt := (now : WithBot K) } }.setMode .warning
  else s

def setPlan (s : System K n) (now : K) (target : Evaluation K) : System K n :=
  let key := some (target.n, target.point)
  let c := { s.controller with plan := some target }
  { s with controller := if key = c.target then c else { c with target := key, targetSince := some now } }

/-- The lowest-power configuration for the peak demand, and whether to switch to it now. -/
def choosePlan (s : System K n) (now : K) : Except ModelError (Option (PlanStep n)) × System K n :=
  match s.solver with
  | (none, s) => (.ok none, s)
  | (some solver, s) =>
    let c := s.controller.settings
    let ((rate, lengths), s) := s.demand now
    if lengths = [] then (.ok none, s)
    else
      let serving := (List.finRange n).filter fun g => (s.group g).state = .active ∨ (s.group g).state = .park
      let s := s.noteDemand now rate
      let active := (List.finRange n).filter fun g => (s.group g).state = .active
      let routable := active.filter fun g => (s.group g).effective.isSome
      let point := s.workingPoint
      match solver.evaluate rate lengths (max routable.length 1) point with
      | .error e => (.error e, s)
      | .ok current =>
        let up := !current.feasible
        let peak := ((s.controller.demand.map (·.2)).max?).getD rate
        match solver.solve peak lengths c.minActiveGroups serving.length with
        | .error e => (.error e, s)
        | .ok target =>
          let s := s.setPlan now target
          let held := decide (c.tDownS ≤ now - s.controller.targetSince.getD now)
          let calm := decide (s.controller.pressureAt ≤ ((now - c.tDownS : K) : WithBot K))
          let saved := current.powerW - target.powerW
          let gain := decide (c.switchGain * current.powerW < saved) &&
            decide (2 * s.controller.switchS * max current.powerW target.powerW < saved * c.tDownS)
          if s.router.settings.overload = .bestEffort ∧ (!target.feasible ∨ up ∨ routable.length < target.n ∨
              point.prefillMhz < target.point.prefillMhz ∨ point.decodeMhz < target.point.decodeMhz) then
            (.ok none, s.warnCapacity now)
          else if (target.n, target.point) = (routable.length, point) then (.ok none, s)
          else if up ∨ (held ∧ calm ∧ gain) then
            (.ok (some ⟨target.n, target.point, active, routable, c.minActiveGroups, decide (target.point ≠ point)⟩),
              if target.point = point then s
              else { s with router := { s.router with tiers := { s.router.tiers with working := some target.point } } })
          else (.ok none, s)

/-- The Canary drains first, so it is free to explore; then the group with the fewest requests. -/
def victim (s : System K n) (active : List (Fin n)) : Option (Fin n) :=
  active.argmin fun g => toLex (!(s.group g).canary, toLex ((s.group g).nInflight, (s.group g).pendingMs))

end System

/-- A group at the old working point moves to the new one. -/
def followPoint (point : ClockPoint) (g : Fin n) : Prog K n Unit := do
  let s ← get
  if (s.group g).tier = .h ∧ (s.group g).effective ≠ some point then setTier g .h else pure ()

/-- Parked groups are woken while too few are routable. -/
def wakeUp (target : ℕ) : ℕ → List (Fin n) → List (Fin n) → Prog K n (List (Fin n) × List (Fin n))
  | 0, active, routable => pure (active, routable)
  | fuel + 1, active, routable =>
    if target ≤ routable.length then pure (active, routable)
    else do
      let woken ← wake
      match woken with
      | none => pure (active, routable)
      | some g => do
        let s ← get
        wakeUp target fuel (active ++ [g]) (if (s.group g).effective.isSome then routable ++ [g] else routable)

/-- The step of a plan: the clocks, then more groups, then one group fewer. -/
def follow (p : System.PlanStep n) : Prog K n Unit := do
  if p.moved then Co.each p.active (followPoint p.point) else pure ()
  -- There are at most `n` parked groups, so the last round finds none.
  let (active, routable) ← wakeUp p.target (n + 1) p.active p.routable
  if max p.target p.minimum < routable.length then
    modify fun s => (s.victim active).elim s fun g => s.take g .draining
  else pure ()

def plan (now : K) : Prog K n Unit := do
  let result ← step fun s => s.choosePlan now
  let p ← ofModel result
  match p with
  | none => pure ()
  | some p => follow p

/-! ### The rest of a tick -/

namespace System

/-- A drained group without a request parks. -/
def park (s : System K n) (g : Fin n) : Bool × System K n :=
  if (s.group g).state = .draining ∧ (s.group g).nInflight = 0 then (true, s.setState g .park) else (false, s)

/-- Whether energy is logged again. -/
def energyDue (s : System K n) (now : K) : Bool × System K n :=
  if ((now - s.controller.settings.energyLogPeriodS : K) : WithBot K) < s.controller.lastEnergyLog then (false, s)
  else (true, { s with controller := { s.controller with lastEnergyLog := (now : WithBot K) } })

/-- What a due retry of a failed lock does: the tier to lock again, or `none` for a group that is not the
    Controller's to lock. -/
def dueRetry (s : System K n) (g : Fin n) (now : K) : Option (Option Tier) :=
  match s.controller.retry g with
  | none => none
  | some (at_, _) =>
    if now < at_ then none
    else if (s.group g).state = .active ∨ (s.group g).state = .park then some (some (s.group g).tier)
    else some none

end System

def finishDraining (g : Fin n) : Prog K n Unit := do
  let parked ← step fun s => s.park g
  if parked then setTier g .park else pure ()

def logEnergy (now : K) : Prog K n Unit := do
  let due ← step fun s => s.energyDue now
  let s ← get
  if due then Co.each (List.range s.controller.agents) fun _ => readings else pure ()

/-- Lock again a group whose last lock failed; its target is unchanged. -/
def retryLock (now : K) (g : Fin n) : Prog K n Unit := do
  let s ← get
  match s.dueRetry g now with
  | none => pure ()
  | some (some tier) => do
    modify fun s => s.tell (.retried s.controller.fullEffort tier)
    setTier g tier
  | some none => modify fun s => s.setRetry g none

namespace System

/-- The most loaded group at the working point. -/
def boosted (s : System K n) (active : List (Fin n)) : Option (Fin n) :=
  (active.filter fun g => (s.group g).tier = .h).argmax fun g => toLex ((s.group g).nInflight, (s.group g).pendingMs)

/-- The least loaded group at MAX, once `tDownS` passed without pressure; the next one waits as long again. -/
def unboosted (s : System K n) (active : List (Fin n)) (now : K) : Option (Fin n) × System K n :=
  let calm (t : Option K) : System K n := { s with controller := { s.controller with calmSince := t } }
  let raised := active.filter fun g => (s.group g).tier = .max
  if raised = [] then (none, calm none)
  else
    match s.controller.calmSince with
    | none => (none, calm (some now))
    | some t =>
      if now - t < s.controller.settings.tDownS then (none, s)
      else (raised.argmin fun g => toLex ((s.group g).nInflight, (s.group g).pendingMs), calm (some now))

/-- Requests the configuration could not serve since the last tick (legacy policies). -/
def newPressure (s : System K n) (now : K) : Bool × System K n :=
  let pressed := decide (s.controller.rejectionsSeen < s.router.pressure)
  let c := { s.controller with rejectionsSeen := s.router.pressure }
  (pressed, { s with controller :=
    if pressed then { c with calmSince := none, pressureAt := (now : WithBot K) } else c })

end System

/-- Legacy pressure: wake a parked group, else the Canary comes back, else one group goes to MAX. -/
def relieve (active : List (Fin n)) : Prog K n Unit := do
  let woken ← wake
  match woken with
  | some _ => pure ()
  | none => do
    let stopped ← Co.atomic abort
    let s ← get
    match if stopped then none else s.boosted active with
    | some g => setTier g .max
    | none => pure ()

def legacyControl (now : K) : Prog K n Unit := do
  let pressed ← step fun s => s.newPressure now
  let s ← get
  let active := (List.finRange n).filter fun g => (s.group g).state = .active
  if pressed then relieve active
  else do
    let calmed ← step fun s => s.unboosted active now
    match calmed with
    | some g => setTier g .h
    | none => pure ()
  plan now
  Co.each (List.finRange n) finishDraining

/-- Best effort: latency feedback first, then the plan while no escalation is under way. -/
def bestEffortControl (now : K) : Prog K n Unit := do
  feedbackControl now
  let s ← get
  logEnergy s.now
  Co.each (List.finRange n) (retryLock s.now)
  let later ← get
  if later.tableSome then do
    if later.controller.mode ∈ [.energy, .warning, .confirming] then plan s.now else pure ()
    Co.each (List.finRange n) finishDraining
  else pure ()

def tickBody : Prog K n Unit := do
  let s ← get
  if s.router.settings.overload = .bestEffort then bestEffortControl s.now
  else do
    logEnergy s.now
    Co.each (List.finRange n) (retryLock s.now)
    let later ← get
    if later.tableSome then legacyControl s.now else pure ()

def System.lockControl (s : System K n) (locked : Bool) : System K n :=
  { s with controller := { s.controller with controlLock := locked } }

/-- One control step, under the control lock. -/
def tick : Prog K n Unit := do
  modify fun s => s.lockControl true
  tickBody.ensure (modify fun s => s.lockControl false)

end CanaTune

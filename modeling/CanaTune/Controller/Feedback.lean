import CanaTune.Controller.Clocks

/-! What one control step sees: production feedback, its confirmation, and the decision that follows. -/

namespace CanaTune
variable {K : Type} [Scalar K] {n : ℕ}

/-- What a tick concludes from production feedback. -/
structure Verdict (K : Type) (n : ℕ) where
  feedback : Feedback K n
  /-- Pressure held for `confirmS`, or was seen in most ticks of the window. -/
  confirmed : Bool
  /-- Severe feedback held for `confirmS`. -/
  emergency : Bool
  dExhausted : Bool

namespace ControllerSettings

/-- The fewest ticks a share is taken over: half a window of them. -/
def shareTicks (c : ControllerSettings K) : ℕ := (max 3 (Scalar.toInt (c.confirmWindowS / 2 / c.periodS))).toNat

/-- Pressure in most of the remembered ticks. -/
def mostly (c : ControllerSettings K) (ticks : List (K × Bool)) : Bool :=
  decide (c.shareTicks ≤ ticks.length) && decide (c.confirmFraction * ticks.length ≤ (ticks.countP (·.2) : K))

end ControllerSettings

/-- A sign lasts since its first tick without a break. -/
def lasting (since : Option K) (sign : Bool) (now : K) : Option K :=
  if sign then some (since.getD now) else none

def held (since : Option K) (now durationS : K) : Bool := since.any fun t => decide (durationS ≤ now - t)

namespace System

/-- Other resources let the target settle again. -/
def setMode (s : System K n) (mode : Mode) : System K n :=
  if s.controller.mode = mode then s
  else
    let target := if mode ∈ [.expanding, .fullEffort] ∨ s.controller.mode ∈ [.expanding, .fullEffort] then none
      else s.controller.target
    let targetSince := if mode ∈ [.expanding, .fullEffort] ∨ s.controller.mode ∈ [.expanding, .fullEffort] then none
      else s.controller.targetSince
    { s with
      controller := { s.controller with mode, target, targetSince }
      router := { s.router with controlMode := mode } }

/-- Risk signals warn. -/
def noteWarning (s : System K n) (now : K) : System K n :=
  let warning := s.router.production.riskSignals ≠ s.controller.warningSeen
  let s := { s with controller := { s.controller with warningSeen := s.router.production.riskSignals } }
  if warning then
    let s := { s with controller := { s.controller with warningAt := (now : WithBot K) } }
    if s.controller.mode = .energy then s.setMode .warning else s
  else s

/-- Evidence counts from the expansion on, and requests from the redirect on. -/
def since (s : System K n) : WithBot K × WithBot K :=
  if s.controller.mode = .expanding then (s.controller.expandedAt.elim ⊥ (↑), s.controller.redirectedAt.elim ⊥ (↑))
  else (⊥, ⊥)

def productionFeedback (s : System K n) : Feedback K n × System K n :=
  let c := s.controller.settings
  let (feedback, router) := s.router.productionFeedback c.feedbackWindowS c.feedbackMinSamples c.feedbackNearSlo
    s.since.1 s.since.2
  (feedback, { s with router })

/-- The ticks of the last `confirmWindowS`. -/
def rememberTick (c : ControllerSettings K) (ticks : List (K × Bool)) (now : K) (pressure : Bool) : List (K × Bool) :=
  (ticks ++ [(now, pressure)]).dropWhile fun e => decide (e.1 < now - c.confirmWindowS)

/-- What the tick remembers of the feedback. -/
def remember (s : System K n) (now : K) (f : Feedback K n) : System K n :=
  let c := s.controller
  let s := { s with controller := { c with
    pressureAt := if f.pressure then (now : WithBot K) else c.pressureAt
    confirmSince := lasting c.confirmSince f.pressure now
    severeSince := lasting c.severeSince f.severe now
    pressureTicks := rememberTick c.settings c.pressureTicks now f.pressure } }
  if f.pressure ∧ (s.controller.mode = .energy ∨ s.controller.mode = .warning) then s.setMode .confirming else s

/-- Marks that no D was safe for one more request. -/
def dExhausted (s : System K n) (now : K) : Bool × System K n :=
  let c := s.controller.settings
  let (marks, router) := s.router.dExhaustedCount now c.dTriggerWindowS
  let exhausted := decide (c.dTriggerCount ≤ marks)
  (exhausted, { s with
    router
    controller := if exhausted then { s.controller with pressureAt := (now : WithBot K) } else s.controller })

/-- The evidence of one tick. -/
def observe (s : System K n) (now : K) : Verdict K n × System K n :=
  let s := s.noteWarning now
  let (since, admittedSince) := s.since
  let (feedback, s) := s.productionFeedback
  let (dExhausted, s) := (s.remember now feedback).dExhausted now
  let s := s.tell (.verdict now feedback.pressure dExhausted since admittedSince)
  let c := s.controller
  (⟨feedback, held c.confirmSince now c.settings.confirmS || c.settings.mostly c.pressureTicks,
    held c.severeSince now c.settings.confirmS, dExhausted⟩, s)

/-! ### Redirect -/

/-- The groups with room: routable, and not cooled. -/
def room (s : System K n) (now : K) : List (Fin n) :=
  (List.finRange n).filter fun g => (s.group g).routable && !s.router.isCooled g now

/-- fill: the groups whose own latency shows the pressure are cooled, while some group has room. -/
def redirect (s : System K n) (now : K) (f : Feedback K n) : Bool × System K n :=
  let c := s.controller.settings
  if !c.redirect ∨ s.router.settings.groupChoice ≠ .fill then (false, s)
  else
    let pressured := (List.finRange n).filter fun g => g ∈ f.pressuredGroups
    if pressured = [] then (false, s)
    else
      let s := { s with router := pressured.foldl (fun r g => r.cool g (now + c.feedbackWindowS)) s.router }
      if s.room now = [] then (false, s)
      else
        let s := s.setMode .expanding
        (true, { s with controller := { s.controller with
          expandedAt := some s.now, redirectedAt := some s.now, confirmSince := none } }.tell (.redirect s.now))

/-! ### The decision -/

/-- What a tick does about its verdict, full effort off. -/
inductive Decision
  | nothing
  | fullEffort (reason : EffortReason)
  | expand
  deriving DecidableEq

/-- A serving group is active or explores; the others could be woken. -/
def canExpand (s : System K n) : Bool :=
  (List.finRange n).any fun g => (s.group g).state ≠ .active ∧ (s.group g).state ≠ .exploring

/-- Back to energy mode after `tDownS` without a sign. -/
def calmDown (s : System K n) (now : K) (f : Feedback K n) : System K n :=
  let c := s.controller
  let quietAfter := if c.mode = .warning ∨ c.mode = .confirming then max c.pressureAt c.warningAt else c.pressureAt
  if !f.pressure ∧ quietAfter ≤ ((now - c.settings.tDownS : K) : WithBot K) then
    { s with controller := { c with expandedAt := none, redirectedAt := none } }.setMode .energy
  else s

/-- Confirmed pressure is answered inside the serving groups first; where nothing can be expanded, at MAX. -/
def decision (s : System K n) (now : K) (v : Verdict K n) : Except Exn (Decision × System K n) :=
  if v.emergency then .ok (.fullEffort .severeBacklog, s)
  else if v.dExhausted then .ok (.fullEffort .decodeExhausted, s)
  else if s.controller.mode = .expanding then
    match s.controller.expandedAt with
    | none => .error .error
    | some at_ =>
      if now - at_ < s.controller.settings.expansionGraceS then .ok (.nothing, s)
      else if v.confirmed then
        match s.controller.redirectedAt with
        | some _ =>
          let (redirected, s) := s.redirect now v.feedback
          if redirected then .ok (.nothing, s) else .ok (.fullEffort .redirectInsufficient, s)
        | none => .ok (.fullEffort .expansionInsufficient, s)
      else .ok (.nothing, s.calmDown now v.feedback)
  else if v.confirmed then
    if s.canExpand then .ok (.expand, (s.setMode .expanding).tell (.expand now))
    else
      let (redirected, s) := s.redirect now v.feedback
      if redirected then .ok (.nothing, s) else .ok (.fullEffort .nothingToExpand, s)
  else .ok (.nothing, s.calmDown now v.feedback)

end System
end CanaTune

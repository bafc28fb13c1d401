import CanaTune.Router.Step

/-! The stages of an admitted request. A ticket is known by its position among the issued ones. -/

namespace CanaTune
variable {K : Type} [Scalar K] {n : ℕ}

namespace Router

def kvBytes (r : Router K n) (t : Ticket K n) : K := t.promptTokens * r.settings.kvBytesPerToken

def setTicket (r : Router K n) (i : ℕ) (t : Ticket K n) : Router K n := { r with tickets := r.tickets.set i t }

section
omit [Scalar K]
variable (r : Router K n) (i : ℕ) (t : Ticket K n)

@[simp] theorem setTicket_groups : (r.setTicket i t).groups = r.groups := rfl
@[simp] theorem setTicket_tickets : (r.setTicket i t).tickets = r.tickets.set i t := rfl
@[simp] theorem setTicket_settings : (r.setTicket i t).settings = r.settings := rfl

end

/-- What a ticket's stage holds is given back. -/
def leaveStage (r : Router K n) (t : Ticket K n) : Router K n :=
  match t.stage with
  | .prefill => r.setGroup t.group fun g =>
      { g with nAtP := g.nAtP - 1, pendingMs := max 0 (g.pendingMs - t.sOwnMs) }
  | .transfer => r.setGroup t.dgroup fun g => { g with inflightBytes := max 0 (g.inflightBytes - r.kvBytes t) }
  | .decode => r.setGroup t.dgroup fun g => { g with nDecoding := g.nDecoding - 1 }
  | .done => r

/-- P returned: the KV now travels to (or waits in the buffer of) the D. -/
def prefillDone (r : Router K n) (i : ℕ) : Router K n :=
  match r.tickets[i]? with
  | none => r
  | some t =>
    if t.finished ∨ t.stage ≠ .prefill then r
    else
      ((r.leaveStage t).setTicket i { t with stage := .transfer }).setGroup t.dgroup fun g =>
        { g with inflightBytes := g.inflightBytes + r.kvBytes t }

/-- D no longer waits for the request's first token. -/
def leaveAwait (r : Router K n) (t : Ticket K n) : Router K n :=
  r.setGroup t.dgroup fun g => { g with nAwait := g.nAwait - 1, tAwait := g.tAwait - t.promptTokens }

def firstToken (r : Router K n) (i : ℕ) : Router K n :=
  match r.tickets[i]? with
  | none => r
  | some t =>
    if t.firstTokenAt.isSome ∨ t.finished then r
    else
      (((r.leaveAwait t).leaveStage t).setTicket i
        { t with firstTokenAt := some r.now, lastTokenAt := some r.now, stage := .decode }).setGroup t.dgroup
        fun g => { g with nDecoding := g.nDecoding + 1 }

/-! ### Production evidence -/

/-- A prompt already impossible on an idle group at MAX is no reason to scale the cluster. -/
def actionableTtft (r : Router K n) (tokens : ℕ) : Bool :=
  (interpolate r.applied.idleTtft (tokens : K)).all fun idle => decide (idle < r.settings.ttftSloMs)

/-- The request's TTFT is near the SLO even on an idle group at its admission clock. -/
def intrinsicallyNear (r : Router K n) (t : Ticket K n) : Bool :=
  (interpolate r.applied.idleTtft (t.promptTokens : K)).any fun idle =>
    let atClock := idle - (r.applied.costs.forClock none).cost t.promptTokens + t.sOwnMs
    decide (r.settings.nearSlo * r.settings.ttftSloMs ≤ atClock)

/-- TTFT over the SLO as feedback, by the table in force. -/
def ttftRatio (r : Router K n) (t : Ticket K n) (ttftMs : K) : K × Router K n :=
  let r := r.applyTable
  if !r.actionableTtft t.promptTokens then (0, r)
  else
    let ratio := ttftMs / r.settings.ttftSloMs
    (if r.intrinsicallyNear t then ratio * r.settings.nearSlo else ratio, r)

/-- fill: `group` has no room until clock time `until_`. -/
def cool (r : Router K n) (group : Fin n) (until_ : K) : Router K n :=
  let t := match r.production.cooled.lookup group with
    | some old => max until_ old
    | none => until_
  { r with production := { r.production with cooled := r.production.cooled.insert group t } }

/-- One sample per request: live stream updates replace it. -/
def observeLatency (r : Router K n) (t : Ticket K n) (ttftMs tpotMs : Option K) : Router K n :=
  if r.settings.overload ≠ .bestEffort then r
  else
    let old : LatencySample K := (r.production.samples.lookup t.id).getD ⟨⊥, 0, ⊥, 0⟩
    let (ttftTime, ttftRatio, r) : WithBot K × K × Router K n :=
      match ttftMs with
      | none => (old.ttftTime, old.ttftRatio, r)
      | some ms =>
        -- TTFT belongs to first-token time, not every subsequent token or finish.
        let (ratio, r) := r.ttftRatio t ms
        (((t.firstTokenAt.getD r.now : K) : WithBot K), ratio, r)
    let (tpotTime, tpotRatio) : WithBot K × K :=
      match tpotMs with
      | none => (old.tpotTime, old.tpotRatio)
      | some ms => ((r.now : WithBot K), ms / r.settings.tpotSloMs)
    { r with production := { r.production with
      samples := r.production.samples.insert t.id ⟨ttftTime, ttftRatio, tpotTime, tpotRatio⟩
      origin := r.production.origin.insert t.id (t.group, t.admittedAt)
      pressureEvent := r.production.pressureEvent || decide (9 / 10 ≤ max ttftRatio tpotRatio) } }

/-- A gap joins its D's window. -/
def noteGap (gaps : List (Fin n × List (K × K))) (d : Fin n) (now tpotMs windowS : K) :
    List (Fin n × List (K × K)) :=
  let trim (l : List (K × K)) := (l ++ [(now, tpotMs)]).dropWhile fun e => decide (e.1 < now - windowS)
  if gaps.any fun e => e.1 == d then gaps.map fun e => if e.1 = d then (d, trim e.2) else e
  else gaps ++ [(d, trim [])]

def tokenProgress (r : Router K n) (i : ℕ) (tpotMs : Option K) : Router K n :=
  match r.tickets[i]? with
  | none => r
  | some t =>
    let t := { t with lastTokenAt := some r.now }
    let r := r.setTicket i t
    let ttft := t.firstTokenAt.map fun first => (first - t.admittedAt) * 1000 + t.waitMs
    match r.settings.tpotFeedback with
    | .gap => r.observeLatency t ttft tpotMs
    | .window =>
      let r := match tpotMs with
        | none => r
        | some ms => { r with production := { r.production with
            gaps := noteGap r.production.gaps t.dgroup r.now ms r.settings.tpotWindowS
            pressureEvent := r.production.pressureEvent ||
              decide (r.settings.tpotStallFactor * r.settings.tpotSloMs ≤ ms) } }
      r.observeLatency t ttft none

/-! ### Finish -/

/-- Why a finished request is not learned from. -/
inductive Skip
  | requestFailed
  | ttftUnknown
  | promptLengthEstimated
  | clockChanged
  deriving DecidableEq

/-- Only clean samples count: served OK, TTFT known, exact prompt length, and no clock change on its
    groups while the request was in flight. -/
def tableSkip (r : Router K n) (t : Ticket K n) (ok : Bool) (violated : Option Bool) : Option Skip :=
  if !ok then some .requestFailed
  else if violated.isNone then some .ttftUnknown
  else if !t.promptExact then some .promptLengthEstimated
  else if r.clockEpochs t.group ≠ t.clockEpoch ∨ r.clockEpochs t.dgroup ≠ t.decodeEpoch then some .clockChanged
  else none

/-- The KV gate follows the Canary's counts and production's. -/
def updateKvKnee (s : RouterSettings K) (l : Learned K) (t : Ticket K n) (violated : Bool) : Learned K :=
  match l.kvKnee, s.kvBufferBytes with
  | some knee, some buffer =>
    if buffer = 0 then l
    else
      let knee := knee.record (kvGateBin (t.snapshot.inflightMb * 10 ^ 6) buffer) violated
      { l with
        kvKnee := some knee
        kvFraction := match knee.knee s.theta l.table.minSamples with
          | none => 1
          | some b => gateOfBin b }
  | _, _ => l

/-- The P slot cap follows the same counts. -/
def updateSlotKnee (s : RouterSettings K) (l : Learned K) (t : Ticket K n) (violated : Bool) : Learned K :=
  match l.slotKnee with
  | some knee =>
    let knee := knee.record (pSlotBin t.snapshot.nAtP) violated
    { l with
      slotKnee := some knee
      pSlotCap := (knee.knee s.theta l.table.minSamples).map fun b => max 1 (b : ℤ) }
  | none => l

/-- Online KV gate and P slot cap, from clean samples admitted outside baseline mode. -/
def updateKnees (s : RouterSettings K) (l : Learned K) (t : Ticket K n) (violated : Bool) : Learned K :=
  if !s.kneeUpdate || t.snapshot.routingBaseline then l
  else updateSlotKnee s (updateKvKnee s l t violated) t violated

/-- A clean sample joins the risk table, the outcomes, the slack risk, the predictor and the knees. -/
def learn (s : RouterSettings K) (l : Learned K) (t : Ticket K n) (ttftMs : Option K) (violated : Bool) :
    Learned K :=
  let l := { l with table := l.table.record t.cell violated }
  let l := if t.estimate.isSome && t.overflow.isNone then
      { l with outcomes := keepLast 500 (l.outcomes ++ [violated]) }
    else l
  let l := match t.features, t.slackMs, ttftMs with
    | _ :: _, some slackMs, some ttft =>
      { l with
        slack := l.slack.record slackMs violated
        predictor := l.predictor.record t.features (max 0 (ttft - t.waitMs)) }
    | _, _, _ => l
  updateKnees s l t violated

/-- Each group of the route has one request less in flight. -/
def leaveRoute (r : Router K n) (t : Ticket K n) : Router K n :=
  let r := r.setGroup t.group fun g => { g with nInflight := g.nInflight - 1 }
  match t.decodeGroup with
  | some d => r.setGroup d fun g => { g with nInflight := g.nInflight - 1 }
  | none => r

/-- The reservation of an unfinished ticket is given back. -/
def giveBack (r : Router K n) (i : ℕ) (t : Ticket K n) : Router K n :=
  let r := if t.firstTokenAt.isNone then r.leaveAwait t else r
  let r := (r.leaveStage t).leaveRoute t
  { r.setTicket i { t with stage := .done, finished := true } with
    production := { r.production with live := r.production.live.erase t.id } }

/-- A served request is evidence; a failed one withdraws what it showed. -/
def closeEvidence (r : Router K n) (t : Ticket K n) (ok : Bool) (ttftMs tpotMs : Option K) : Router K n :=
  if ok then
    let streamed := (r.production.samples.lookup t.id).any fun s => s.tpotTime != ⊥
    -- Recent stream spacing is kept; with the window, TPOT feedback comes from the gaps only.
    let tpot := if r.settings.tpotFeedback = .window ∨ streamed then none else tpotMs
    r.observeLatency t ttftMs tpot
  else { r with production := { r.production with
    samples := r.production.samples.erase t.id
    origin := r.production.origin.erase t.id } }

def finish (r : Router K n) (i : ℕ) (ok : Bool) (ttftMs tpotMs : Option K) (outputTokens : ℕ) : Router K n :=
  match r.tickets[i]? with
  | none => r
  | some t =>
    if t.finished then r
    else
      let r := (r.giveBack i t).closeEvidence t ok ttftMs tpotMs
      let violated := isViolation ttftMs tpotMs r.settings.ttftSloMs r.settings.tpotSloMs
      let r := match r.tableSkip t ok violated with
        | some _ => r
        | none => { r with learned := learn r.settings r.learned t ttftMs (violated.getD false) }
      { r with lengths := if ok then r.lengths.map fun l => l.record t.promptTokens outputTokens else r.lengths }

end Router
end CanaTune

import CanaTune.Router.State

/-! The scan of the routes that may take a request now. -/

namespace CanaTune
variable {K : Type} [Scalar K] {n : ℕ}

/-- Why D cannot take one more request. -/
inductive Blocked
  | decodeSnapshotStale
  | decodeConcurrencyWall
  | decodeKvWall
  deriving DecidableEq

/-- What the length model warns of. -/
inductive DecodeRisk
  | decodeKv
  | decodeTpot
  deriving DecidableEq

/-- The D-side checks of one scan, made once per D. -/
structure DCheck where
  dBusy : Bool
  blocked : Option Blocked
  kvBlocked : Bool
  risk : Option DecodeRisk
  deriving DecidableEq

namespace Router

/-- TTFT from P's pending work and D's KV in flight and decoding requests. -/
def predict (r : Router K n) (group : Fin n) (sOwnMs : K) (decode : Fin n) : List K × K :=
  let x := TtftPredictor.features sOwnMs (r.groups group).pendingMs (r.groups decode).inflightBytes
    (r.groups decode).nDecoding
  (x, r.learned.predictor.predict x)

/-- KV in flight would pass the gate. A request alone on an empty link is never blocked. -/
def kvBlocked (r : Router K n) (group : Fin n) (tokens : ℕ) : Bool :=
  match r.settings.kvBufferBytes with
  | none => false
  | some buffer =>
    let gate := r.learned.kvFraction * buffer
    let inflight := (r.groups group).inflightBytes
    decide (gate ≤ inflight) ||
      (decide (0 < inflight) && decide (gate < inflight + tokens * r.settings.kvBytesPerToken))

/-- D's snapshot, when telemetry is configured and it is fresh. -/
def freshSnapshot (r : Router K n) (group : Fin n) : Option (EndpointSnapshot K) :=
  r.telemetry.bind fun t => t.fresh group r.settings.snapshotMaxAgeS r.now

/-- D busy, and why D cannot take one more request. -/
def decodeState (r : Router K n) (group : Fin n) : Bool × Option Blocked :=
  let g := r.groups group
  let snapshot := r.freshSnapshot group
  if r.telemetry.isSome ∧ snapshot.isNone then (false, some .decodeSnapshotStale)
  else
    let running := (snapshot.bind (·.running)).getD 0
    let waiting := (snapshot.bind (·.waiting)).getD 0
    let busy := decide ((r.settings.dBusyMinRunning : K) ≤ max running (g.nDecoding : K))
    match r.tiers.table with
    | none => (busy, none)
    | some table =>
      -- In best effort B* is a warning, not the hardware's concurrency limit.
      if r.settings.overload ≠ .bestEffort ∧ ∃ b ∈ table.decodeMaxRunning,
          (b : K) < max (running + waiting) ((g.nAwait + g.nDecoding : ℤ) : K) + 1 then
        (busy, some .decodeConcurrencyWall)
      else if ∃ limit ∈ table.decodeKvLimit, ∃ kv ∈ snapshot.bind (·.kvUsage), limit < kv then
        (busy, some .decodeKvWall)
      else (busy, none)

/-- Mean output tokens of recent production requests, refreshed at most once a second. -/
def outputMean (r : Router K n) : K :=
  match r.lengths with
  | none => 0
  | some l =>
    if r.outputMeanAt.all fun at_ => decide (1 ≤ r.now - at_) then l.summary.outputMean
    else r.outputMeanCached

/-- The mean is kept for the calls of the next second. -/
def refreshOutputMean (r : Router K n) : Router K n :=
  match r.lengths with
  | none => r
  | some l =>
    if r.outputMeanAt.all fun at_ => decide (1 ≤ r.now - at_) then
      { r with outputMeanCached := l.summary.outputMean, outputMeanAt := some r.now }
    else r

/-- The KV D will hold passes the wall: what it holds now and the prompts on their way grow by half a
    mean output per sequence on D and a whole one per request on its way. -/
def kvProjectedOver (r : Router K n) (group : Fin n) (tokens : ℕ) (table : TierTable K)
    (snapshot : Option (EndpointSnapshot K)) : Bool × Router K n :=
  let g := r.groups group
  let wall := match r.settings.kvProjectionLimit with
    | some limit => if limit = 0 then table.decodeKvLimit else some limit
    | none => table.decodeKvLimit
  match table.decodeKvTokens, wall, snapshot with
  | some kvTokens, some wall, some snapshot =>
    match snapshot.kvUsage with
    | none => (false, r)
    | some kvUsage =>
      if kvTokens = 0 then (false, r)
      else
        let onD := snapshot.running.getD 0 + snapshot.waiting.getD 0
        -- With the hard limit a request alone on an empty D always fits.
        if onD = 0 ∧ g.nAwait = 0 ∧ g.nDecoding = 0 ∧ r.settings.kvProjectionHard then (false, r)
        else
          let output := r.outputMean
          let held := kvUsage * kvTokens + g.tAwait
          let growth := if r.settings.kvGrowth then onD * output / 2 + g.nAwait * output else 0
          (decide (wall * kvTokens < held + growth + tokens + output), r.refreshOutputMean)
  | _, _, _ => (false, r)

/-- The TPOT bound of a D in the scan's table. -/
def noteTpot (r : Router K n) (group : Fin n) (tpot : K) : Router K n :=
  { r with scan := { r.scan with tpotByGroup := r.scan.tpotByGroup.insert group tpot } }

/-- TPOT bound of one more request: every sequence decoding or on its way and the context tokens they
    hold, this request at its prompt plus half the mean output. -/
def tpotBound (r : Router K n) (group : Fin n) (tokens : ℕ) (table : TierTable K) (coef : DecodeCoef K)
    (snapshot : EndpointSnapshot K) (kvUsage : K) : K :=
  let g := r.groups group
  let onD := snapshot.running.getD 0 + snapshot.waiting.getD 0
  let running := max (g.nDecoding : K) onD + g.nAwait + 1
  let held := kvUsage * (table.decodeKvTokens.getD 0 : ℕ) + g.tAwait
  decodeTpot coef running (held + tokens + r.outputMean / 2)

/-- Length-model check of D for one more request. -/
def decodeRisk (r : Router K n) (group : Fin n) (tokens : ℕ) (table : TierTable K)
    (model : Dict ℕ (DecodeCoef K)) : Option DecodeRisk × Router K n :=
  match decodeCoef model (r.groups group).clock.decodeMhz, r.freshSnapshot group with
  | some coef, some snapshot =>
    match snapshot.kvUsage with
    | none => (none, r)
    | some kvUsage =>
      let tpot := r.tpotBound group tokens table coef snapshot kvUsage
      let (passes, r) := (r.refreshOutputMean.noteTpot group tpot).kvProjectedOver group tokens table (some snapshot)
      if passes then (some .decodeKv, r)
      else if r.settings.tpotSloMs < tpot then (some .decodeTpot, r)
      else (none, r)
  | _, _ => (none, r)

/-- (P, D) choices: each routable group alone, or with dynamic pairing every P with every D of one. -/
def routes (r : Router K n) : List (Route n) :=
  let active := (List.finRange n).filter fun i => (r.groups i).routable
  match r.settings.pairing with
  | .fixed => active.map fun g => ⟨g, g⟩
  | .dynamic => active.flatMap fun d => active.map fun p => ⟨p, d⟩

/-- The clock point of a route: P's clock of one group, D's of the other. -/
def routeClock (r : Router K n) (route : Route n) : ClockPoint :=
  ⟨(r.groups route.p).clock.prefillMhz, (r.groups route.d).clock.decodeMhz⟩

/-- The length model of the table in force. -/
def lengthModel (r : Router K n) : Option (Dict ℕ (DecodeCoef K)) := r.tiers.table.bind (·.lengthModel)

/-- The D-side checks. -/
def checkD (r : Router K n) (tokens : ℕ) (dg : Fin n) : DCheck × Router K n :=
  let (dBusy, blocked) := r.decodeState dg
  let kv := r.kvBlocked dg tokens && r.settings.admission == .slack
  match r.settings.overload, r.tiers.table, r.lengthModel, blocked with
  | .bestEffort, some table, some model, none =>
    let (risk, r) := r.decodeRisk dg tokens table model
    (⟨dBusy, blocked, kv, risk⟩, r)
  | _, _, _, _ => (⟨dBusy, blocked, kv, none⟩, r)

/-- Best effort: a prediction about D that warns but leaves the route eligible. -/
def warns (r : Router K n) (dg : Fin n) (check : DCheck) : Bool :=
  r.settings.overload == .bestEffort &&
    match r.lengthModel with
    | some _ => check.risk.isSome
    | none =>
      -- P requests are not running D sequences; telemetry covers D's own queue.
      (match r.tiers.table.bind (·.decodeMaxRunning) with
        | some b =>
          let onD := match r.freshSnapshot dg with
            | some s => s.running.getD 0 + s.waiting.getD 0
            | none => 0
          decide ((b : K) < max ((r.groups dg).nDecoding : K) onD + 1)
        | none => false) ||
      (match r.tiers.modelJson with
        | some model =>
          let f := ((r.groups dg).clock.decodeMhz : K)
          let alpha := (interpolate (column model.decode (·.base)) f).getD 0
          let delta := (interpolate (column model.decode (·.slope)) f).getD 0
          decide (r.settings.tpotSloMs <
            alpha + delta * (((r.groups dg).nAwait + (r.groups dg).nDecoding + 1 : ℤ) : K))
        | none => false)

/-- What a scan has found so far. -/
structure ScanState (K : Type) (n : ℕ) where
  router : Router K n
  out : List (Candidate K n)
  /-- D-side checks once per D. -/
  decodeChecked : Dict (Fin n) DCheck
  dSafe : Bool

def ScanState.push (acc : ScanState K n) (c : Candidate K n) : ScanState K n :=
  { acc with out := acc.out ++ [c] }

/-- The slack table's entry of a route. -/
def noteSlack (r : Router K n) (route : Route n) (entry : SlackEntry K) : Router K n :=
  { r with scan := { r.scan with slackByGroup := r.scan.slackByGroup.insert route entry } }

/-- A route within the hard limits, and whether its D fails the length model. -/
def noteWithin (r : Router K n) (w : WithinLimits n) (dUnsafe : Bool) : Router K n :=
  { r with scan := { r.scan with
    withinLimits := r.scan.withinLimits ++ [w]
    dUnsafe := if dUnsafe then r.scan.dUnsafe ++ [w.route] else r.scan.dUnsafe } }

/-- The risk table counts its lookups. -/
def keepTable (r : Router K n) (table : RiskTable) : Router K n :=
  { r with learned := { r.learned with table } }

/-- The risk of the route against theta: by predicted slack, or by the cell of the risk table. -/
def judge (r : Router K n) (route : Route n) (tokens : ℕ) (waitedMs : K) (dBusy : Bool)
    (x : List K) (predicted : K) : Option (RiskEstimate K) × Router K n :=
  match r.settings.admission with
  | .slack =>
    let slack := r.learned.slack.estimate (r.settings.ttftSloMs - waitedMs - predicted)
    let r := r.noteSlack route ⟨x, predicted, some slack⟩
    (if slack.risk ≤ r.settings.theta then some ⟨slack.risk, .slack slack.source, slack.samples⟩ else none, r)
  | .cells =>
    let (estimate, table) := r.learned.table.lookup (r.routeClock route) (r.groups route.d).nAwait tokens dBusy
    let r := (r.keepTable table).noteSlack route ⟨x, predicted, none⟩
    (if estimate.risk ≤ r.settings.theta then some estimate else none, r)

/-- The D checks of the scan: remembered, or made and remembered. -/
def decodeCheck (acc : ScanState K n) (tokens : ℕ) (dg : Fin n) : DCheck × ScanState K n :=
  match acc.decodeChecked.lookup dg with
  | some check => (check, acc)
  | none =>
    let (check, router) := acc.router.checkD tokens dg
    (check, { acc with router, decodeChecked := acc.decodeChecked.insert dg check })

/-- One route within the hard limits: a warning keeps it for best effort, the risk makes it feasible. -/
def admitRoute (acc : ScanState K n) (route : Route n) (tokens : ℕ) (waitedMs : K) (check : DCheck)
    (x : List K) (predicted : K) : ScanState K n :=
  let r := acc.router
  let cell := r.learned.table.cell (r.routeClock route) (r.groups route.d).nAwait tokens check.dBusy
  let r := r.noteWithin ⟨route, cell, check.dBusy⟩ check.risk.isSome
  if r.warns route.d check then { acc with router := r.noteSlack route ⟨x, predicted, none⟩ }
  else
    match r.judge route tokens waitedMs check.dBusy x predicted with
    | (some estimate, r) => { acc with router := r }.push ⟨route, cell, some estimate, check.dBusy⟩
    | (none, r) => { acc with router := r }

/-- The hard limits of a route's D, by its checks. -/
def withinHardLimits (s : RouterSettings K) (check : DCheck) : Bool :=
  check.blocked.isNone &&
  -- With the hard limit the request waits rather than overfill this D.
  !(check.risk == some .decodeKv && s.kvProjectionHard) && !check.kvBlocked

/-- One route by the checks of its D. -/
def sieve (acc : ScanState K n) (route : Route n) (tokens : ℕ) (waitedMs : K) (check : DCheck)
    (x : List K) (predicted : K) : ScanState K n :=
  let acc := { acc with
    dSafe := acc.dSafe || (check.blocked.isNone && !check.kvBlocked && check.risk.isNone) }
  if withinHardLimits acc.router.settings check then admitRoute acc route tokens waitedMs check x predicted
  else acc

/-- One route of the scan. -/
def scanRoute (tokens : ℕ) (waitedMs : K) (acc : ScanState K n) (route : Route n) : ScanState K n :=
  let (cost, r) := acc.router.prefillCost (some (acc.router.groups route.p).clock.prefillMhz)
  let (x, predicted) := r.predict route.p (cost.cost tokens) route.d
  let acc := { acc with router := r }
  if r.openAdmission then
    let dBusy := decide (0 < (r.groups route.d).nDecoding)
    let cell := r.learned.table.cell (r.routeClock route) (r.groups route.d).nAwait tokens dBusy
    { acc with router := r.noteSlack route ⟨x, predicted, none⟩ }.push ⟨route, cell, none, dBusy⟩
  else
    let (check, acc) := decodeCheck acc tokens route.d
    sieve acc route tokens waitedMs check x predicted

/-- No D could take one more request: one mark per 0.2 s, the Controller's D capacity trigger. -/
def noteDExhausted (r : Router K n) : Router K n :=
  if r.production.dExhausted.getLast?.any fun t => decide (r.now - t < 1 / 5) then r
  else { r with production := { r.production with dExhausted := r.production.dExhausted ++ [r.now] } }

def dExhaustedCount (r : Router K n) (now windowS : K) : ℕ × Router K n :=
  let marks := r.production.dExhausted.dropWhile fun t => decide (t < now - max windowS 60)
  (marks.countP fun t => decide (now - windowS ≤ t), { r with production := { r.production with dExhausted := marks } })

/-- Routes that may take this request now; the scan's side tables are kept in the Router. -/
def candidates (r : Router K n) (tokens : ℕ) (waitedMs : K) : List (Candidate K n) × Router K n :=
  let routes := r.routes
  let acc := routes.foldl (scanRoute tokens waitedMs) ⟨{ r with scan := ⟨∅, ∅, [], []⟩ }, [], ∅, false⟩
  if routes ≠ [] ∧ !acc.router.openAdmission ∧ !acc.dSafe then (acc.out, acc.router.noteDExhausted)
  else (acc.out, acc.router)

end Router
end CanaTune

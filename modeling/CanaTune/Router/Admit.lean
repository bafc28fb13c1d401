import CanaTune.Router.Candidates

/-! The choice among feasible routes, and the tickets. -/

namespace CanaTune
variable {K : Type} [Scalar K] {n : ℕ}

namespace Router

/-! ### Choice -/

/-- fill: `group` has no room until its clock time. -/
def isCooled (r : Router K n) (group : Fin n) (now : K) : Bool :=
  (r.production.cooled.lookup group).any fun until_ => decide (now < until_)

/-- Requests D serves or will serve. -/
def dLoad (r : Router K n) (g : Fin n) : ℤ := (r.groups g).nAwait + (r.groups g).nDecoding

def routeCanary (r : Router K n) (route : Route n) : Bool := (r.groups route.p).canary || (r.groups route.d).canary

/-- Fixed order, production before Canary: the first group with room, P below its slot cap and D below
    the near-SLO share of the TPOT SLO; else the fewest at P, then the lightest D. -/
def chooseFill (r : Router K n) (feasible : List (Candidate K n)) : Option (Candidate K n) :=
  let order := feasible.insertionSort fun a b =>
    toLex ((r.groups a.route.p).canary, a.route.p.val) ≤ toLex ((r.groups b.route.p).canary, b.route.p.val)
  let near := r.settings.nearSlo * r.settings.tpotSloMs
  let room (c : Candidate K n) : Bool :=
    (r.learned.pSlotCap.all fun cap => decide ((r.groups c.route.p).nAtP < cap)) &&
      ((r.scan.tpotByGroup.lookup c.route.d).all fun tpot => decide (tpot ≤ near)) &&
      !r.isCooled c.route.p r.now
  match order.find? room with
  | some c => some c
  | none => order.argmin fun c => toLex ((r.groups c.route.p).nAtP,
      toLex ((r.scan.tpotByGroup.lookup c.route.d).getD 0, (r.groups c.route.p).pendingMs))

/-- Fixed pairing: the group among the feasible ones. -/
def chooseFixed (r : Router K n) (feasible : List (Candidate K n)) : Option (Candidate K n) × Router K n :=
  if r.openAdmission then
    -- Spread: least outstanding prompt work first, production before Canary.
    (feasible.argmin fun c => toLex ((r.groups c.route.p).tAwait,
      toLex ((r.groups c.route.p).nInflight, (r.groups c.route.p).canary)), r)
  else
    match r.settings.groupChoice with
    | .fill => (r.chooseFill feasible, r)
    | .roundRobin =>
      match feasible.argmin fun c => (c.route.p.val + n - r.groupRr % n) % n with
      | some c => (some c, { r with groupRr := (c.route.p.val + 1) % n })
      | none => (none, r)
    | .concentrate =>
      -- Most loaded feasible group; production before Canary on ties.
      (feasible.argmax fun c => toLex ((r.groups c.route.p).nInflight,
        toLex (!(r.groups c.route.p).canary, -(c.route.p.val : ℤ))), r)

/-- Dynamic pairing, D first: the most loaded, or the least. -/
def chooseD (r : Router K n) (feasible : List (Candidate K n)) : Option (Fin n) :=
  let ds := (feasible.map (·.route.d)).dedup
  let balanceD := decide (r.controlMode ∈ r.settings.dBalanceModes)
  if r.settings.dChoice = .concentrate ∧ !balanceD then
    ds.argmax fun g => toLex (r.dLoad g, toLex (!(r.groups g).canary, -(g.val : ℤ)))
  else ds.argmin fun g => toLex (r.dLoad g, toLex ((r.groups g).canary, g.val))

/-- Then P, among the routes to that D. -/
def chooseP (r : Router K n) (options : List (Candidate K n)) (d : Option (Fin n)) : Option (Candidate K n) :=
  let predicted (c : Candidate K n) : WithTop K :=
    match r.scan.slackByGroup.lookup c.route with
    | none => ⊤
    | some e => (e.predicted : WithTop K)
  let concentrated := options.argmax fun c => toLex ((r.groups c.route.p).nAtP,
    toLex ((r.groups c.route.p).pendingMs, toLex (!(r.groups c.route.p).canary, -(c.route.p.val : ℤ))))
  -- The lowest predicted TTFT (P's pending work), then least queued.
  let balanced := options.argmin fun c => toLex (predicted c,
    toLex ((r.groups c.route.p).nAtP, toLex ((r.groups c.route.p).canary, c.route.p.val)))
  match r.settings.pChoice with
  | .same => (options.find? fun c => decide (some c.route.p = d)).or balanced
  | .concentrate => concentrated
  | .balance => balanced

/-- Dynamic pairing: D first, then P. -/
def chooseDynamic (r : Router K n) (feasible : List (Candidate K n)) : Option (Candidate K n) :=
  if r.openAdmission then
    feasible.argmin fun c => toLex (r.dLoad c.route.d, toLex ((r.groups c.route.p).pendingMs,
      toLex ((r.groups c.route.p).nAtP, r.routeCanary c.route)))
  else
    let d := r.chooseD feasible
    r.chooseP (feasible.filter fun c => decide (some c.route.d = d)) d

/-- `none`: nothing is feasible. -/
def choose (r : Router K n) (feasible : List (Candidate K n)) : Option (Candidate K n) × Router K n :=
  match r.settings.pairing with
  | .fixed => r.chooseFixed feasible
  | .dynamic => (r.chooseDynamic feasible, r)

/-! ### Tickets -/

def countOverflow (c : OverflowCounts) : Option Overflow → OverflowCounts
  | none => c
  | some .rescue => { c with rescue := c.rescue + 1 }
  | some .doomed => { c with doomed := c.doomed + 1 }
  | some .backfill => { c with backfill := c.backfill + 1 }
  | some .bestEffort => { c with bestEffort := c.bestEffort + 1 }

/-- The ticket of one request on its route, with what the Router saw. -/
def ticketOf (r : Router K n) (c : Candidate K n) (sOwn : K) (tokens : ℕ) (exact : Bool) (waitedMs : K)
    (kind : Option Overflow) : Ticket K n :=
  let group := r.groups c.route.p
  let dg := r.groups c.route.d
  let entry := r.scan.slackByGroup.lookup c.route
  let predicted := entry.map (·.predicted)
  { id := r.tickets.length + 1
    group := c.route.p
    cell := c.cell
    estimate := c.estimate
    promptTokens := tokens
    promptExact := exact
    admittedAt := r.now
    waitMs := waitedMs
    clockEpoch := r.clockEpochs c.route.p
    snapshot :=
      { decodeGroup := c.route.d
        nAwait := dg.nAwait
        tAwait := dg.tAwait
        nInflight := group.nInflight
        nAtP := group.nAtP
        dBusy := c.dBusy
        tier := group.tier
        clock := group.effective.bind fun p => dg.effective.map fun d => ⟨p.prefillMhz, d.decodeMhz⟩
        openAdmission := r.openAdmission
        pendingMs := Scalar.roundTo 1 group.pendingMs
        inflightMb := Scalar.roundTo 1 (dg.inflightBytes / 10 ^ 6)
        nDecoding := dg.nDecoding
        predictedMs := predicted.map (Scalar.roundTo 1)
        tpotBoundMs := (r.scan.tpotByGroup.lookup c.route.d).map (Scalar.roundTo 1)
        overflow := kind
        routingBaseline := r.baselineMode }
    firstTokenAt := none
    lastTokenAt := none
    finished := false
    streaming := true
    stage := .prefill
    sOwnMs := sOwn
    features := (entry.map (·.features)).getD []
    predictedMs := predicted
    overflow := kind
    slackMs := predicted.map fun p => r.settings.ttftSloMs - waitedMs - p
    decodeGroup := if c.route.d = c.route.p then none else some c.route.d
    decodeEpoch := r.clockEpochs c.route.d }

/-- Each group of the route has one request more in flight. -/
def joinRoute (r : Router K n) (route : Route n) : Router K n :=
  let r := r.setGroup route.p fun g => { g with nInflight := g.nInflight + 1 }
  if route.d = route.p then r else r.setGroup route.d fun g => { g with nInflight := g.nInflight + 1 }

/-- Reserve the route: P's stage counters, D's, and `nInflight` once on each group. -/
def reserve (r : Router K n) (route : Route n) (sOwn : K) (tokens : ℕ) : Router K n :=
  let r := r.setGroup route.p fun g => { g with nAtP := g.nAtP + 1, pendingMs := g.pendingMs + sOwn }
  let r := r.setGroup route.d fun g => { g with nAwait := g.nAwait + 1, tAwait := g.tAwait + tokens }
  let r := r.joinRoute route
  r.setGroup route.p fun g => g.recordAdmission r.now tokens r.settings.loadWindowS

section
omit [Scalar K]
variable (r : Router K n) (route : Route n)

@[simp] theorem joinRoute_tickets : (r.joinRoute route).tickets = r.tickets := by
  unfold joinRoute
  dsimp only
  split_ifs <;> rfl

@[simp] theorem joinRoute_settings : (r.joinRoute route).settings = r.settings := by
  unfold joinRoute
  dsimp only
  split_ifs <;> rfl

@[simp] theorem joinRoute_books : (r.joinRoute route).books = r.books := by
  unfold joinRoute
  dsimp only
  split_ifs <;> rfl

end

@[simp] theorem reserve_books (r : Router K n) (route : Route n) (sOwn : K) (tokens : ℕ) :
    (r.reserve route sOwn tokens).books = r.books := by
  simp [reserve]

@[simp] theorem reserve_tickets (r : Router K n) (route : Route n) (sOwn : K) (tokens : ℕ) :
    (r.reserve route sOwn tokens).tickets = r.tickets := by
  simp [reserve]

@[simp] theorem reserve_settings (r : Router K n) (route : Route n) (sOwn : K) (tokens : ℕ) :
    (r.reserve route sOwn tokens).settings = r.settings := by
  simp [reserve]

/-- Reserve the route for one request and return its ticket. -/
def issue (r : Router K n) (c : Candidate K n) (tokens : ℕ) (exact : Bool) (waitedMs : K)
    (kind : Option Overflow) : Ticket K n × Router K n :=
  let (cost, r) := r.prefillCost ((r.groups c.route.p).effective.map (·.prefillMhz))
  let sOwn := cost.cost tokens
  let ticket := r.ticketOf c sOwn tokens exact waitedMs kind
  let r := { r with overflows := countOverflow r.overflows kind }
  let r := r.reserve c.route sOwn tokens
  let r := { r with
    tickets := r.tickets ++ [ticket]
    admitted := r.admitted + 1
    production :=
      if r.settings.overload = .bestEffort then
        { r.production with live := r.production.live ++ [ticket.id] }
      else r.production }
  (ticket, r)

/-- The chosen one of the feasible routes gets the ticket. -/
def commit (r : Router K n) (feasible : List (Candidate K n)) (tokens : ℕ) (exact : Bool) (waitedMs : K)
    (kind : Option Overflow) : Except RouterError (Option (Ticket K n) × Router K n) :=
  match r.choose feasible with
  | (none, _) => .error .value
  | (some c, r) =>
    let (ticket, r) := r.issue c tokens exact waitedMs kind
    .ok (some ticket, r)

/-- The scan's slack entry of a route. -/
def slackEntry (r : Router K n) (route : Route n) : Except RouterError (SlackEntry K) :=
  match r.scan.slackByGroup.lookup route with
  | some e => .ok e
  | none => .error .key

/-- The routes within the hard limits with their slack entries. -/
def ranked (r : Router K n) : Except RouterError (List (WithinLimits n × SlackEntry K)) :=
  r.scan.withinLimits.mapM fun w => do return (w, ← r.slackEntry w.route)

/-- A D the length model still allows first, then the lowest predicted TTFT. -/
def rankKey (r : Router K n) (e : WithinLimits n × SlackEntry K) : Bool ×ₗ K ×ₗ Bool ×ₗ ℕ ×ₗ ℕ :=
  toLex (decide (e.1.route ∈ r.scan.dUnsafe), toLex (e.2.predicted, toLex (r.routeCanary e.1.route,
    toLex (e.1.route.p.val, e.1.route.d.val))))

/-- The overflow admission on one route, at the risk its slack shows. -/
def overflowCandidate (route : Route n) (cell : Cell) (dBusy : Bool) (slack : Option (SlackEstimate K))
    (kind : Overflow) : Candidate K n :=
  ⟨route, cell, some ⟨(slack.map (·.risk)).getD 1, .overflow kind, (slack.map (·.samples)).getD 0⟩, dBusy⟩

/-- Spare capacity: a route feasible for a fresh request with `backfillSlackMs` to spare. -/
def tryBackfill (r : Router K n) (tokens : ℕ) (exact : Bool) (waitedMs : K) :
    Except RouterError (Option (Ticket K n) × Router K n) := do
  let (spare, r) := r.candidates tokens r.backfillSlackMs
  if spare.isEmpty then return (none, r)
  let entries ← spare.mapM fun c => do return (c, ← r.slackEntry c.route)
  match entries.argmin fun e => e.2.predicted with
  | none => throw .value
  | some (c, e) =>
    let late := overflowCandidate c.route c.cell c.dBusy e.slack .backfill
    r.commit [late] tokens exact waitedMs (some .backfill)

/-- Admit to a feasible group; with `rescue` or `bestEffort` to the best route within the hard limits. -/
def tryAdmit (r : Router K n) (tokens : ℕ) (exact : Bool) (waitedMs : K) (rescue backfill bestEffort : Bool) :
    Except RouterError (Option (Ticket K n) × Router K n) := do
  let (feasible, r) := r.candidates tokens waitedMs
  if !feasible.isEmpty then r.commit feasible tokens exact waitedMs none
  else if !(rescue || bestEffort) || r.scan.withinLimits.isEmpty then return (none, r)
  else
    match (← r.ranked).argmin r.rankKey with
    | none => throw .value
    | some (w, e) =>
      let settle (kind : Overflow) :=
        r.commit [overflowCandidate w.route w.cell w.dBusy e.slack kind] tokens exact waitedMs (some kind)
      if bestEffort then settle .bestEffort
      else if waitedMs + e.predicted ≤ r.settings.ttftSloMs then settle .rescue
      else if !backfill then return (none, r)
      else
        match r.settings.doomed with
        | .dispatch => settle .doomed
        | .backfill => r.tryBackfill tokens exact waitedMs

/-! ### Baseline mode -/

/-- The hard limits of baseline mode: D's snapshot and KV wall, the KV gate (not with fill), and the
    projected KV when it is hard. -/
def baselineUsable (r : Router K n) (tokens : ℕ) (fill : Bool) (group : Fin n) :
    Option (Fin n × Bool) × Router K n :=
  if !(r.groups group).routable then (none, r)
  else
    let (dBusy, blocked) := r.decodeState group
    if blocked.isSome || (!fill && r.kvBlocked group tokens) then (none, r)
    else
      match r.tiers.table with
      | some table =>
        if r.settings.kvProjectionHard ∧ r.telemetry.isSome then
          let (passes, r) := r.kvProjectedOver group tokens table (r.freshSnapshot group)
          if passes then (none, r) else (some (group, dBusy), r)
        else (some (group, dBusy), r)
      | none => (some (group, dBusy), r)

/-- The usable groups in turn: only the first one, or with fill all of them. -/
def usableGroups (tokens : ℕ) (fill : Bool) : List (Fin n) → Router K n → List (Fin n × Bool) × Router K n
  | [], r => ([], r)
  | g :: rest, r =>
    match r.baselineUsable tokens fill g with
    | (none, r) => usableGroups tokens fill rest r
    | (some u, r) =>
      if fill then
        let (us, r) := usableGroups tokens fill rest r
        (u :: us, r)
      else ([u], r)

/-- The groups from the round robin cursor on. -/
def inTurn (r : Router K n) : List (Fin n) :=
  (List.finRange n).rotate r.rr

/-- Power of two choices: the less loaded P of two drawn at random. -/
def drawTwo (r : Router K n) (usable : List (Fin n × Bool)) : Except RouterError ((Fin n × Bool) × Router K n) :=
  let (i, j) := r.sampler.pick r.draws usable.length
  if usable.length < 2 then .error .value
  else
    match ([usable[i]?, usable[j]?].reduceOption).argmin fun u => toLex ((r.groups u.1).nAtP,
        toLex ((r.groups u.1).pendingMs, u.1.val)) with
    | none => .error .value
    | some u => .ok (u, { r with draws := r.draws + 1 })

/-- The pair that takes the request: the first in turn, or with fill and enough pairs one of two drawn. -/
def takeTurn (r : Router K n) (fill : Bool) (first : Fin n × Bool) (usable : List (Fin n × Bool)) :
    Except RouterError ((Fin n × Bool) × Router K n) :=
  if fill && decide (r.settings.fillP2cGroups ≤ usable.length) then r.drawTwo usable else .ok (first, r)

/-- The turn passes, and the pair's ticket is issued. -/
def issueTurn (r : Router K n) (group : Fin n) (dBusy : Bool) (tokens : ℕ) (exact : Bool) (waitedMs : K) :
    Ticket K n × Router K n :=
  let r := { r with rr := (group.val + 1) % n }
  let cell := r.learned.table.cell (r.groups group).clock (r.groups group).nAwait tokens dBusy
  let (cost, r) := r.prefillCost (some (r.groups group).clock.prefillMhz)
  let (x, predicted) := r.predict group (cost.cost tokens) group
  let r := { r with scan := { r.scan with
    slackByGroup := (∅ : Dict (Route n) (SlackEntry K)).insert ⟨group, group⟩ ⟨x, predicted, none⟩
    tpotByGroup := ∅ } }
  r.issue ⟨⟨group, group⟩, cell, none, dBusy⟩ tokens exact waitedMs none

/-- Round robin over the fixed pairs, keeping only the hard limits. -/
def admitBaseline (r : Router K n) (tokens : ℕ) (exact : Bool) (waitedMs : K) :
    Except RouterError (Option (Ticket K n) × Router K n) := do
  let fill := r.settings.groupChoice == .fill
  let (usable, r) := usableGroups tokens fill r.inTurn r
  match usable with
  | [] => return (none, r)
  | first :: _ =>
    let ((group, dBusy), r) ← r.takeTurn fill first usable
    let (ticket, r) := r.issueTurn group dBusy tokens exact waitedMs
    return (some ticket, r)

end Router
end CanaTune

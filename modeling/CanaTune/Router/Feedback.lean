import CanaTune.Router.Lifecycle

/-! Production feedback: recent actual latency plus the waits of unfinished requests. -/

namespace CanaTune
variable {K : Type} [Scalar K] {n : ℕ}

structure GroupEvidence (K : Type) where
  samples : ℕ
  nearFraction : K
  liveRatio : K

structure Feedback (K : Type) (n : ℕ) where
  samples : ℕ
  nearFraction : K
  liveRatio : K
  waitRatio : K
  tpotWindowRatio : K
  tpotWindowGroup : Option (Fin n)
  stallRatio : K
  pressure : Bool
  severe : Bool
  groups : List (Fin n × GroupEvidence K)
  pressuredGroups : List (Fin n)

/-- Share of the ratios at or above `near`. -/
def nearShare (near : K) (ratios : List K) : K :=
  if ratios.isEmpty then 0 else (ratios.countP (near ≤ ·) : K) / ratios.length

/-- What the unfinished tickets show: TTFT overdue, streams stalled, and by whom. -/
structure LiveEvidence (K : Type) (n : ℕ) where
  liveRatio : K
  stallRatio : K
  liveBy : Dict (Fin n) K

namespace Router

/-- The largest windowed gap quantile over the TPOT SLO and its D; a D with too few recent gaps does not
    count. -/
def tpotWindow (r : Router K n) : (K × Option (Fin n)) × Router K n :=
  let s := r.settings
  let gaps := r.production.gaps.map fun e =>
    (e.1, e.2.dropWhile fun g => decide (g.1 < r.now - s.tpotWindowS))
  let worst := gaps.foldl (fun (w : K × Option (Fin n)) e =>
    if e.2.length < s.tpotWindowMinGaps then w
    else
      let ordered := (e.2.map (·.2)).insertionSort (· ≤ ·)
      let rank := min ((ordered.length : ℤ) - 1) (⌈s.tpotWindowQuantile * ordered.length⌉ - 1)
      let q := ordered.getD rank.toNat 0
      if w.1 < q / s.tpotSloMs then (q / s.tpotSloMs, some e.1) else w) (0, none)
  (worst, { r with production := { r.production with gaps } })

/-- One unfinished ticket's part of the live evidence. -/
def noteLive (admittedSince : WithBot K) (acc : LiveEvidence K n × Router K n) (t : Ticket K n) :
    LiveEvidence K n × Router K n :=
  let (e, r) := acc
  if (t.admittedAt : WithBot K) < admittedSince then acc
  else
    match t.firstTokenAt, t.lastTokenAt with
    | none, _ =>
      -- Past P without a stream: no TTFT evidence either way.
      if !t.streaming ∧ t.stage ≠ .prefill then acc
      else
        let (ratio, r) := r.ttftRatio t ((r.now - t.admittedAt) * 1000 + t.waitMs)
        ({ e with
          liveRatio := max e.liveRatio ratio
          liveBy := e.liveBy.insert t.group (max ((e.liveBy.lookup t.group).getD 0) ratio) }, r)
    | some _, some last =>
      let gap := (r.now - last) * 1000 / r.settings.tpotSloMs
      match r.settings.tpotFeedback with
      | .window => ({ e with stallRatio := max e.stallRatio gap }, r)
      | .gap => ({ e with liveRatio := max e.liveRatio gap }, r)
    | some _, none => acc

/-- The unfinished tickets the Router keeps. -/
def liveTickets (r : Router K n) : List (Ticket K n) := r.tickets.filter fun t => r.production.live.contains t.id

/-- Samples within the window; the older ones are dropped. -/
def pruneSamples (r : Router K n) (windowS : K) : Router K n :=
  let recent (s : LatencySample K) : Bool :=
    decide (((r.now - windowS : K) : WithBot K) ≤ max s.ttftTime s.tpotTime)
  let samples := r.production.samples.filter fun _ s => recent s
  { r with production := { r.production with
    samples
    origin := r.production.origin.filter fun k _ => (samples.lookup k).isSome } }

/-- The latency ratios after the cutoff, each with its group. -/
def ratios (r : Router K n) (cutoff admittedSince : WithBot K) : List (Option (Fin n) × K) :=
  r.production.samples.items.filterMap fun (k, s) =>
    let origin := r.production.origin.lookup k
    let admitted : WithBot K := (origin.map fun o => (o.2 : WithBot K)).getD ⊥
    if max s.ttftTime s.tpotTime < cutoff ∨ admitted < admittedSince then none
    else
      some (origin.map (·.1), max (if cutoff ≤ s.ttftTime then s.ttftRatio else 0)
        (if cutoff ≤ s.tpotTime then s.tpotRatio else 0))

/-- The longest wait of the queue over the TTFT SLO. -/
def waitRatio (r : Router K n) : K :=
  ((r.books.waitingSince.items.map fun e => (r.now - e.2) * 1000 / r.settings.ttftSloMs).max?).getD 0

/-- The groups with samples or unfinished requests of their own. -/
def groupEvidence (ratios : List (Option (Fin n) × K)) (live : LiveEvidence K n) (near : K) :
    List (Fin n × GroupEvidence K) :=
  (List.finRange n).filterMap fun g =>
    let own := (ratios.filter fun e => e.1 == some g).map (·.2)
    let liveBy := live.liveBy.lookup g
    if own.isEmpty && liveBy.isNone then none
    else some (g, ⟨own.length, nearShare near own, liveBy.getD 0⟩)

/-- `admittedSince` keeps only requests admitted from then on (after a redirect). -/
def productionFeedback (r : Router K n) (windowS : K) (minSamples : ℕ) (near : K)
    (since admittedSince : WithBot K) : Feedback K n × Router K n :=
  let cutoff := max ((r.now - windowS : K) : WithBot K) since
  let r := r.pruneSamples windowS
  let ratios := r.ratios cutoff admittedSince
  let (live, r) := r.liveTickets.foldl (noteLive admittedSince) (⟨0, 0, ∅⟩, r)
  let fraction := nearShare near (ratios.map (·.2))
  let ((tpotQ, tpotGroup), r) : (K × Option (Fin n)) × Router K n :=
    match r.settings.tpotFeedback with
    | .window => r.tpotWindow
    | .gap => ((0, none), r)
  let stalled := decide (r.settings.tpotStallFactor ≤ live.stallRatio)
  let groups := groupEvidence ratios live near
  let own := (groups.filter fun e => decide (0 < e.2.nearFraction ∨ near ≤ e.2.liveRatio)).map (·.1)
  let pressured := match tpotGroup with
    | some g => if 1 ≤ tpotQ ∧ g ∉ own then own ++ [g] else own
    | none => own
  ({ samples := ratios.length
     nearFraction := fraction
     liveRatio := live.liveRatio
     waitRatio := r.waitRatio
     tpotWindowRatio := tpotQ
     tpotWindowGroup := tpotGroup
     stallRatio := live.stallRatio
     pressure := (decide (minSamples ≤ ratios.length) && decide (r.settings.theta < fraction)) ||
       decide (near ≤ max live.liveRatio r.waitRatio) || decide (1 ≤ tpotQ) || stalled
     severe := decide (2 ≤ max live.liveRatio r.waitRatio)
     groups := groups
     pressuredGroups := pressured }, r)

/-- Requests the current configuration could not serve within the SLO risk. -/
def pressure (r : Router K n) : ℕ :=
  r.rejections + (r.overflows.rescue + r.overflows.doomed + r.overflows.backfill + r.overflows.bestEffort)
    + r.books.held + r.production.riskSignals

end Router

/-- Severe feedback is pressure: both look at the same ratio. -/
theorem Router.pressure_of_severe {r : Router K n} {windowS near : K} {minSamples : ℕ} {since admittedSince : WithBot K}
    (hnear : near ≤ 2) (h : (r.productionFeedback windowS minSamples near since admittedSince).1.severe = true) :
    (r.productionFeedback windowS minSamples near since admittedSince).1.pressure = true := by
  simp only [productionFeedback, decide_eq_true_eq, Bool.or_eq_true] at h ⊢
  exact Or.inl (Or.inl (Or.inr (hnear.trans h)))

end CanaTune

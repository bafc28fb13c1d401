import CanaTune.Domain.Admission

/-! Cluster model from the Canary's measurements, and the solver over it. -/

namespace CanaTune
variable {K : Type} [Scalar K]

/-- The first segment that holds `x`. -/
def between (x : K) : List (ℕ × K) → Option K
  | a :: b :: rest => if (a.1 : K) ≤ x ∧ x ≤ b.1 then some (segment a b x) else between x (b :: rest)
  | _ => none

/-- Piecewise linear over measured points, constant beyond the ends. -/
def interpolate (points : Dict ℕ K) (x : K) : Option K :=
  match points.sorted with
  | [] => none
  | p :: ps =>
    let last := ps.getLastD p
    if x ≤ p.1 then some p.2
    else if (last.1 : K) ≤ x then some last.2
    else between x (p :: ps)

/-! ### Length model of D -/

/-- Coefficients of TPOT = alpha + beta X + gamma K + r95. -/
structure DecodeCoef (K : Type) where
  alpha : K
  beta : K
  gamma : K
  r95 : K

/-- The columns of a point that a line is fitted over: running sequences (0) and KV tokens (1). -/
def columnSets : List (List ℕ) := [[0, 1], [0], [1]]

/-- The value of a point (running sequences, KV tokens, TPOT ms) in a column. -/
def pointColumn (p : K × K × K) (c : ℕ) : K := if c = 0 then p.1 else p.2.1

/-- The normal equations of a column set, solved. -/
def solveColumns (points : List (K × K × K)) (cols : List ℕ) : Option (List K) :=
  let rows := points.map fun p => 1 :: cols.map (pointColumn p)
  let n := cols.length + 1
  let ata := (List.range n).map fun i => (List.range n).map fun j => (rows.map fun r => r.getD i 0 * r.getD j 0).sum
  let aty := (List.range n).map fun i => ((rows.zip points).map fun e => e.1.getD i 0 * e.2.2.2).sum
  solve ata aty

/-- What the points lie above the line, in order. -/
def residuals (points : List (K × K × K)) (alpha beta gamma : K) : List K :=
  (points.map fun p => p.2.2 - (alpha + beta * p.1 + gamma * p.2.1)).insertionSort (· ≤ ·)

/-- Index of the 95th percentile of `n` sorted values. -/
def p95Index (K : Type) [Scalar K] (n : ℕ) : ℕ :=
  min (n - 1) (Scalar.toInt (95 / 100 * ((n : K) - 1) + 1 / 2)).toNat

/-- The line over one column set; `none` without a solution or with a negative slope. -/
def fitColumns (points : List (K × K × K)) (cols : List ℕ) : Option (DecodeCoef K) := do
  let solution ← solveColumns points cols
  if solution.tail.any (· < 0) then none
  else
    let slopes := cols.zip solution.tail
    let alpha := solution.getD 0 0
    let beta := (slopes.lookup 0).getD 0
    let gamma := (slopes.lookup 1).getD 0
    let r95 := (residuals points alpha beta gamma).getD (p95Index K points.length) 0
    some ⟨alpha, beta, gamma, max 0 r95⟩

/-- Least-squares length model of the points (running sequences, KV tokens, TPOT ms), lifted by the 95th percentile of
    its residuals; a negative slope is fixed at 0 and the other one refitted. -/
def fitDecodeLength (points : List (K × K × K)) : Option (DecodeCoef K) :=
  if points.length < 4 then none else columnSets.findSome? (fitColumns points)

/-- TPOT bound (ms) of a request decoding among `running` sequences holding `kvTokens` context tokens. -/
def decodeTpot (coef : DecodeCoef K) (running kvTokens : K) : K :=
  coef.alpha + coef.beta * running + coef.gamma * kvTokens + coef.r95

/-- Sequences that one D holds; `none` where nothing limits them. -/
structure DecodeCapacity (K : Type) where
  sequences : Option K
  tpotSequences : Option K
  kvSequences : Option K
  /-- The binding limit is the KV cache. -/
  kvBound : Bool

/-- `None if math.isinf(x) else x`. -/
def unlessInf : WithTop K → Option K
  | none => none
  | some x => some x

/-- Sequences of `context` tokens each within the TPOT SLO and within `kvLimit` of the KV cache. -/
def decodeCapacity (coef : DecodeCoef K) (context tpotSloMs : K) (kvTokens : Option K) (kvLimit : K) : DecodeCapacity K :=
  let perSequence := coef.beta + coef.gamma * context
  let tpot : WithTop K :=
    if 0 < perSequence then (((tpotSloMs - coef.alpha - coef.r95) / perSequence : K) : WithTop K) else ⊤
  let kv : WithTop K := match kvTokens with
    | some tokens => if tokens ≠ 0 ∧ 0 < context then ((kvLimit * tokens / context : K) : WithTop K) else ⊤
    | none => ⊤
  let sequences : WithTop K := max 0 (min tpot kv)
  ⟨unlessInf sequences, unlessInf (tpot.map (max 0)), unlessInf kv, decide (kv < tpot)⟩

/-- `capacity["sequences"] or default`. -/
def DecodeCapacity.sequencesOr (c : DecodeCapacity K) (default : ℕ) : K :=
  match c.sequences with
  | some x => if x = 0 then default else x
  | none => default

/-- Coefficients at D clock `mhz`: the nearest measured clock at or below it, else the lowest one. -/
def decodeCoef (model : Dict ℕ (DecodeCoef K)) (mhz : ℕ) : Option (DecodeCoef K) :=
  (CostBook.nearest (model.items.map (·.1)) (some mhz)).bind fun k => model.lookup k

/-! ### Cluster model -/

/-- Idle and dynamic watts of one clock, or alpha and delta of one D clock. -/
structure Line (K : Type) where
  base : K
  slope : K

structure ClusterModel (K : Type) where
  prefill : Dict ℕ (Dict ℕ K)
  residence : Dict ℕ K
  decode : Dict ℕ (Line K)
  powerPrefill : Dict ℕ (Line K)
  powerDecode : Dict ℕ (Line K)
  parkPowerW : K
  rhoPrefill : K
  ttftSloMs : K
  tpotSloMs : K
  kvBytesPerToken : K
  kvGateBytes : Option K
  kvCapacityTokens : Option ℕ
  bStar : Dict ℕ ℕ
  caps : Dict ClockPoint K
  predictorCoef : Option (List K)
  slackCounts : Option (Dict ℕ (ℕ × ℕ))
  theta : K

/-- A table of lines read through one of its two columns. -/
def column (table : Dict ℕ (Line K)) (f : Line K → K) : Dict ℕ K :=
  Dict.ofList (table.items.map fun e => (e.1, f e.2))

namespace ClusterModel

def points (m : ClusterModel K) : List ClockPoint :=
  let p := (m.prefill.sorted.map (·.1)).filter fun f => (m.powerPrefill.lookup f).isSome
  let d := (m.decode.sorted.map (·.1)).filter fun f => (m.powerDecode.lookup f).isSome
  p.flatMap fun fp => d.map fun fd => ⟨fp, fd⟩

end ClusterModel

/-! ### Solver -/

/-- What limits a configuration. -/
inductive Constraint
  | prefill
  | decode
  | kv
  | ttft
  | cap
  deriving DecidableEq

/-- Each constraint's load over its limit, in the order they are computed; `⊤` is infinite. -/
abbrev Use (K : Type) := List (Constraint × WithTop K)

namespace Use

/-- The highest use. -/
def top (u : Use K) : WithTop K := ((u.map fun e => e.2).max?).getD 0

def get (u : Use K) (c : Constraint) : WithTop K := (u.lookup c).getD 0

/-- The constraint with the highest use. -/
def binding (u : Use K) : Constraint := ((u.argmax (·.2)).map (·.1)).getD .prefill

end Use

structure Evaluation (K : Type) where
  n : ℕ
  point : ClockPoint
  feasible : Bool
  powerW : K
  binding : Constraint
  use : Use K
  rates : List K

/-- A load that may be infinite over a positive limit that may be infinite. -/
def ratio : WithTop K → WithTop K → WithTop K
  | none, _ => ⊤
  | some _, none => 0
  | some a, some b => ((a / b : K) : WithTop K)

inductive ModelError
  | value (message : String)
  deriving DecidableEq

structure Solver (K : Type) where
  model : ClusterModel K
  groups : ℕ
  costs : CostBook K
  slack : Option (SlackRisk K)

namespace Solver

/-- The slack risk of the model's counts, with the default of 20 samples a bucket. -/
def build (model : ClusterModel K) (groups : ℕ) : Solver K where
  model := model
  groups := groups
  costs := .ofTables model.prefill
  slack :=
    match model.slackCounts with
    | some counts =>
      if counts.items = [] then none
      else some ((SlackRisk.fresh (slackEdges model.ttftSloMs) 20).setSeed counts)
    | none => none

/-- Quantile representatives of the recent length mix. -/
def mixPoints : ℕ := 16

def lexLe (a b : ℕ × ℕ) : Bool := a.1 < b.1 || (a.1 == b.1 && a.2 ≤ b.2)

/-- At most `mixPoints` representatives; the longest prompt is always one of them. -/
def mix (mix : List (ℕ × ℕ)) : List (ℕ × ℕ) :=
  let kept := mix.insertionSort fun a b => lexLe a b
  if kept.length ≤ mixPoints then kept
  else
    let picks := (List.range mixPoints).map fun i =>
      kept.getD ((2 * i + 1) * kept.length / (2 * mixPoints)) (0, 0)
    picks.dropLast ++ [kept.getLastD (0, 0)]

def decode (s : Solver K) (f : ℕ) : K × K :=
  ((interpolate (column s.model.decode (·.base)) f).getD 0,
    (interpolate (column s.model.decode (·.slope)) f).getD 0)

def bStar (s : Solver K) (f : ℕ) : Option ℕ :=
  (CostBook.nearest (s.model.bStar.items.map (·.1)) (some f)).bind fun k => s.model.bStar.lookup k

def power (table : Dict ℕ (Line K)) (f : ℕ) (util : K) : K :=
  (interpolate (column table (·.base)) f).getD 0 + (interpolate (column table (·.slope)) f).getD 0 * util

/-- Mean of a function over the mix. -/
def mean (mix : List (ℕ × ℕ)) (f : ℕ × ℕ → K) : K := (mix.map f).sum / mix.length

/-- D's running sequences by Little's law with T_iter(X) = alpha + delta X. -/
def running (alpha delta load : K) : WithTop K :=
  if 1 ≤ load * delta then ⊤ else ((load * alpha / (1 - load * delta) : K) : WithTop K)

/-- The P constraint: the predictor's violation risk, or the busy share without a predictor. -/
def usePrefill (s : Solver K) (mix : List (ℕ × ℕ)) (cost : PrefillCost K) (r rho inflight : K)
    (running : WithTop K) : WithTop K :=
  let m := s.model
  match m.predictorCoef, s.slack with
  | some coef, some slack =>
    match running with
    | none => ⊤
    | some x =>
      if 1 ≤ rho then ⊤
      else
        let meanS2 := mean mix fun e => cost.cost e.1 ^ 2
        let pending := r / 1000 * meanS2 / (2 * (1 - rho))
        let risk := (mix.map fun e =>
          let features := [1, cost.cost e.1, pending, inflight / 10 ^ 9, x]
          (slack.estimate (m.ttftSloMs - (coef.zipWith (· * ·) features).sum)).risk).sum
        if 0 < m.theta then ((risk / mix.length / m.theta : K) : WithTop K) else ⊤
  | _, _ => if 0 < m.rhoPrefill then ((rho / m.rhoPrefill : K) : WithTop K) else ⊤

/-- The D constraint: running sequences against the KV, B* and TPOT limits. -/
def useDecode (s : Solver K) (point : ClockPoint) (meanCtx alpha delta : K) (running : WithTop K) :
    WithTop K :=
  let m := s.model
  let kv : List K := match m.kvCapacityTokens with
    | some c => if c = 0 then [] else [(c : K) / meanCtx]
    | none => []
  let b : List K := match s.bStar point.decodeMhz with
    | some b => if b = 0 then [] else [(b : K)]
    | none => []
  let tpot : List K := if 0 < delta then [(m.tpotSloMs - alpha) / delta] else []
  match (kv ++ b ++ tpot).min? with
  | none => ratio running ⊤
  | some x => if 0 < x then ratio running (x : WithTop K) else ⊤

/-- One group at `point` under a uniform rate `rateRps / n`. -/
def uniform (s : Solver K) (rateRps : K) (lengths : List (ℕ × ℕ)) (n : ℕ) (point : ClockPoint) :
    Except ModelError (Evaluation K) :=
  let m := s.model
  let mix := Solver.mix lengths
  if mix = [] then .error (.value "the solver needs a length mix")
  else
    let r := rateRps / (max n 1 : ℕ)
    let cost := s.costs.forClock (some point.prefillMhz)
    let rho := r * mean mix (fun e => cost.cost e.1) / 1000
    let (alpha, delta) := s.decode point.decodeMhz
    let running := running alpha delta (r * mean mix (fun e => (e.2 : K)) / 1000)
    let res := mean mix fun e => (e.1 : K) * m.kvBytesPerToken * (interpolate m.residence e.1).getD 0
    let inflight := r * res / 1000
    let top := (mix.map (·.1)).foldl max 0
    let use : Use K :=
      [(.prefill, s.usePrefill mix cost r rho inflight running),
        (.decode, s.useDecode point (mean mix fun e => (e.1 + e.2 : ℕ)) alpha delta running)] ++
      (match m.kvGateBytes with
        | some gate => if gate = 0 then [] else [(.kv, ((inflight / gate : K) : WithTop K))]
        | none => []) ++
      [(.ttft, (((cost.cost top + (interpolate m.residence top).getD 0) / m.ttftSloMs : K) : WithTop K))] ++
      (match m.caps.lookup point with
        | some cap => [(.cap, if 0 < cap then ((r / cap : K) : WithTop K) else ⊤)]
        | none => [])
    -- A verified cap is strict: the point failed at that rate.
    let feasible := (use.all fun e => e.1 == .cap || decide (e.2 ≤ 1)) && decide (use.get .cap < 1)
    let busy := match running with
      | none => 1
      | some x => min 1 x
    let power := n * (power m.powerPrefill point.prefillMhz (min rho 1)
      + power m.powerDecode point.decodeMhz busy) + ((s.groups : K) - n) * m.parkPowerW
    .ok ⟨n, point, feasible, power, use.binding, use, []⟩

def isFeasible (s : Solver K) (rateRps : K) (lengths : List (ℕ × ℕ)) (point : ClockPoint) :
    Except ModelError Bool := do
  return (← s.uniform rateRps lengths 1 point).feasible

/-- Doubling until a rate is infeasible, at most `fuel` times. -/
def double (feasible : K → Except ModelError Bool) : ℕ → K → Except ModelError K
  | 0, hi => .ok hi
  | fuel + 1, hi => do
    if ← feasible hi then double feasible fuel (hi * 2) else return hi

/-- Halving the bracket `fuel` times. -/
def bisect (feasible : K → Except ModelError Bool) : ℕ → K → K → Except ModelError K
  | 0, lo, _ => .ok lo
  | fuel + 1, lo, hi => do
    let mid := (lo + hi) / 2
    if ← feasible mid then bisect feasible fuel mid hi else bisect feasible fuel lo mid

/-- Largest feasible per-group rate; shared by packing and the Canary's verification. -/
def capacity (s : Solver K) (lengths : List (ℕ × ℕ)) (point : ClockPoint) : Except ModelError K := do
  let feasible := fun rate => s.isFeasible rate lengths point
  if ← feasible 0 then
    let hi ← double feasible 30 1
    bisect feasible 24 0 hi
  else return 0

/-- `_capacities`: the answers so far, by point and representatives of the mix. -/
abbrev Capacities (K : Type) := Dict (ClockPoint × List (ℕ × ℕ)) K

/-- The capacity, looked up or computed. -/
def capacityMemo (s : Solver K) (memo : Capacities K) (lengths : List (ℕ × ℕ)) (point : ClockPoint) :
    Except ModelError (K × Capacities K) :=
  match memo.lookup (point, Solver.mix lengths) with
  | some c => .ok (c, memo)
  | none => do
    let c ← s.capacity lengths point
    return (c, memo.insert (point, Solver.mix lengths) c)

/-- What a call leaves in the memo; one that raises leaves nothing. -/
def remember (s : Solver K) (memo : Capacities K) (call : List (ℕ × ℕ) × ClockPoint) : Capacities K :=
  match s.capacityMemo memo call.1 call.2 with
  | .ok (_, memo) => memo
  | .error _ => memo

/-- Groups filled up to the capacity before the next one is opened; the last takes what remains. -/
def pack (capacity : K) : ℕ → K → List K
  | 0, _ => []
  | 1, remaining => [remaining]
  | n + 2, remaining =>
    let rate := min remaining capacity
    rate :: pack capacity (n + 1) (remaining - rate)

def evaluate (s : Solver K) (rateRps : K) (lengths : List (ℕ × ℕ)) (n : ℕ) (point : ClockPoint) :
    Except ModelError (Evaluation K) := do
  if n < 1 ∨ rateRps < 0 then throw (.value "positive group count and non-negative rate required")
  let capacity ← s.capacity lengths point
  let rates := pack capacity n rateRps
  let evaluations ← rates.mapM fun r => s.uniform r lengths 1 point
  let keys := ((evaluations.head?).map (·.use.map (·.1))).getD []
  let use : Use K := keys.map fun k => (k, ((evaluations.map fun e => e.use.get k).max?).getD 0)
  let park := s.model.parkPowerW
  let power := (evaluations.map fun e => e.powerW - ((s.groups : K) - 1) * park).sum
    + ((s.groups : K) - n) * park
  return ⟨n, point, evaluations.all (·.feasible), power, use.binding, use, rates⟩

/-- The order of the fallback: the most headroom, then more groups and higher clocks. -/
def headroomKey (e : Evaluation K) : WithTop K ×ₗ ℤ ×ₗ ℤ ×ₗ ℤ :=
  toLex (WithTop.map (Scalar.roundTo 3) e.use.top, toLex (-(e.n : ℤ),
    toLex (-(e.point.prefillMhz : ℤ), -(e.point.decodeMhz : ℤ))))

/-- Lowest-power feasible configuration; when nothing is feasible, the one with the most headroom. -/
def solve (s : Solver K) (rateRps : K) (lengths : List (ℕ × ℕ)) (minGroups groups : ℕ) :
    Except ModelError (Evaluation K) := do
  let top := if groups = 0 then s.groups else groups
  let evals ← ((List.range' minGroups (top + 1 - minGroups)).flatMap fun n =>
    s.model.points.map fun point => (n, point)).mapM fun e => s.evaluate rateRps lengths e.1 e.2
  match (evals.filter (·.feasible)).argmin fun e => toLex (e.powerW, e.n) with
  | some e => return e
  | none =>
    match evals.argmin headroomKey with
    | some e => return e
    | none => throw (.value "the model has no clock points")

end Solver
end CanaTune

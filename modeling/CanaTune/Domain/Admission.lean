import CanaTune.Domain.Clocks

/-! State-based admission: prefill cost, the online TTFT predictor and the risk table over predicted slack. -/

namespace CanaTune
variable {K : Type} [Scalar K]

/-- Slack bucket edges in tenths of the TTFT SLO, from -0.4 to +0.8 SLO. -/
def slackEdges (ttftSloMs : K) : List K :=
  (List.range 13).map fun k => ttftSloMs * ((k : K) - 4) / 10

/-! ### Prefill cost -/

/-- The value at `x` on the line through two measured points. -/
def segment (a b : ℕ × K) (x : K) : K := a.2 + (b.2 - a.2) * (x - a.1) / ((b.1 : K) - a.1)

/-- Single-request prefill time S(L) in ms: piecewise linear over the Canary's length table. -/
structure PrefillCost (K : Type) where
  points : List (ℕ × K)

namespace PrefillCost

def ofTable (table : Dict ℕ K) : PrefillCost K := ⟨table.sorted⟩

/-- Without a table (cold start, admission open) the cost is 0. -/
def empty : PrefillCost K := ⟨[]⟩

/-- The first segment that reaches `length`, else the last one extrapolated. -/
def along (length : ℕ) : List (ℕ × K) → K
  | a :: b :: rest =>
    if length ≤ b.1 then segment a b length
    else
      match rest with
      | [] => b.2 + (b.2 - a.2) * ((length : K) - b.1) / ((b.1 : K) - a.1)
      | _ :: _ => along length (b :: rest)
  | _ => 0

def cost (c : PrefillCost K) (length : ℕ) : K :=
  match c.points with
  | a :: b :: rest => if length ≤ a.1 then a.2 else along length (a :: b :: rest)
  | _ => 0

/-- `along` at any number. -/
def alongOf (x : K) : List (ℕ × K) → K
  | a :: b :: rest =>
    if x ≤ b.1 then segment a b x
    else
      match rest with
      | [] => b.2 + (b.2 - a.2) * (x - b.1) / ((b.1 : K) - a.1)
      | _ :: _ => alongOf x (b :: rest)
  | _ => 0

/-- The cost at any number: the source's call never asks for an integer, `cost` is its value at a length. -/
def costOf (c : PrefillCost K) (x : K) : K :=
  match c.points with
  | a :: b :: rest => if x ≤ a.1 then a.2 else alongOf x (a :: b :: rest)
  | _ => 0

end PrefillCost

/-- S(L) per P clock. -/
structure CostBook (K : Type) where
  costs : Dict ℕ (PrefillCost K)

namespace CostBook

/-- Only tables with two or more lengths count. -/
def ofTables (tables : Dict ℕ (Dict ℕ K)) : CostBook K :=
  ⟨Dict.ofList ((tables.items.filter fun e => 2 ≤ e.2.items.length).map fun e => (e.1, .ofTable e.2))⟩

/-- The measured clock that stands for `mhz`: the highest one, or the nearest at or below, or the lowest. -/
def nearest (keys : List ℕ) (mhz : Option ℕ) : Option ℕ :=
  match mhz with
  | none => keys.max?
  | some f =>
    match (keys.filter (· ≤ f)).max? with
    | some k => some k
    | none => keys.min?

/-- A clock without a table uses the nearest measured clock at or below it. -/
def forClock (b : CostBook K) (mhz : Option ℕ) : PrefillCost K :=
  ((nearest (b.costs.items.map (·.1)) mhz).bind fun k => b.costs.lookup k).getD .empty

end CostBook

/-! ### Linear solver -/

/-- Entry of a matrix kept as a list of rows. -/
def entry (m : List (List K)) (r c : ℕ) : K := (m.getD r []).getD c 0

/-- One column of the elimination: the largest remaining pivot, then every other row reduced. -/
def solveColumn (n : ℕ) (m : List (List K)) (col : ℕ) : Option (List (List K)) := do
  let pivot ← (List.range' col (n - col)).argmax fun r => |entry m r col|
  if |entry m pivot col| < 1 / 10 ^ 12 then none
  else
    let m := (m.set col (m.getD pivot [])).set pivot (m.getD col [])
    let top := m.getD col []
    some (m.mapIdx fun r row =>
      if r = col then row
      else row.zipWith (fun a b => a - entry m r col / entry m col col * b) top)

/-- `_solve`: Gauss-Jordan elimination with partial pivoting; `none` at a column without a pivot. -/
def solve (matrix : List (List K)) (vector : List K) : Option (List K) := do
  let n := vector.length
  let m ← (List.range n).foldlM (solveColumn n) (matrix.zipWith (fun row v => row ++ [v]) vector)
  some ((List.range n).map fun i => entry m i n / entry m i i)

/-! ### TTFT predictor -/

/-- The number of features: intercept, own cost, pending P work, KV in flight (GB), decoding. -/
def featureCount : ℕ := 5

/-- Linear TTFT model over the features, refitted on a sliding window of clean samples towards a prior. -/
structure TtftPredictor (K : Type) where
  hasPrior : Bool
  prior : List K
  coef : List K
  samples : List (List K × K)
  window : ℕ
  refitEvery : ℕ
  ridge : K
  /-- `none`: no clip. -/
  clipMs : Option K
  sinceFit : ℕ

namespace TtftPredictor

def fresh (clipMs : Option K) : TtftPredictor K where
  hasPrior := false
  prior := List.replicate featureCount 0
  coef := List.replicate featureCount 0
  samples := []
  window := 2000
  refitEvery := 50
  ridge := 50
  clipMs := clipMs
  sinceFit := 0

def features (sOwnMs pendingMs inflightBytes : K) (decoding : ℤ) : List K :=
  [1, sOwnMs, pendingMs, inflightBytes / 10 ^ 9, (decoding : K)]

def predict (p : TtftPredictor K) (x : List K) : K := (p.coef.zipWith (· * ·) x).sum

/-- Scale-aware ridge: (coef - prior) is penalised relative to each feature's spread. -/
def refit (p : TtftPredictor K) : TtftPredictor K :=
  let n := featureCount
  let ata (i j : ℕ) : K := (p.samples.map fun s => s.1.getD i 0 * s.1.getD j 0).sum
  let aty (i : ℕ) : K := (p.samples.map fun s => s.1.getD i 0 * s.2).sum
  let scale (i : ℕ) : K :=
    let q := ata i i / (max p.samples.length 1 : ℕ)
    if q = 0 then 1 else q
  let matrix := (List.range n).map fun i => (List.range n).map fun j =>
    if i = j then ata i j + p.ridge * scale i else ata i j
  let vector := (List.range n).map fun i => aty i + p.ridge * scale i * p.prior.getD i 0
  match solve matrix vector with
  | some coef => { p with coef }
  | none => p

/-- A new prior: the coefficients restart from it and the samples kept so far refit towards it. -/
def setPrior (p : TtftPredictor K) (prior : List K) : TtftPredictor K :=
  let p := { p with prior, coef := prior, hasPrior := true }
  if p.refitEvery ≤ p.samples.length then p.refit else p

def clipped (p : TtftPredictor K) (y : K) : K :=
  match p.clipMs with
  | none => y
  | some c => min y c

def record (p : TtftPredictor K) (x : List K) (ttftMs : K) : TtftPredictor K :=
  let p := { p with
    samples := keepLast p.window (p.samples ++ [(x, p.clipped ttftMs)])
    sinceFit := p.sinceFit + 1 }
  if p.hasPrior ∧ p.refitEvery ≤ p.sinceFit then { p with sinceFit := 0 }.refit else p

end TtftPredictor

/-! ### Slack risk -/

/-- Wilson upper confidence bound of a violation rate. -/
def wilsonUcb (violated n : ℤ) (z : K) : K :=
  if n = 0 then 1
  else
    let p : K := violated / n
    let d := 1 + z * z / n
    let c := p + z * z / (2 * n)
    let s := z * Scalar.sqrt (p * (1 - p) / n + z * z / (4 * n * n))
    (c + s) / d

/-- The default `z` of the bound. -/
def wilsonZ : K := 128 / 100

inductive SlackSource
  | observed
  | bounded
  | unknown
  deriving DecidableEq

structure SlackEstimate (K : Type) where
  bucket : ℕ
  risk : K
  samples : ℕ
  source : SlackSource

/-- Violation risk by predicted-slack bucket: production's own counts plus the Canary's seed. -/
structure SlackRisk (K : Type) where
  edges : List K
  minSamples : ℕ
  /-- bucket ↦ (admitted, violated) -/
  counts : Dict ℕ (ℕ × ℕ)
  seed : Dict ℕ (ℕ × ℕ)

namespace SlackRisk

def fresh (edgesMs : List K) (minSamples : ℕ) : SlackRisk K where
  edges := edgesMs.insertionSort (· ≤ ·)
  minSamples := minSamples
  counts := ∅
  seed := ∅

def setSeed (s : SlackRisk K) (counts : Dict ℕ (ℕ × ℕ)) : SlackRisk K := { s with seed := counts }

/-- Own and seed counts of a bucket. -/
def cell (s : SlackRisk K) (b : ℕ) : ℕ × ℕ :=
  let own := (s.counts.lookup b).getD (0, 0)
  let seed := (s.seed.lookup b).getD (0, 0)
  (own.1 + seed.1, own.2 + seed.2)

/-- Every bucket with counts, the highest first. -/
def bucketsDown (s : SlackRisk K) : List ℕ :=
  ((s.counts.items.map (·.1) ++ s.seed.items.map (·.1)).dedup).insertionSort (· ≥ ·)

/-- The lowest of the leading buckets whose bound is within the target. -/
def lowestSafe (s : SlackRisk K) (target : K) : List ℕ → Option ℕ → Option ℕ
  | [], safe => safe
  | b :: rest, safe =>
    if target < wilsonUcb (s.cell b).2 (s.cell b).1 wilsonZ then safe
    else lowestSafe s target rest (some b)

/-- Lowest predicted slack from which every observed bucket upwards has a bound within the target; a seed bucket beyond
    the edges has no lower edge. -/
def safeSlack (s : SlackRisk K) (target : K) : Option K :=
  match s.lowestSafe target (s.bucketsDown.filter fun b => s.minSamples ≤ (s.cell b).1) none with
  | none => none
  | some 0 => none
  | some (b + 1) => s.edges[b]?

def bucket (s : SlackRisk K) (slackMs : K) : ℕ := s.edges.countP (· ≤ slackMs)

def record (s : SlackRisk K) (slackMs : K) (violated : Bool) : SlackRisk K :=
  let b := s.bucket slackMs
  let c := (s.counts.lookup b).getD (0, 0)
  { s with counts := s.counts.insert b (c.1 + 1, c.2 + violated.toNat) }

/-- A sparse bucket is bounded by the nearest observed bucket with less slack. -/
def estimate (s : SlackRisk K) (slackMs : K) : SlackEstimate K :=
  let b := s.bucket slackMs
  let n := (s.cell b).1
  if s.minSamples ≤ n then ⟨b, wilsonUcb (s.cell b).2 n wilsonZ, n, .observed⟩
  else
    match (s.bucketsDown.filter (· < b)).find? fun c => s.minSamples ≤ (s.cell c).1 with
    | some c => ⟨b, wilsonUcb (s.cell c).2 (s.cell c).1 wilsonZ, (s.cell c).1, .bounded⟩
    | none => ⟨b, 1, n, .unknown⟩

end SlackRisk
end CanaTune

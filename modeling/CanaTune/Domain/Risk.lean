import CanaTune.Domain.Admission

/-! Online risk table R(clock point, N_await, L_in, D busy) for per-request admission. -/

namespace CanaTune
variable {K : Type} [Scalar K]

/-- Upper bucket edges: a value maps to the first edge at or above it, else to an overflow bucket. -/
structure Buckets where
  nAwait : List ℕ
  promptTokens : List ℕ
  nAwait_sorted : nAwait.Pairwise (· < ·)
  promptTokens_sorted : promptTokens.Pairwise (· < ·)

namespace Buckets

def nAwaitBucket (b : Buckets) (value : ℤ) : ℕ := bisectLeft b.nAwait value

def promptBucket (b : Buckets) (value : ℕ) : ℕ := bisectLeft b.promptTokens value

def rows (b : Buckets) : ℕ := b.nAwait.length + 1

def cols (b : Buckets) : ℕ := b.promptTokens.length + 1

end Buckets

/-- A clock point with a bucket of the queue, a bucket of the prompt, and whether D is busy. -/
structure Cell where
  clock : ClockPoint
  nAwait : ℕ
  prompt : ℕ
  dBusy : Bool
  deriving DecidableEq

structure CellStats where
  admitted : ℕ
  violated : ℕ

/-- Why a request was admitted outside the risk bound. -/
inductive Overflow
  | rescue
  | doomed
  | backfill
  | bestEffort
  deriving DecidableEq

/-- Where a risk comes from; `slack` and `overflow` are the Router's own. -/
inductive RiskSource
  | observed
  | heavierBound
  | pooledBound
  | unknown
  | slack (source : SlackSource)
  | overflow (kind : Overflow)
  deriving DecidableEq

structure RiskEstimate (K : Type) where
  risk : K
  source : RiskSource
  samples : ℕ

structure RiskTable where
  buckets : Buckets
  minSamples : ℕ
  minSamples_pos : 0 < minSamples
  cells : Dict Cell CellStats
  visits : Dict Cell ℕ

namespace RiskTable

def fresh (buckets : Buckets) (minSamples : ℕ) (h : 0 < minSamples) : RiskTable := ⟨buckets, minSamples, h, ∅, ∅⟩

def cell (t : RiskTable) (clock : ClockPoint) (nAwait : ℤ) (promptTokens : ℕ) (dBusy : Bool) : Cell :=
  ⟨clock, t.buckets.nAwaitBucket nAwait, t.buckets.promptBucket promptTokens, dBusy⟩

/-- The cell's own record, once it has enough samples. -/
def own (t : RiskTable) (c : Cell) : Option (RiskEstimate K) :=
  match t.cells.lookup c with
  | none => none
  | some stats =>
    if t.minSamples ≤ stats.admitted then
      some ⟨(stats.violated : K) / stats.admitted, .observed, stats.admitted⟩
    else none

/-- The cells of `c`'s clock over the given D states, rows and columns, without `c` itself. -/
def others (c : Cell) (ds : List Bool) (is js : List ℕ) : List Cell :=
  (ds.flatMap fun d => is.flatMap fun i => js.map fun j => (⟨c.clock, i, j, d⟩ : Cell)).filter (· ≠ c)

def lighterD (c : Cell) : List Bool := if c.dBusy then [false, true] else [false]

def heavierD (c : Cell) : List Bool := if c.dBusy then [true] else [false, true]

/-- No estimate goes below the largest well-sampled lighter risk. -/
def lower (t : RiskTable) (c : Cell) : K :=
  ((others c (lighterD c) (List.range (c.nAwait + 1)) (List.range (c.prompt + 1))).filterMap
    fun o => (t.own o : Option (RiskEstimate K)).map (·.risk)).foldl max 0

/-- The smallest well-sampled heavier risk. -/
def heavier (t : RiskTable) (c : Cell) : Option K :=
  ((others c (heavierD c) (List.range' c.nAwait (t.buckets.rows - c.nAwait))
    (List.range' c.prompt (t.buckets.cols - c.prompt))).filterMap
    fun o => (t.own o : Option (RiskEstimate K)).map (·.risk)).min?

/-- Samples and violations pooled over a region of `c`'s clock, sparse cells included. -/
def pooled (t : RiskTable) (c : Cell) (region : List (ℕ × ℕ)) : ℕ × ℕ :=
  ((heavierD c).flatMap fun d => region.filterMap fun ij => t.cells.lookup ⟨c.clock, ij.1, ij.2, d⟩).foldl
    (fun a s => (a.1 + s.admitted, a.2 + s.violated)) (0, 0)

/-- A region's pooled rate replaces the upper bound when it is smaller. -/
def pooledStep (t : RiskTable) (c : Cell) (acc : Option K × RiskSource) (region : List (ℕ × ℕ)) :
    Option K × RiskSource :=
  let (admitted, violated) := t.pooled c region
  if t.minSamples ≤ admitted then
    let rate : K := (violated : K) / admitted
    match acc.1 with
    | none => (some rate, .pooledBound)
    | some u => if rate < u then (some rate, .pooledBound) else acc
  else acc

/-- Own observation, bounded by monotonicity. -/
def estimate (t : RiskTable) (c : Cell) : RiskEstimate K :=
  let lower : K := t.lower c
  match (t.own c : Option (RiskEstimate K)) with
  | some own => ⟨max own.risk lower, own.source, own.samples⟩
  | none =>
    let rows := (List.range' c.prompt (t.buckets.cols - c.prompt)).map fun j => (c.nAwait, j)
    let cols := (List.range' c.nAwait (t.buckets.rows - c.nAwait)).map fun i => (i, c.prompt)
    match [rows, cols].foldl (t.pooledStep c) (t.heavier c, .heavierBound) with
    | (none, _) => ⟨1, .unknown, 0⟩
    | (some upper, source) => ⟨max upper lower, source, 0⟩

/-- The estimate of a state's cell; the visit is counted. -/
def lookup (t : RiskTable) (clock : ClockPoint) (nAwait : ℤ) (promptTokens : ℕ) (dBusy : Bool) :
    RiskEstimate K × RiskTable :=
  let c := t.cell clock nAwait promptTokens dBusy
  (t.estimate c, { t with visits := t.visits.insert c ((t.visits.lookup c).getD 0 + 1) })

def record (t : RiskTable) (c : Cell) (violated : Bool) : RiskTable :=
  let s := (t.cells.lookup c).getD ⟨0, 0⟩
  { t with cells := t.cells.insert c ⟨s.admitted + 1, s.violated + violated.toNat⟩ }

end RiskTable

/-- SLO outcome of one request; `none` when its TTFT is unknown. -/
def isViolation (ttftMs tpotMs : Option K) (ttftSloMs tpotSloMs : K) : Option Bool :=
  match ttftMs with
  | none => none
  | some ttft =>
    if ttftSloMs ≤ ttft then some true
    else
      match tpotMs with
      | none => some false
      | some tpot => some (decide (tpotSloMs < tpot))

end CanaTune

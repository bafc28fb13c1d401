import CanaTune.Domain.Models
import CanaTune.Domain.Risk

/-! P/D groups, the published tier table and the telemetry of each D.

A group is known by its position: the runtime names group `i` `G{i}`, the Canary first, and every
dictionary keyed by a group's name is keyed here by that position. -/

namespace CanaTune
variable {K : Type} [Scalar K]

/-- The admission parameters the Canary calibrated. -/
structure AdmissionCalibration (K : Type) where
  predictorCoef : List K
  slackCounts : Dict ℕ (ℕ × ℕ)
  kvGateFraction : Option K
  pSlotCap : Option ℤ
  kvGateBins : Dict ℕ (ℕ × ℕ)
  pSlotBins : Dict ℕ (ℕ × ℕ)

/-- What the Canary measured, as published with the table. -/
structure Evidence (K : Type) where
  prefillMsByClock : Dict ℕ (Dict ℕ K)
  /-- The MAX table of older tier tables. -/
  prefillMsByLength : Dict ℕ K
  idleTtftMs : Dict ℕ K
  admission : Option (AdmissionCalibration K)
  model : Option (ClusterModel K)
  capacityRps : Option K

/-- Tiers, capacities and the cluster model published by the Canary. -/
structure TierTable (K : Type) where
  park : ClockPoint
  h : ClockPoint
  capacityH : K
  alphaTokens : K
  l : Option ClockPoint
  /-- B*: clean D concurrency. -/
  decodeMaxRunning : Option ℤ
  /-- Admit only while D's KV usage is at most this. -/
  decodeKvLimit : Option K
  decodeLength : Option (Dict ℕ (DecodeCoef K))
  decodeKvTokens : Option ℕ
  publishedAt : K
  evidence : Evidence K

namespace TierTable

/-- `none`: no L tier is published. -/
def clocks (t : TierTable K) (tier : Tier) (maxPoint : ClockPoint) : Option ClockPoint :=
  match tier with
  | .max => some maxPoint
  | .park => some t.park
  | .l => t.l
  | .h => some t.h

/-- The length model, when it has a clock. -/
def lengthModel (t : TierTable K) : Option (Dict ℕ (DecodeCoef K)) :=
  t.decodeLength.filter fun m => decide (m.items ≠ [])

end TierTable

/-- What the Router, Controller and Canary share: the highest clocks, the table in force (`none`: cold
    start) and the working point the solver chose. -/
structure TierState (K : Type) where
  maxPoint : ClockPoint
  table : Option (TierTable K)
  working : Option ClockPoint

namespace TierState

def alphaTokens (t : TierState K) : K := (t.table.map (·.alphaTokens)).getD 0

def clocks (t : TierState K) (tier : Tier) : Option ClockPoint :=
  match t.table with
  | none => some t.maxPoint
  | some table =>
    match tier, t.working with
    | .h, some point => some point
    | tier, _ => table.clocks tier t.maxPoint

def modelJson (t : TierState K) : Option (ClusterModel K) := t.table.bind (·.evidence.model)

end TierState

/-- Mutable runtime view of one fixed (P_i, D_i) pair. `effective` is the clock point the Router may
    assume (`none` while parking or waking). -/
structure Group (K : Type) where
  canary : Bool
  state : GroupState
  tier : Tier
  effective : Option ClockPoint
  nAwait : ℤ
  tAwait : ℤ
  nInflight : ℤ
  /-- Sent to P, P not returned yet. -/
  nAtP : ℤ
  /-- Sum of their single-request prefill cost S(L). -/
  pendingMs : K
  /-- KV of requests between P's return and the first token. -/
  inflightBytes : K
  /-- First token out, not finished. -/
  nDecoding : ℤ
  admissions : List (K × ℕ)

namespace Group

/-- A pair before any clock is confirmed. -/
def fresh (canary : Bool) : Group K where
  canary := canary
  state := .active
  tier := .max
  effective := none
  nAwait := 0
  tAwait := 0
  nInflight := 0
  nAtP := 0
  pendingMs := 0
  inflightBytes := 0
  nDecoding := 0
  admissions := []

def routable (g : Group K) : Bool := g.state == .active && g.effective.isSome

/-- The effective point of a routable group (asserted by its callers). -/
def clock (g : Group K) : ClockPoint := g.effective.getD ⟨0, 0⟩

def trim (g : Group K) (now windowS : K) : Group K :=
  { g with admissions := g.admissions.dropWhile fun e => decide (e.1 < now - windowS) }

def recordAdmission (g : Group K) (now : K) (promptTokens : ℕ) (windowS : K) : Group K :=
  { g with admissions := g.admissions ++ [(now, promptTokens)] }.trim now windowS

end Group

/-- The latest scrape of one D. -/
structure EndpointSnapshot (K : Type) where
  takenAt : K
  running : Option K
  waiting : Option K
  kvUsage : Option K
  ok : Bool

/-- Latest snapshot of each group's D. -/
structure Telemetry (K : Type) (n : ℕ) where
  latest : Fin n → Option (EndpointSnapshot K)

namespace Telemetry
variable {n : ℕ}

def fresh (t : Telemetry K n) (decode : Fin n) (maxAgeS now : K) : Option (EndpointSnapshot K) :=
  match t.latest decode with
  | none => none
  | some s => if !s.ok || decide (maxAgeS < now - s.takenAt) then none else some s

end Telemetry
end CanaTune

import CanaTune.Controller.ProbeWindows
import CanaTune.Domain.Calibration

/-! Admission parameters from the Canary's own windows: the predictor's coefficients, the seed of the slack risk, the KV
    gate and the P slot cap. -/

namespace CanaTune
variable {K : Type} [Scalar K]

namespace TtftPredictor

/-- `TtftPredictor(prior, clip_ms=…)`, with the defaults of the rest. -/
def withPrior (prior : Option (List K)) (clipMs : Option K) : TtftPredictor K :=
  match prior with
  | none => .fresh clipMs
  | some c => { TtftPredictor.fresh clipMs with hasPrior := true, prior := c, coef := c }

/-- The predictor that `fit` builds and refits. -/
def probe (p : TtftPredictor K) (samples : List (List K × K)) : TtftPredictor K :=
  { withPrior (if p.hasPrior then some p.prior else none) p.clipMs with
    samples := samples.map fun s => (s.1, p.clipped s.2)
    window := max samples.length 1
    ridge := if p.hasPrior then 5 else 1 / 10 ^ 6 }

/-- Towards the prior when there is one, else plain least squares; the predictor itself is not changed. -/
def fit (p : TtftPredictor K) (samples : List (List K × K)) : List K :=
  if samples = [] then (p.probe samples).coef else (p.probe samples).refit.coef

end TtftPredictor

/-- The sum of the products of a fit's coefficients with the features. -/
def fitted (coef x : List K) : K := (coef.zipWith (· * ·) x).sum

/-- `_features`. -/
def sampleFeatures (costs : CostBook K) (kvBytesPerToken : K) (s : ProbeSample K) : List K :=
  let cost := (costs.forClock (some s.prefillMhz)).costOf
  TtftPredictor.features (cost s.promptTokens) (s.atPrefill.map fun (n : ℤ) => cost n).sum
    (s.inflightTokens * kvBytesPerToken) s.decoding

/-- `_at_or_above`: the samples sent at P clocks from `prefillMhz` up; all of them when those are too few. -/
def atOrAbove (samples : List (ProbeSample K)) (prefillMhz : Option ℕ) (minSamples : ℕ) : List (ProbeSample K) :=
  match prefillMhz with
  | none => samples
  | some f =>
    let kept := samples.filter fun s => f ≤ s.prefillMhz
    if 2 * minSamples ≤ kept.length then kept else samples

/-- The counts of the samples whose outcome is known, each in its bin. -/
def kneeCounts (bin : ProbeSample K → ℕ) (samples : List (ProbeSample K)) : KneeCounts :=
  samples.foldl (fun c s => s.violated.elim c fun v => c.record (bin s) v) (.ofSeed ∅)

inductive KneeSource
  | none
  | buffer
  | measured
  deriving DecidableEq

/-- Share of the receive buffer in flight up to which violations stay within `theta`; without a receive buffer no gate. -/
def kvGateFraction (samples : List (ProbeSample K)) (kvBytesPerToken : K) (bufferBytes : Option K) (theta : K)
    (minSamples : ℕ) : Option K × KneeSource × List BinCount :=
  match bufferBytes with
  | none => (none, .none, [])
  | some buffer =>
    let counts := kneeCounts (fun s => kvGateBin (s.inflightTokens * kvBytesPerToken) buffer) samples
    match counts.knee theta minSamples with
    | none => (some 1, .buffer, counts.counts)
    | some b => (some (gateOfBin b), .measured, counts.counts)

/-- A group takes a request while fewer than the cap are at its P. -/
def pSlotCap (samples : List (ProbeSample K)) (theta : K) (minSamples : ℕ) : Option ℕ × KneeSource × List BinCount :=
  let counts := kneeCounts (fun s => pSlotBin s.atPrefill.length) samples
  match counts.knee theta minSamples with
  | none => (none, .none, counts.counts)
  | some b => (some (max 1 b), .measured, counts.counts)

/-- `evidence["admission"]`. -/
structure AdmissionEvidence (K : Type) where
  samples : ℕ
  fitSamples : ℕ
  violations : ℕ
  predictorCoef : List K
  predictorPrior : Option (List K)
  residualMsRms : K
  slackCounts : List (ℕ × ℕ × ℕ)
  kvGateFraction : Option K
  kvGateSource : KneeSource
  kvGateBins : List BinCount
  pSlotCap : Option ℕ
  pSlotSource : KneeSource
  pSlotBins : List BinCount
  kneeSamples : ℕ

/-- Every other element: `rows[0::2]`, and `rows[1::2]` of the tail. -/
def everyOther {α : Type} : List α → List α
  | [] => []
  | [a] => [a]
  | a :: _ :: rest => a :: everyOther rest

def halfOf {α : Type} (odd : Bool) (l : List α) : List α := everyOther (if odd then l.tail else l)

def cleanSamples (samples : List (ProbeSample K)) : List (ProbeSample K) :=
  samples.filter fun s => s.ttftMs.isSome && s.violated.isSome

/-- What the calibration is asked for; the predictor takes a prior of its features only. -/
structure AdmissionAsk (K : Type) where
  prior : Option (List K)
  priorLength : ∀ c ∈ prior, c.length = featureCount
  ttftSloMs : K
  theta : K
  kvBytesPerToken : K
  bufferBytes : Option K
  minSamples : ℕ := 20
  prefillMhz : Option ℕ

namespace AdmissionAsk
variable (a : AdmissionAsk K) (costs : CostBook K)

/-- A clean sample's features and TTFT. -/
def row (s : ProbeSample K) : List K × K := (sampleFeatures costs a.kvBytesPerToken s, s.ttftMs.getD 0)

/-- The region where admission decides, to which the linear model is fitted. -/
def isNear (row : List K × K) : Bool := row.2 ≤ 2 * a.ttftSloMs

def base : TtftPredictor K := .withPrior a.prior (some (2 * a.ttftSloMs))

/-- Each half is predicted by the fit on the other half. -/
def recordHalf (clean : List (ProbeSample K)) (slack : SlackRisk K) (odd : Bool) : SlackRisk K :=
  let fold := a.base.fit ((halfOf (!odd) (clean.map (a.row costs))).filter a.isNear)
  ((halfOf odd (clean.map (a.row costs))).zip (halfOf odd clean)).foldl (fun slack e =>
    slack.record (a.ttftSloMs - fitted fold e.1.1) (e.2.violated.getD false)) slack

/-- `calibrate_admission`: nothing without enough clean samples. -/
def calibrateAdmission (samples : List (ProbeSample K)) : Option (AdmissionEvidence K) :=
  let clean := cleanSamples samples
  if clean.length < 2 * a.minSamples then none
  else
    let near := (clean.map (a.row costs)).filter a.isNear
    if near.length < 2 * a.minSamples then none
    else
      let coef := a.base.fit near
      let slack := [false, true].foldl (a.recordHalf costs clean) (.fresh (slackEdges a.ttftSloMs) a.minSamples)
      let knees := atOrAbove clean a.prefillMhz a.minSamples
      let gate := kvGateFraction knees a.kvBytesPerToken a.bufferBytes a.theta a.minSamples
      let slot := pSlotCap knees a.theta a.minSamples
      let residuals := near.map fun e => e.2 - fitted coef e.1
      some {
        samples := clean.length
        fitSamples := near.length
        violations := clean.countP fun s => s.violated = some true
        predictorCoef := coef.map (Scalar.roundTo 4)
        predictorPrior := a.prior.map fun prior => prior.map (Scalar.roundTo 4)
        residualMsRms := Scalar.roundTo 1 (Scalar.sqrt ((residuals.map fun r => r * r).sum / residuals.length))
        slackCounts := slack.counts.sorted
        kvGateFraction := gate.1
        kvGateSource := gate.2.1
        kvGateBins := gate.2.2
        pSlotCap := slot.1
        pSlotSource := slot.2.1
        pSlotBins := slot.2.2
        kneeSamples := knees.length }

end AdmissionAsk
end CanaTune

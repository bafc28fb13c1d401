import CanaTune.Lib.Dict

/-! Request length statistics for probe generation and shift detection. -/

namespace CanaTune
variable {K : Type} [Scalar K]

structure LengthSummary (K : Type) where
  samples : ℕ
  promptP90 : K
  outputP90 : K
  promptMean : K
  outputMean : K

namespace LengthSummary

/-- Relative change of any mean or p90 above the threshold. -/
def shifted (a b : LengthSummary K) (threshold : K) : Bool :=
  [(a.promptMean, b.promptMean), (a.promptP90, b.promptP90),
    (a.outputMean, b.outputMean), (a.outputP90, b.outputP90)].any
    fun e => decide (threshold < |e.1 - e.2| / max e.2 1)

end LengthSummary

/-- The value at rank `round(q (n - 1))` of the sorted list. -/
def quantile (values : List ℕ) (q : K) : K :=
  let ordered := values.insertionSort (· ≤ ·)
  let last : ℤ := (ordered.length : ℤ) - 1
  ((ordered.getD (min last (max 0 (Scalar.roundEven (q * (last : K))))).toNat 0 : ℕ) : K)

/-- Bounded window of recent (prompt, output) lengths; the default pairs stand in until there are enough. -/
structure LengthStats where
  default : List (ℕ × ℕ)
  default_ne_nil : default ≠ []
  default_pos : ∀ e ∈ default, 1 ≤ e.1 ∧ 1 ≤ e.2
  keep : ℕ
  minSamples : ℕ
  recent : List (ℕ × ℕ)

namespace LengthStats

def record (s : LengthStats) (promptTokens outputTokens : ℕ) : LengthStats :=
  if promptTokens < 1 ∨ outputTokens < 1 then s
  else { s with recent := keepLast s.keep (s.recent ++ [(promptTokens, outputTokens)]) }

def pairs (s : LengthStats) : List (ℕ × ℕ) :=
  if s.minSamples ≤ s.recent.length then s.recent else s.default

def usingDefault (s : LengthStats) : Bool := decide (s.recent.length < s.minSamples)

def summary (s : LengthStats) : LengthSummary K where
  samples := s.pairs.length
  promptP90 := quantile (s.pairs.map (·.1)) (9 / 10)
  outputP90 := quantile (s.pairs.map (·.2)) (9 / 10)
  promptMean := ((s.pairs.map (·.1)).sum : ℕ) / (s.pairs.length : K)
  outputMean := ((s.pairs.map (·.2)).sum : ℕ) / (s.pairs.length : K)

end LengthStats
end CanaTune

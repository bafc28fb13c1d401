import CanaTune.Domain.Admission

/-! Violation counts per bin of a congestion signal, and the knee they show. -/

namespace CanaTune
variable {K : Type} [Scalar K]

/-- The gate in tenths of the receive buffer. -/
def kvGateBins : ℤ := 10

/-- Requests at P are counted up to this; more share the last bin. -/
def pSlotBins : ℤ := 32

def kvGateBin (inflightBytes bufferBytes : K) : ℕ :=
  (max 0 (min (kvGateBins - 1) (Scalar.toInt (inflightBytes / bufferBytes * kvGateBins)))).toNat

def gateOfBin (b : ℕ) : K := max (1 / (kvGateBins : K)) (b / kvGateBins)

def pSlotBin (atPrefill : ℤ) : ℕ := (max 0 (min (pSlotBins - 1) atPrefill)).toNat

/-- Requests and violations of one bin. -/
structure BinCount where
  bin : ℕ
  n : ℕ
  k : ℕ

/-- A seed (the Canary's counts) plus what production records later: bin ↦ (requests, violations). -/
structure KneeCounts where
  seed : Dict ℕ (ℕ × ℕ)
  live : Dict ℕ (ℕ × ℕ)

namespace KneeCounts

def ofSeed (seed : Dict ℕ (ℕ × ℕ)) : KneeCounts := ⟨seed, ∅⟩

def record (c : KneeCounts) (b : ℕ) (violated : Bool) : KneeCounts :=
  let old := (c.live.lookup b).getD (0, 0)
  { c with live := c.live.insert b (old.1 + 1, old.2 + violated.toNat) }

/-- Seed and live counts together, the lowest bin first. -/
def counts (c : KneeCounts) : List BinCount :=
  let all := c.live.items.foldl (fun (d : Dict ℕ (ℕ × ℕ)) e =>
    let old := (d.lookup e.1).getD (0, 0)
    d.insert e.1 (old.1 + e.2.1, old.2 + e.2.2)) c.seed
  all.sorted.map fun e => ⟨e.1, e.2.1, e.2.2⟩

/-- Bins merged upwards until the block holds `minSamples`: its requests, violations and bins. -/
def mergeBlock (minSamples : ℕ) : ℕ → ℕ → List BinCount → ℕ × ℕ × List BinCount
  | n, k, [] => (n, k, [])
  | n, k, c :: rest =>
    if minSamples ≤ n + c.n then (n + c.n, k + c.k, [c])
    else
      let (n', k', block) := mergeBlock minSamples (n + c.n) (k + c.k) rest
      (n', k', c :: block)

/-- The knee at or above the head of the list, given the counts of all bins below. -/
def kneeFrom (theta : K) (minSamples : ℕ) : ℕ → ℕ → List BinCount → Option ℕ
  | _, _, [] => none
  | headN, headK, b :: rest =>
    let (n, k, block) := mergeBlock minSamples 0 0 (b :: rest)
    if n < minSamples then none
    else
      let lower : K := 1 - wilsonUcb ((n : ℤ) - k) n wilsonZ
      let floor := max theta (if headN = 0 then 0 else (headK : K) / headN)
      if floor < lower then
        some (((block.find? fun c => floor * c.n < c.k).map (·.bin)).getD b.bin)
      else kneeFrom theta minSamples (headN + b.n) (headK + b.k) rest

/-- The lowest bin from which requests violate clearly more than `theta` and more than below it. -/
def knee (c : KneeCounts) (theta : K) (minSamples : ℕ) : Option ℕ :=
  match c.counts with
  | [] => none
  | b :: rest => kneeFrom theta minSamples b.n b.k rest

end KneeCounts
end CanaTune

import CanaTune.Domain.Admission
import CanaTune.Lib.Json

/-! The locator's prefill tables: S(L) per P clock, and what becomes of tables that contradict each other. -/

namespace CanaTune
variable {K : Type} [Scalar K]

/-! ### Measurements -/

/-- One single-request measurement: prompt tokens, service time and, if it had a token, TTFT. -/
structure ServiceSample (K : Type) where
  tokens : ℕ
  ms : K
  ttft : Option K

/-- `_medians`: the upper median of each length. -/
def medians (samples : List (ℕ × K)) : Dict ℕ K :=
  let byLength : Dict ℕ (List K) := samples.foldl (fun d e => d.insert e.1 ((d.lookup e.1).getD [] ++ [e.2])) ∅
  byLength.mapValues fun _ v => (v.insertionSort (· ≤ ·)).getD (v.length / 2) 0

/-- Probe lengths plus a geometric ladder 16, 64, 256, ... below the longest. -/
def serviceLengths (prompts extra : List ℕ) : Except PyError (List ℕ) :=
  match prompts.max? with
  | none => .error .value
  | some top =>
    let ladder := if extra = [] then ((List.range top).map fun i => 16 * 4 ^ i).takeWhile (· < top) else extra
    .ok ((prompts ++ ladder.filter (· ≤ top)).dedup.insertionSort (· ≤ ·))

/-- What a measurement gave, and when. -/
structure Cached (K : Type) where
  result : List (ServiceSample K)
  measuredAt : K

structure LocatorSettings (K : Type) where
  eps : K
  serviceLengths : List ℕ
  serviceRepeats : ℕ
  cacheTtlS : K

/-- The clocks measured again, and those that took the envelope. -/
structure Consistency where
  remeasured : List ℕ
  envelope : List ℕ

structure LocatorEvidence (K : Type) where
  prefillMsByClock : Dict ℕ (Dict ℕ K)
  idleTtftMs : Dict ℕ K
  residenceMsByLength : Dict ℕ K
  prefillConsistency : Option Consistency

/-- The locator's part of one run that the prefill tables concern. -/
structure Locator (K : Type) where
  settings : LocatorSettings K
  cache : Dict (ClockPoint × List ℕ) (Cached K)
  now : K
  windows : ℕ
  reused : ℕ
  evidence : LocatorEvidence K

/-- The pair under test: it measures the lengths at a clock, or raises. -/
abbrev Backend (K : Type) := ClockPoint → List ℕ → Except PyError (Cached K)

namespace Locator

/-- A measurement young enough is used again. -/
def cached (l : Locator K) (key : ClockPoint × List ℕ) (measure : Except PyError (Cached K)) :
    Except PyError (List (ServiceSample K) × Locator K) :=
  match (l.cache.lookup key).filter fun hit => decide (l.now - hit.measuredAt ≤ l.settings.cacheTtlS) with
  | some hit => .ok (hit.result, { l with reused := l.reused + 1 })
  | none => do
    let m ← measure
    return (m.result, { l with cache := l.cache.insert key m, now := m.measuredAt, windows := l.windows + 1 })

/-- `dict(_medians(...)) or old`. -/
def mediansOr (samples : List (ℕ × K)) (old : Dict ℕ K) : Dict ℕ K :=
  if (medians samples).items = [] then old else medians samples

/-- Single-request S(L) at `clock`; `fresh` measures again, `idle` also refreshes the idle TTFT and residence. -/
def prefillTable (l : Locator K) (clock : ClockPoint) (prompts : List ℕ) (fresh idle : Bool) (backend : Backend K) :
    Except PyError (Locator K) := do
  let lengths ← serviceLengths prompts l.settings.serviceLengths
  let l := if fresh then { l with cache := l.cache.erase (clock, lengths) } else l
  let measure := backend clock (List.replicate l.settings.serviceRepeats lengths).flatten
  let (samples, l) ← l.cached (clock, lengths) measure
  let table := medians (samples.map fun s => (s.tokens, s.ms))
  let ev := { l.evidence with prefillMsByClock := l.evidence.prefillMsByClock.insert clock.prefillMhz table }
  let ev := if idle then
      { ev with
        idleTtftMs := mediansOr (samples.filterMap fun s => s.ttft.map fun t => (s.tokens, t)) ev.idleTtftMs
        residenceMsByLength :=
          mediansOr (samples.filterMap fun s => s.ttft.map fun t => (s.tokens, t - s.ms)) ev.residenceMsByLength }
    else ev
  return { l with evidence := ev }

/-- The locator's own Wilson bound of a violation rate, cut at 1. -/
def wilsonUcb (k n : ℤ) (z : K) : K :=
  if n ≤ 0 then 1
  else
    let p : K := k / n
    let den := 1 + z * z / n
    let centre := p + z * z / (2 * n)
    let half := z * Scalar.sqrt (p * (1 - p) / n + z * z / (4 * n * n))
    min 1 ((centre + half) / den)

/-! ### Contradicting tables -/

/-- The higher clock's table is slower than the lower one's, beyond `eps`, at some length. -/
def contradicts (eps : K) (lo hi : Dict ℕ K) : Bool :=
  hi.items.any fun e => (lo.lookup e.1).any fun ms => decide ((1 + eps) * ms < e.2)

/-- The clocks of each pair that contradicts, from the lowest clock up. -/
def conflictsFrom (eps : K) : List (ℕ × Dict ℕ K) → List ℕ
  | [] => []
  | lo :: above =>
    ((above.filter fun hi => contradicts eps lo.2 hi.2).flatMap fun hi => [lo.1, hi.1]) ++ conflictsFrom eps above

/-- Clocks whose S(L) contradict each other, sorted. -/
def tableConflicts (tables : Dict ℕ (Dict ℕ K)) (eps : K) : List ℕ :=
  (conflictsFrom eps tables.sorted).dedup.insertionSort (· ≤ ·)

/-- No entry above the lower clock's. -/
def lowerTo (t lo : Dict ℕ K) : Dict ℕ K := t.mapValues fun L ms => (lo.lookup L).elim ms (min ms)

/-- Each table below all that come before it, `lower` the lower clocks' as they are by then. -/
def envelopeFrom : List (Dict ℕ K) → List (ℕ × Dict ℕ K) → List (ℕ × Dict ℕ K)
  | _, [] => []
  | lower, (f, t) :: above =>
    let t := lower.foldl lowerTo t
    (f, t) :: envelopeFrom (lower ++ [t]) above

/-- A higher clock is at least as fast. -/
def envelope (tables : Dict ℕ (Dict ℕ K)) : Dict ℕ (Dict ℕ K) := Dict.ofList (envelopeFrom [] tables.sorted)

/-- Contradicting clocks are measured once more; what still contradicts takes the envelope of the lower clocks. -/
def consistentTables (l : Locator K) (top : ClockPoint) (prompts : List ℕ) (backend : Backend K) :
    Except PyError (Locator K) := do
  let bad := tableConflicts l.evidence.prefillMsByClock l.settings.eps
  let l ← bad.foldlM (fun l f =>
    let clock := if f = top.prefillMhz then top else ⟨f, top.decodeMhz⟩
    l.prefillTable clock prompts true (decide (clock = top)) backend) l
  let tables := l.evidence.prefillMsByClock
  let left := tableConflicts tables l.settings.eps
  return { l with evidence :=
    { l.evidence with
      prefillMsByClock := if left = [] then tables else envelope tables
      prefillConsistency := some ⟨bad, left⟩ } }

end Locator
end CanaTune

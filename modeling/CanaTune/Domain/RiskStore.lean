import CanaTune.Domain.Risk
import CanaTune.Domain.Stored

/-! The risk table in its file, and what else is read from the table: usable clocks and the cells worth exploring. -/

namespace CanaTune
variable {K : Type} [Scalar K]

/-! ### Equality of Python values -/

namespace PyValue

/-- The number that a value compares as. -/
def number? : PyValue K → Option K
  | bool b => some (if b then 1 else 0)
  | int z => some z
  | float x => some x
  | _ => Option.none

mutual

/-- `v == w`: numbers by value, dictionaries by key. -/
def eqv : PyValue K → PyValue K → Bool
  | none, none => true
  | str s, str t => s == t
  | list xs, list ys => eqvItems xs ys
  | dict es, dict fs => es.length == fs.length && eqvEntries es fs
  | v, w =>
    match v.number?, w.number? with
    | some x, some y => x == y
    | _, _ => false

def eqvItems : List (PyValue K) → List (PyValue K) → Bool
  | [], [] => true
  | v :: vs, w :: ws => eqv v w && eqvItems vs ws
  | _, _ => false

def eqvEntries : List (Key × PyValue K) → List (Key × PyValue K) → Bool
  | [], _ => true
  | (k, v) :: es, fs => (match fs.lookup k with
    | some w => eqv v w
    | Option.none => false) && eqvEntries es fs

end

/-- `value.get(name, default)`. -/
def getOr (v : PyValue K) (name : String) (default : PyValue K) : Except PyError (PyValue K) := do
  let entries ← v.items
  return (entries.lookup (.str name)).getD default

end PyValue

/-! ### Cells in text -/

/-- A cell as Python holds it: its clock is a text. -/
structure NamedCell where
  clock : String
  nAwait : ℤ
  prompt : ℤ
  dBusy : Bool
  deriving DecidableEq

namespace NamedCell

/-- `f"{clock}|{n_await}|{prompt}|{int(d_busy)}"`. -/
def key (c : NamedCell) : String :=
  c.clock ++ "|" ++ c.nAwait.repr ++ "|" ++ c.prompt.repr ++ "|" ++ (if c.dBusy then "1" else "0")

/-- `clock, n_await, prompt, d_busy = key.split("|")`. -/
def fromKey (key : String) : Except PyError NamedCell :=
  match (key.toList.splitOn '|').map String.ofList with
  | [clock, nAwait, prompt, dBusy] => do
    let nAwait ← (Key.str nAwait).toInt
    let prompt ← (Key.str prompt).toInt
    return ⟨clock, nAwait, prompt, dBusy == "1"⟩
  | _ => .error .value

/-- The cell that is looked up under this name; under any other spelling of a clock none is. -/
def cell? (c : NamedCell) : Option Cell :=
  match ClockPoint.fromKey c.clock with
  | .ok point =>
    if point.key = c.clock ∧ 0 ≤ c.nAwait ∧ 0 ≤ c.prompt then
      some ⟨point, c.nAwait.toNat, c.prompt.toNat, c.dBusy⟩
    else none
  | .error _ => none

end NamedCell

namespace Cell

def named (c : Cell) : NamedCell := ⟨c.clock.key, c.nAwait, c.prompt, c.dBusy⟩

def key (c : Cell) : String := c.named.key

end Cell

/-! ### The table -/

/-- A cell worth exploring. -/
structure ExplorationCandidate (K : Type) where
  cell : String
  visits : ℕ
  samples : ℕ
  risk : K
  source : RiskSource
  nearBoundary : Bool

inductive RiskTableError
  | schema
  | identity
  | buckets
  | python (error : PyError)
  deriving DecidableEq

namespace RiskTable
open PyValue

/-- At least one cell of the clock point is well sampled and safe. -/
def clockUsable (t : RiskTable) (clock : ClockPoint) (theta : K) : Bool :=
  t.cells.items.any fun e => decide (e.1.clock.key = clock.key) && decide (t.minSamples ≤ e.2.admitted) &&
    decide ((e.2.violated : K) / e.2.admitted ≤ theta)

/-- A visited cell without enough samples of its own. -/
def candidate (t : RiskTable) (theta : K) (c : Cell) (visits : ℕ) : Option (ExplorationCandidate K) :=
  let samples := ((t.cells.lookup c).map (·.admitted)).getD 0
  if (t.cells.lookup c).any fun s => decide (t.minSamples ≤ s.admitted) then none
  else
    let estimate : RiskEstimate K := t.estimate c
    some ⟨c.key, visits, samples, estimate.risk, estimate.source, decide (|estimate.risk - theta| ≤ 1 / 10)⟩

/-- The Canary's exploration queue, most visited first and then those near the boundary. -/
def explorationCandidates (t : RiskTable) (theta : K) : List (ExplorationCandidate K) :=
  (t.visits.items.filterMap fun e => t.candidate theta e.1 e.2).insertionSort fun a b =>
    b.visits < a.visits ∨ (a.visits = b.visits ∧ (b.nearBoundary → a.nearBoundary))

/-! ### Persistence -/

def schemaVersion : ℤ := 1

def statsValue (s : CellStats) : PyValue K := .dict [(.str "admitted", .int s.admitted), (.str "violated", .int s.violated)]

def cellsByKey (t : RiskTable) : Dict String CellStats :=
  Dict.ofList ((t.cells.items.insertionSort fun a b => a.1.key ≤ b.1.key).map fun e => (e.1.key, e.2))

def visitsByKey (t : RiskTable) : Dict String ℕ := Dict.ofList (t.visits.items.map fun e => (e.1.key, e.2))

def bucketsValue (b : Buckets) : PyValue K :=
  .dict [(.str "n_await_edges", ofList (fun e : ℕ => .int e) b.nAwait),
    (.str "prompt_token_edges", ofList (fun e : ℕ => .int e) b.promptTokens)]

def entries (t : RiskTable) (identity : PyValue K) : List (Key × PyValue K) :=
  [(.str "schema_version", .int schemaVersion), (.str "identity", identity), (.str "buckets", bucketsValue t.buckets),
    (.str "cells", ofNames statsValue t.cellsByKey), (.str "visits", ofNames (fun n : ℕ => .int n) t.visitsByKey)]

def toJson (t : RiskTable) (identity : PyValue K) : PyValue K := .dict (t.entries identity)

/-- `int(value["admitted"]), int(value["violated"])`. -/
def readStats (v : PyValue K) : Except PyError CellStats := do
  let admitted ← (← v.getItem "admitted").toInt
  let violated ← (← v.getItem "violated").toInt
  return ⟨admitted.toNat, violated.toNat⟩

def readVisits (v : PyValue K) : Except PyError ℕ := do
  let n ← v.toInt
  return n.toNat

/-- Values read under the names of cells replace those of the table. -/
def merge {α : Type} (d : Dict Cell α) (entries : List (String × α)) : Except PyError (Dict Cell α) :=
  entries.foldlM (fun d e => do
    let named ← NamedCell.fromKey e.1
    return named.cell?.elim d fun c => d.insert c e.2) d

/-- An exception of the runtime leaves as it is. -/
def python {α : Type} (x : Except PyError α) : Except RiskTableError α := x.mapError .python

/-- Counts from a file; one of another schema, identity or buckets is refused. -/
def load (t : RiskTable) (identity : PyValue K) (raw : PyValue K) : Except RiskTableError RiskTable := do
  let schema ← python (raw.get "schema_version")
  if !schema.eqv (.int schemaVersion) then throw .schema
  let written ← python (raw.get "identity")
  if !written.eqv identity then throw .identity
  let buckets ← python (raw.getOr "buckets" (.dict []))
  let nAwait ← python (buckets.getOr "n_await_edges" (.list []))
  let promptTokens ← python (buckets.getOr "prompt_token_edges" (.list []))
  if !(nAwait.eqv (ofList (fun e : ℕ => .int e) t.buckets.nAwait)) ||
      !(promptTokens.eqv (ofList (fun e : ℕ => .int e) t.buckets.promptTokens)) then throw .buckets
  let stats ← python (readDict Key.toStr readStats (← python (raw.getOr "cells" (.dict []))))
  let cells ← python (merge t.cells stats.items)
  let counts ← python (readDict Key.toStr readVisits (← python (raw.getOr "visits" (.dict []))))
  let visits ← python (merge t.visits counts.items)
  return { t with cells, visits }

end RiskTable
end CanaTune

import CanaTune.Domain.Admission

/-! `_solve` with its row objects. A row is known by the order it was made in; the elimination makes new rows and writes
    only into its own list of them, and each of its divisions may fail. -/

namespace CanaTune
variable {K : Type} [Scalar K]

/-- The row objects made so far. -/
abbrev RowStore (K : Type) := List (List K)

inductive SolveError
  | zeroDivision
  deriving DecidableEq

/-- Division of Python numbers. -/
def divide (a b : K) : Except SolveError K := if b = 0 then .error .zeroDivision else .ok (a / b)

namespace RowStore

/-- The row behind a reference. -/
def row (s : RowStore K) (a : ℕ) : List K := s.getD a []

/-- The matrix behind a list of references. -/
def table (s : RowStore K) (m : List ℕ) : List (List K) := m.map s.row

/-- `row[:] + [vector[i]]`, a new object for each row. -/
def augment (s : RowStore K) : List (ℕ × K) → List ℕ × RowStore K
  | [] => ([], s)
  | (a, v) :: rest =>
    let (m, t) := augment (s ++ [s.row a ++ [v]]) rest
    (s.length :: m, t)

/-- One pass of the inner loop: row `r` is replaced by a new object. -/
def reduceRow (col : ℕ) (state : List ℕ × RowStore K) (r : ℕ) : Except SolveError (List ℕ × RowStore K) := do
  let (m, s) := state
  if r = col then return (m, s)
  else
    let f ← divide (entry (s.table m) r col) (entry (s.table m) col col)
    let reduced := ((s.table m).getD r []).zipWith (fun a b => a - f * b) ((s.table m).getD col [])
    return (m.set r s.length, s ++ [reduced])

/-- The outer loop over the columns that are left. -/
def eliminate (n : ℕ) : List ℕ → List ℕ × RowStore K → Except SolveError (Option (List ℕ) × RowStore K)
  | [], (m, s) => .ok (some m, s)
  | col :: cols, (m, s) =>
    match (List.range' col (n - col)).argmax fun r => |entry (s.table m) r col| with
    | none => .ok (none, s)
    | some pivot =>
      if |entry (s.table m) pivot col| < 1 / 10 ^ 12 then .ok (none, s)
      else do
        let swapped := (m.set col (m.getD pivot 0)).set pivot (m.getD col 0)
        let state ← (List.range n).foldlM (reduceRow col) (swapped, s)
        eliminate n cols state

/-- `_solve(matrix, vector)` for a matrix of row objects: the answer, and the objects afterwards. -/
def solve (s : RowStore K) (matrix : List ℕ) (vector : List K) :
    Except SolveError (Option (List K) × RowStore K) := do
  let n := vector.length
  let (rows, s) ← eliminate n (List.range n) (s.augment (matrix.zip vector))
  match rows with
  | none => return (none, s)
  | some m =>
    let x ← (List.range n).mapM fun i => divide (entry (s.table m) i n) (entry (s.table m) i i)
    return (some x, s)

end RowStore
end CanaTune

import CanaTune.Domain.Calibration
import CanaTune.Lib.Rounding

/-! The knee as floats compute it: the result of every operation is rounded. -/

namespace CanaTune
variable {K : Type} [Scalar K]

/-- `wilsonUcb`, operation by operation. -/
def wilsonUcbRounded (a : Arithmetic K) (violated n : ℤ) (z : K) : K :=
  if n = 0 then 1
  else
    let p := a.round (violated / n)
    let zz := a.round (z * z)
    let d := a.round (1 + a.round (zz / n))
    let c := a.round (p + a.round (zz / (2 * n)))
    let variance := a.round (a.round (p * a.round (1 - p)) / n)
    let s := a.round (z * a.sqrt (a.round (variance + a.round (zz / (4 * n * n)))))
    a.round (a.round (c + s) / d)

namespace KneeCounts

/-- `kneeFrom`, operation by operation; the default `z` is rounded as a literal. -/
def kneeFromRounded (a : Arithmetic K) (theta : K) (minSamples : ℕ) : ℕ → ℕ → List BinCount → Option ℕ
  | _, _, [] => none
  | headN, headK, b :: rest =>
    let (n, k, block) := mergeBlock minSamples 0 0 (b :: rest)
    if n < minSamples then none
    else
      let lower := a.round (1 - wilsonUcbRounded a ((n : ℤ) - k) n (a.round wilsonZ))
      let floor := max theta (if headN = 0 then 0 else a.round ((headK : K) / headN))
      if floor < lower then
        some (((block.find? fun c => a.round (floor * c.n) < c.k).map (·.bin)).getD b.bin)
      else kneeFromRounded a theta minSamples (headN + b.n) (headK + b.k) rest

def kneeRounded (c : KneeCounts) (a : Arithmetic K) (theta : K) (minSamples : ℕ) : Option ℕ :=
  match c.counts with
  | [] => none
  | b :: rest => kneeFromRounded a theta minSamples b.n b.k rest

theorem kneeFromRounded_exact (theta : ℝ) (minSamples : ℕ) (headN headK : ℕ) (l : List BinCount) :
    kneeFromRounded .exact theta minSamples headN headK l = kneeFrom theta minSamples headN headK l := by
  induction l generalizing headN headK with
  | nil => rfl
  | cons b rest ih =>
    rw [kneeFromRounded, kneeFrom, ih]
    rfl

/-- Where nothing is rounded this is the knee. -/
theorem kneeRounded_exact (c : KneeCounts) (theta : ℝ) (minSamples : ℕ) :
    c.kneeRounded .exact theta minSamples = c.knee theta minSamples := by
  unfold kneeRounded knee
  cases c.counts with
  | nil => rfl
  | cons b rest => exact kneeFromRounded_exact theta minSamples b.n b.k rest

end KneeCounts
end CanaTune

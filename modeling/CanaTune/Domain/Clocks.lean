import CanaTune.Lib.Dict

/-! Clock points, tiers and group states. -/

namespace CanaTune

/-- Clock tier of one group. -/
inductive Tier
  | park
  | l
  | h
  | max
  deriving DecidableEq

/-- `exploring`: the Canary only, running probes, no production traffic. -/
inductive GroupState
  | park
  | active
  | draining
  | exploring
  deriving DecidableEq

/-- Locked SM clocks of one P/D pair. -/
structure ClockPoint where
  prefillMhz : ℕ
  decodeMhz : ℕ
  deriving DecidableEq

/-- The more conservative of two points while a clock change is in flight. -/
def slower (a b : ClockPoint) : ClockPoint :=
  ⟨min a.prefillMhz b.prefillMhz, min a.decodeMhz b.decodeMhz⟩

end CanaTune

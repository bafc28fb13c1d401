import Mathlib

/-! Exact arithmetic. The program computes with floats; the model computes in an ordered field with floors
    and a square root, so that one definition runs on the rationals and is reasoned about on the reals. -/

namespace CanaTune

/-- An exact number type: an ordered field with floors and the square root of the `math` module. -/
class Scalar (K : Type) extends Field K, LinearOrder K, IsStrictOrderedRing K, FloorRing K where
  sqrt : K → K

/-- Rational square roots are cut at twelve decimals. -/
instance : Scalar ℚ where
  sqrt q := (Nat.sqrt (q.num.toNat * q.den * 10 ^ 24) : ℚ) / (q.den * 10 ^ 12)

/-- The reals, with the exact square root. -/
noncomputable instance : Scalar ℝ where
  sqrt := Real.sqrt

/-- Selection keys compare integers through the order that computes. -/
scoped instance (priority := 2000) intPreorder : Preorder ℤ := Int.instLinearOrder.toPartialOrder.toPreorder

/-! The numerals of the program and what its decisions compare by, under names: a definition then means the same alone
    and next to the others. -/

instance numeral2 : Nat.AtLeastTwo 2 := ⟨by decide⟩
instance numeral3 : Nat.AtLeastTwo 3 := ⟨by decide⟩
instance numeral4 : Nat.AtLeastTwo 4 := ⟨by decide⟩
instance numeral5 : Nat.AtLeastTwo 5 := ⟨by decide⟩
instance numeral6 : Nat.AtLeastTwo 6 := ⟨by decide⟩
instance numeral7 : Nat.AtLeastTwo 7 := ⟨by decide⟩
instance numeral8 : Nat.AtLeastTwo 8 := ⟨by decide⟩
instance numeral9 : Nat.AtLeastTwo 9 := ⟨by decide⟩
instance numeral10 : Nat.AtLeastTwo 10 := ⟨by decide⟩
instance numeral20 : Nat.AtLeastTwo 20 := ⟨by decide⟩
instance numeral25 : Nat.AtLeastTwo 25 := ⟨by decide⟩
instance numeral50 : Nat.AtLeastTwo 50 := ⟨by decide⟩
instance numeral60 : Nat.AtLeastTwo 60 := ⟨by decide⟩
instance numeral90 : Nat.AtLeastTwo 90 := ⟨by decide⟩
instance numeral95 : Nat.AtLeastTwo 95 := ⟨by decide⟩
instance numeral100 : Nat.AtLeastTwo 100 := ⟨by decide⟩
instance numeral128 : Nat.AtLeastTwo 128 := ⟨by decide⟩
instance numeral200 : Nat.AtLeastTwo 200 := ⟨by decide⟩
instance numeral600 : Nat.AtLeastTwo 600 := ⟨by decide⟩
instance numeral1000 : Nat.AtLeastTwo 1000 := ⟨by decide⟩
instance numeral3600 : Nat.AtLeastTwo 3600 := ⟨by decide⟩
instance nonzero1 : NeZero 1 := ⟨one_ne_zero⟩
instance nonzero2 : NeZero 2 := ⟨two_ne_zero⟩

instance lawfulFin (n : ℕ) : LawfulBEq (Fin n) := inferInstance

namespace Scalar
variable {K : Type} [Scalar K]

/-- `int(x)`: truncation towards zero. -/
def toInt (x : K) : ℤ := if 0 ≤ x then ⌊x⌋ else ⌈x⌉

/-- `round(x)`: the nearest integer, ties to the even one. -/
def roundEven (x : K) : ℤ :=
  if x - ⌊x⌋ < 1 / 2 then ⌊x⌋
  else if 1 / 2 < x - ⌊x⌋ then ⌊x⌋ + 1
  else if ⌊x⌋ % 2 = 0 then ⌊x⌋ else ⌊x⌋ + 1

/-- `round(x, d)`: `d` decimals. -/
def roundTo (d : ℕ) (x : K) : K := (roundEven (x * 10 ^ d) : K) / 10 ^ d

end Scalar
end CanaTune

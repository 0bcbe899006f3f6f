import TemplateLang.Binary64

/-!
# TemplateLang.Decimal.Basic — decimals, and the number nearest to one

A decimal is an integer times a power of ten, and a numeral a decimal with a sign, so that a
negative zero is told from a positive one. Reading a numeral as a number is exact: the decimal is
a ratio of naturals (`Decimal.ratio`), and the nearest magnitude to that ratio is taken once, with
no intermediate rounding. Two bounds keep the powers of ten small: a decimal far above every
finite number is infinity without its digits being written out, and one far below the smallest
is zero.
-/

namespace TemplateLang

/-- The value `digits · 10 ^ exponent`. -/
structure Decimal where
  digits : Nat
  exponent : Int
deriving DecidableEq

/-- A decimal with a sign; zero has both. -/
structure Numeral where
  negative : Bool
  magnitude : Decimal
deriving DecidableEq

namespace Decimal

/-- The value of a decimal as numerator and denominator. -/
def ratio (d : Decimal) : Nat × Nat :=
  match d.exponent with
  | .ofNat e => (d.digits * Nat.pow 10 e, 1)
  | .negSucc e => (d.digits, Nat.pow 10 (e + 1))

/-- The magnitude nearest to a decimal. From `10 ^ 311` on every decimal is nearest to infinity.
Below `10 ^ (-324)` every decimal is nearest to zero, and a decimal is below that when its
exponent is, counting one decimal digit for each binary digit of its integer. -/
def nearest (d : Decimal) : Nat :=
  if d.digits = 0 then 0
  else if 310 < d.exponent then Binary64.infinity
  else if d.exponent + (d.digits.log2 + 1 : Nat) ≤ -324 then 0
  else Binary64.nearest d.ratio.1 d.ratio.2

/-- A decimal with a non-negative exponent is the integer that it writes. -/
theorem ratio_ofNat (n e : Nat) :
    ratio ⟨n, .ofNat e⟩ = ratio ⟨n * Nat.pow 10 e, 0⟩ := by
  change (n * Nat.pow 10 e, 1) = (n * Nat.pow 10 e * Nat.pow 10 0, 1)
  rw [show Nat.pow 10 0 = 1 from rfl, Nat.mul_one]

end Decimal

namespace Numeral

/-- The number nearest to a numeral, with the numeral's sign. -/
def toFloat (n : Numeral) : Float :=
  Binary64.ofMagnitude n.negative n.magnitude.nearest

/-- The numeral of an integer. -/
def ofInt (i : Int) : Numeral :=
  ⟨decide (i < 0), ⟨i.natAbs, 0⟩⟩

end Numeral

end TemplateLang

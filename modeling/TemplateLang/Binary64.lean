/-!
# TemplateLang.Binary64 — the bits of a number, and the number nearest to a ratio

A number is a binary64 `Float`. Its bits without the sign are its **magnitude**; read as a natural
number, magnitudes are ordered as the values they stand for, with infinity above every finite one.

A finite magnitude stands for `significand · 2 ^ (scale - 1074)`, where the scale is the distance
from the smallest binade. Writing scale and significand back is one addition
(`scale · 2 ^ 52 + significand`), because a significand of the full 53 bits carries its top bit
into the exponent field; the same addition absorbs a significand that rounding has carried to
`2 ^ 53`. This is what makes `nearest` one line: find the scale, round the quotient, add.
-/

namespace TemplateLang.Binary64

/-! ## Fields -/

/-- The lowest bit of the exponent field, which is also the lowest full significand. -/
def hiddenBit : Nat := 0x10000000000000

/-- The magnitude of infinity: every smaller one is finite, every larger one is not a number. -/
def infinity : Nat := 0x7FF0000000000000

/-- The bit that negates a number. -/
def signBit : Nat := 0x8000000000000000

/-- The bits of a number without its sign. -/
def magnitude (x : Float) : Nat :=
  x.toBits.toNat % signBit

/-- Whether the sign bit of a number is set; a negative zero has it too. -/
def isNegative (x : Float) : Bool :=
  Nat.ble signBit x.toBits.toNat

/-- The number with the given sign and magnitude. -/
def ofMagnitude (negative : Bool) (bits : Nat) : Float :=
  Float.ofBits (UInt64.ofNat (if negative then signBit + bits else bits))

/-- The integer that a finite magnitude scales by a power of two. -/
def significand (bits : Nat) : Nat :=
  if bits < hiddenBit then bits else bits % hiddenBit + hiddenBit

/-- The power of two by which a finite magnitude scales its significand, counted from
`2 ^ (-1074)`. -/
def scale (bits : Nat) : Nat :=
  bits / hiddenBit - 1

/-- A finite magnitude is its scale and its significand, added. -/
theorem scale_mul_add_significand (bits : Nat) :
    scale bits * hiddenBit + significand bits = bits := by
  unfold scale significand
  split <;> rename_i h
  -- below the hidden bit the scale is zero and the significand is everything
  · simp [Nat.div_eq_of_lt h]
  -- from there on the exponent field is one more than the scale
  · have hd : 0 < bits / hiddenBit := Nat.div_pos (Nat.not_lt.mp h) (by decide)
    obtain ⟨k, hk⟩ : ∃ k, bits / hiddenBit = k + 1 := ⟨bits / hiddenBit - 1, by omega⟩
    have hm := Nat.div_add_mod bits hiddenBit
    rw [hk] at hm ⊢
    rw [Nat.mul_comm] at hm
    simp only [Nat.add_sub_cancel, Nat.add_mul, Nat.one_mul] at hm ⊢
    omega

/-! ## Named numbers -/

/-- The positive zero. -/
def zero : Float := Float.ofBits 0

/-- The number one. -/
def one : Float := Float.ofBits 0x3FF0000000000000

/-- The number of an operand without a numeric reading; it equals nothing, itself included. -/
def nan : Float := Float.ofBits 0x7FF8000000000000

/-! ## Rounding -/

/-- The integer nearest to `num / den`; a tie goes to the even one. -/
def roundHalfEven (num den : Nat) : Nat :=
  let floor := num / den
  let twice := 2 * (num % den)
  if twice < den then floor
  else if den < twice then floor + 1
  else floor + floor % 2

/-- The smallest scale at which `num / den` rounds to a significand of at most 53 bits. The
logarithms give it up to one, and one comparison settles it. -/
def scaleOf (num den : Nat) : Nat :=
  let s := num.log2 + 1021 - den.log2
  if num <<< 1074 < den <<< (s + 53) then s else s + 1

/-- The magnitude nearest to `num / den`, of two equally near the even
one; what rounds beyond the largest finite magnitude is infinity. -/
def nearest (num den : Nat) : Nat :=
  if num = 0 then 0
  else
    let s := scaleOf num den
    let bits := s * hiddenBit + roundHalfEven (num <<< 1074) (den <<< s)
    if infinity < bits then infinity else bits

theorem nearest_zero (den : Nat) : nearest 0 den = 0 := rfl

theorem nearest_le_infinity (num den : Nat) : nearest num den ≤ infinity := by
  unfold nearest
  dsimp only
  split
  · decide
  · split <;> omega

end TemplateLang.Binary64

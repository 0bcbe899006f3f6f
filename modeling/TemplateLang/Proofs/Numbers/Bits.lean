import Mathlib
import TemplateLang.Proofs.NotANumber

/-!
# TemplateLang.Proofs.Numbers.Bits — a number is its sign and its magnitude

Numbers are handled by their bits, and compared as what the bits unpack to. Three facts join the two
views. A number can be put together again from its sign and its magnitude (`ofMagnitude_magnitude`). It
is finite exactly if its magnitude lies below infinity (`isFinite_iff`), because only then the field of
the exponent is not full. And a finite number equals itself, and zero the other zero, though their bits
differ (`beq_self_of_isFinite`, `beq_zero`).
-/

namespace TemplateLang.Binary64

open Float.Model

/-! ## Sign and magnitude -/

/-- **A number is put together again** from its sign and its magnitude. -/
theorem ofMagnitude_magnitude (x : Float) : ofMagnitude (isNegative x) (magnitude x) = x := by
  have hword : (if isNegative x then signBit + magnitude x else magnitude x) = x.toBits.toNat := by
    have hlt := x.toBits.toNat_lt
    by_cases hnegative : isNegative x = true
    · rw [if_pos hnegative]
      have hle := Nat.le_of_ble_eq_true hnegative
      unfold magnitude
      unfold signBit at hle ⊢
      omega
    · rw [if_neg hnegative]
      have hle : ¬ signBit ≤ x.toBits.toNat := fun hle => hnegative (Nat.ble_eq_true_of_le hle)
      unfold magnitude
      unfold signBit at hle ⊢
      omega
  rw [ofMagnitude, hword, UInt64.ofNat_toNat, Float.ofBits_toBits]

/-! ## Finite numbers -/

/-- The field of the exponent in a word. -/
abbrev exponentField (b : BitVec 64) : BitVec 11 :=
  @UnpackedFloat.unpackExponent Format.binary64 b

theorem toNat_exponentField (b : BitVec 64) :
    (exponentField b).toNat = b.toNat / hiddenBit % 0x800 := by
  simp only [UnpackedFloat.unpackExponent, BitVec.toNat_cast, BitVec.extractLsb_toNat,
    Nat.shiftRight_eq_div_pow]
  rfl

/-- What unpacks to a finite number is what has no full exponent field. -/
theorem isFinite_unpack_iff {b : BitVec 64} :
    (UnpackedFloat.unpack Format.binary64 b).isFinite = true ↔ exponentField b ≠ -1#11 := by
  by_cases hfull : exponentField b = -1#11
  -- an infinity, or no number
  · have hnot : (UnpackedFloat.unpack Format.binary64 b).isFinite = false := by
      rw [UnpackedFloat.unpack, if_pos hfull]
      split <;> rfl
    rw [hnot]
    exact ⟨fun h => absurd h Bool.false_ne_true, absurd hfull⟩
  -- a zero, or a number with or without the top bit
  · have hfinite : (UnpackedFloat.unpack Format.binary64 b).isFinite = true := by
      rw [UnpackedFloat.unpack, if_neg hfull]
      split
      · split <;> rfl
      · rfl
    exact ⟨fun _ => hfull, fun _ => hfinite⟩

/-- **A number is finite exactly if its magnitude lies below infinity.** -/
theorem isFinite_iff {x : Float} : x.isFinite = true ↔ magnitude x < infinity := by
  have hfull : exponentField x.toBits.toBitVec = -1#11 ↔
      (exponentField x.toBits.toBitVec).toNat = 2047 :=
    ⟨fun h => congrArg BitVec.toNat h, fun h => BitVec.eq_of_toNat_eq h⟩
  have hword := x.toBits.toNat_lt
  refine isFinite_unpack_iff.trans ((not_congr hfull).trans ?_)
  rw [toNat_exponentField, UInt64.toNat_toBitVec]
  unfold magnitude infinity hiddenBit signBit
  omega

/-! ## Equal numbers -/

/-- A finite number equals itself. -/
theorem beq_self_of_isFinite {x : Float} (h : x.isFinite = true) : (x == x) = true := by
  refine Float.beq_self_iff.mpr ?_
  rintro rfl
  have hnan : Float.nan.isFinite = false := by decide +kernel
  rw [hnan] at h
  cases h

/-- Both zeros are equal to the positive one. -/
theorem beq_zero {x : Float} (h : magnitude x = 0) : (zero == x) = true := by
  rw [← ofMagnitude_magnitude x, h]
  cases isNegative x
  · decide +kernel
  · decide +kernel

end TemplateLang.Binary64

import TemplateLang.Proofs.Numerals.Grammar

/-!
# TemplateLang.Proofs.NotANumber — the number that is not one

An operand without a numeric reading counts as `nan`. Two things make that safe to calculate with.
`nan` does not come back into the numbers: no comparison with it holds, and a sum or a difference
that begins with it is `nan` again. And no numeral spells it (`Numeral.toFloat_ne_nan`), so a `nan`
that turns up is never what was written.

The first is read off the operations on unpacked numbers, where `nan` is a case of its own. For the
second the bits are unpacked: among the magnitudes `nan` lies above infinity, and rounding never
goes beyond infinity.
-/

namespace TemplateLang

namespace Binary64

open Float.Model

/-! ## Calculating with it -/

theorem unpack_nan : nan.toModel.unpack = .notANumber := rfl

/-- Numbers compare as what they unpack to. -/
theorem lt_iff {x y : Float} :
    x < y ↔ x.toModel.unpack.compare y.toModel.unpack = some .lt := by
  show decide (x.toModel < y.toModel) = true ↔ _
  rw [decide_eq_true_iff]
  show (x.toModel.unpack.compare y.toModel.unpack == some .lt) = true ↔ _
  exact beq_iff_eq

theorem notANumber_compare (f : UnpackedFloat) : UnpackedFloat.notANumber.compare f = none := by
  cases f <;> rfl

theorem compare_notANumber (f : UnpackedFloat) : f.compare .notANumber = none := by
  cases f <;> rfl

theorem not_nan_lt (x : Float) : ¬ nan < x := by
  rw [lt_iff, unpack_nan, notANumber_compare]
  exact nofun

theorem not_lt_nan (x : Float) : ¬ x < nan := by
  rw [lt_iff, unpack_nan, compare_notANumber]
  exact nofun

theorem nan_add (x : Float) : nan + x = nan := by
  show Float.ofModel (pack (.add _ nan.toModel.unpack x.toModel.unpack)) = nan
  rw [unpack_nan]
  rfl

theorem nan_sub (x : Float) : nan - x = nan := by
  show Float.ofModel (pack (.sub _ nan.toModel.unpack x.toModel.unpack)) = nan
  rw [unpack_nan]
  rfl

/-! ## Its bits -/

/-- What is not `nan` is packed with an exponent field that is not full, or as infinity, with nothing
behind the exponent. -/
theorem pack_of_ne_notANumber {f : UnpackedFloat} (hf : f ≠ .notANumber) :
    ∃ s exponent mantissa,
      f.pack Format.binary64 = UnpackedFloat.packComponents Format.binary64 s exponent mantissa ∧
        (exponent ≠ -1#11 ∨ mantissa = 0#52) := by
  cases f with
  | notANumber => exact absurd rfl hf
  | infinity s => exact ⟨s, -1#11, 0#52, rfl, .inr rfl⟩
  | zero s => exact ⟨s, 0#11, 0#52, rfl, .inr rfl⟩
  | finite s m e hm =>
      let biased := (e + Format.binary64.exponentBias + 52).toNat
      by_cases hlarge : 2 ^ 11 ≤ biased + 1
      · exact ⟨s, -1#11, 0#52, if_pos hlarge, .inr rfl⟩
      · by_cases hnormal : m.log2 + 1 = 53
        · refine ⟨s, BitVec.ofNat 11 biased, BitVec.ofNat 52 m,
            (if_neg hlarge).trans (if_pos hnormal), .inl fun hfull => ?_⟩
          have hfield : biased % 2 ^ 11 = 2047 := congrArg BitVec.toNat hfull
          omega
        · exact ⟨s, 0#11, BitVec.ofNat 52 m, (if_neg hlarge).trans (if_neg hnormal),
            .inl (by decide)⟩

/-- Nothing else is packed into the bits of `nan`: they have a full exponent field and something
behind it. -/
theorem eq_notANumber_of_pack {f : UnpackedFloat}
    (h : f.pack Format.binary64 = UnpackedFloat.packedNaN Format.binary64) : f = .notANumber := by
  apply Classical.byContradiction
  intro hf
  obtain ⟨s, exponent, mantissa, hpack, hfields⟩ := pack_of_ne_notANumber hf
  have hnan : UnpackedFloat.packComponents Format.binary64 s exponent mantissa =
      UnpackedFloat.packComponents Format.binary64 .positive (-1#11) (1#52 <<< 51) :=
    hpack.symm.trans h
  have hexponent := congrArg UnpackedFloat.unpackExponent hnan
  have hmantissa := congrArg UnpackedFloat.unpackMantissa hnan
  rw [UnpackedFloat.unpackExponent_packComponents,
    UnpackedFloat.unpackExponent_packComponents] at hexponent
  rw [UnpackedFloat.unpackMantissa_packComponents,
    UnpackedFloat.unpackMantissa_packComponents] at hmantissa
  rcases hfields with hexponent' | hmantissa'
  · exact hexponent' hexponent
  · rw [hmantissa'] at hmantissa
    exact absurd hmantissa (by decide)

/-- What unpacks to no number has a full exponent field and something behind it. -/
theorem fields_of_unpack {b : BitVec 64}
    (h : UnpackedFloat.unpack Format.binary64 b = .notANumber) :
    @UnpackedFloat.unpackExponent Format.binary64 b = -1#11 ∧
      @UnpackedFloat.unpackMantissa Format.binary64 b ≠ 0#52 := by
  by_cases hfull : @UnpackedFloat.unpackExponent Format.binary64 b = -1#11
  · refine ⟨hfull, fun hzero => ?_⟩
    exact nomatch h.symm.trans ((if_pos hfull).trans (if_pos hzero))
  · by_cases hsmall : @UnpackedFloat.unpackExponent Format.binary64 b = 0#11
    · by_cases hzero : @UnpackedFloat.unpackMantissa Format.binary64 b = 0#52
      · exact nomatch h.symm.trans
          ((if_neg hfull).trans ((if_pos hsmall).trans (dif_pos hzero)))
      · exact nomatch h.symm.trans
          ((if_neg hfull).trans ((if_pos hsmall).trans (dif_neg hzero)))
    · exact nomatch h.symm.trans ((if_neg hfull).trans (if_neg hsmall))

/-- What unpacks to no number has a magnitude above infinity. -/
theorem infinity_lt_of_unpack {b : BitVec 64}
    (h : UnpackedFloat.unpack Format.binary64 b = .notANumber) :
    infinity < b.toNat % signBit := by
  obtain ⟨hexponent, hmantissa⟩ := fields_of_unpack h
  have hfull := congrArg BitVec.toNat hexponent
  have hrest : (@UnpackedFloat.unpackMantissa Format.binary64 b).toNat ≠ 0 :=
    fun hzero => hmantissa (BitVec.eq_of_toNat_eq hzero)
  simp only [UnpackedFloat.unpackExponent, UnpackedFloat.unpackMantissa,
    BitVec.cast_eq, BitVec.extractLsb_toNat, Nat.shiftRight_eq_div_pow, BitVec.reduceNeg,
    BitVec.toNat_ofNat, Nat.pow_zero, Nat.div_one, Nat.reduceAdd, Nat.reduceSub,
    Nat.reducePow, Nat.mod_succ, Nat.sub_zero, Nat.add_one_sub_one] at hfull hrest
  unfold infinity signBit
  omega

theorem eq_notANumber_of_isNaN {f : UnpackedFloat} (h : f.isNaN = true) : f = .notANumber := by
  cases f with
  | notANumber => rfl
  | infinity s => cases h
  | zero s => cases h
  | finite s m e hm => cases h

/-- There is only one `nan`: all bits that unpack to no number count as the same. -/
theorem isNaN_iff {x : Float} : x.isNaN = true ↔ x = nan := by
  constructor
  · intro h
    have hunpack : UnpackedFloat.unpack Format.binary64 x.toModel.toBits.toBitVec = .notANumber :=
      eq_notANumber_of_isNaN h
    obtain ⟨hexponent, hmantissa⟩ := fields_of_unpack hunpack
    have hbits := x.toModel.valid.eq_packedNaN hexponent hmantissa
    obtain ⟨⟨⟨bits⟩, valid⟩⟩ := x
    cases hbits
    rfl
  · rintro rfl
    rfl

theorem isNaN_of_ne_nan {x : Float} (h : x ≠ nan) : x.isNaN = false :=
  Bool.eq_false_iff.mpr fun hnan => h (isNaN_iff.mp hnan)

theorem ofMagnitude_ne_nan (negative : Bool) {bits : Nat} (h : bits ≤ infinity) :
    ofMagnitude negative bits ≠ nan := by
  intro heq
  let word := UInt64.ofNat (if negative then signBit + bits else bits)
  have hpacked : (UnpackedFloat.unpack Format.binary64 word.toBitVec).pack Format.binary64 =
      UnpackedFloat.packedNaN Format.binary64 :=
    congrArg (fun x => x.toModel.toBits.toBitVec) heq
  have habove := infinity_lt_of_unpack (eq_notANumber_of_pack hpacked)
  have hword : word.toBitVec.toNat % signBit = bits := by
    simp only [word, UInt64.toNat_toBitVec, UInt64.toNat_ofNat']
    unfold infinity at h
    unfold signBit
    split <;> omega
  omega

end Binary64

/-! ## Numerals -/

theorem Decimal.nearest_le_infinity (d : Decimal) : d.nearest ≤ Binary64.infinity := by
  unfold nearest
  split
  · exact Nat.zero_le _
  · split
    · exact Nat.le_refl _
    · split
      · exact Nat.zero_le _
      · exact Binary64.nearest_le_infinity _ _

/-- **No numeral spells `nan`.** -/
theorem Numeral.toFloat_ne_nan (n : Numeral) : n.toFloat ≠ Binary64.nan :=
  Binary64.ofMagnitude_ne_nan n.negative n.magnitude.nearest_le_infinity

theorem Numeral.ne_nan_of_numberOf? {s : String} {x : Float} (h : numberOf? s = some x) :
    x ≠ Binary64.nan := by
  rw [numberOf?_eq] at h
  obtain ⟨n, -, rfl⟩ := Option.map_eq_some_iff.mp h
  exact n.toFloat_ne_nan

end TemplateLang

import TemplateLang.Decimal.Shortest

/-!
# TemplateLang.Proofs.Numbers.Nearest — a magnitude is the nearest to its own value

Values are compared as naturals: the magnitude `bits` stands for `significand bits <<< scale bits`
units of `2 ^ (-1074)`, and `num / den` for `num <<< 1074` units over `den`. The scale of a ratio is
fixed by two bounds (`IsScale`), so it does not matter how it was found, and a ratio that is the value
of a magnitude has that magnitude's scale. Rounding then has nothing to round (`nearest_of_exact`).

For decimals two things follow. The bounds that spare the powers of ten change no result: every decimal
is rounded as the ratio that it is (`Decimal.nearest_eq`). And the exact decimal of a finite magnitude
reads back, so the shortest one does (`Decimal.readsBack_shortest`).
-/

namespace TemplateLang

namespace Binary64

/-! ## Shifts and logarithms -/

theorem one_shiftLeft_log2_le {n : Nat} (h : n ≠ 0) (k : Nat) : 1 <<< (n.log2 + k) ≤ n <<< k := by
  rw [Nat.shiftLeft_eq, Nat.shiftLeft_eq, Nat.one_mul, Nat.pow_add]
  exact Nat.mul_le_mul_right _ (Nat.log2_self_le h)

theorem shiftLeft_lt_one_shiftLeft (n k : Nat) : n <<< k < 1 <<< (n.log2 + 1 + k) := by
  rw [Nat.shiftLeft_eq, Nat.shiftLeft_eq, Nat.one_mul, Nat.pow_add]
  exact Nat.mul_lt_mul_of_pos_right Nat.lt_log2_self (Nat.two_pow_pos k)

theorem shiftLeft_mono (n : Nat) {j k : Nat} (h : j ≤ k) : n <<< j ≤ n <<< k := by
  rw [Nat.shiftLeft_eq, Nat.shiftLeft_eq]
  exact Nat.mul_le_mul_left n (Nat.pow_le_pow_right (by decide) h)

/-! ## The scale of a ratio -/

/-- **`IsScale num den s`** — in units of scale `s` the ratio is below the first integer of 54 bits, and
not below the first of 53 bits unless the scale is the smallest. -/
def IsScale (num den s : Nat) : Prop :=
  num <<< 1074 < den <<< (s + 53) ∧ (s = 0 ∨ den <<< (s + 52) ≤ num <<< 1074)

/-- A ratio has one scale. -/
theorem IsScale.unique {num den s t : Nat} (hs : IsScale num den s) (ht : IsScale num den t) :
    s = t := by
  have hle : ∀ {s t : Nat}, IsScale num den s → IsScale num den t → t ≤ s := by
    intro s t hs ht
    rcases ht.2 with rfl | hbelow
    · exact Nat.zero_le s
    · refine Nat.le_of_not_lt fun hlt => Nat.lt_irrefl (num <<< 1074) ?_
      calc num <<< 1074 < den <<< (s + 53) := hs.1
        _ ≤ den <<< (t + 52) := shiftLeft_mono den (by omega)
        _ ≤ num <<< 1074 := hbelow
  exact Nat.le_antisymm (hle ht hs) (hle hs ht)

/-- **The scale that is searched for is found.** -/
theorem isScale_scaleOf {num den : Nat} (hnum : num ≠ 0) (hden : den ≠ 0) :
    IsScale num den (scaleOf num den) := by
  have hlow := one_shiftLeft_log2_le hnum 1074
  have hhigh := shiftLeft_lt_one_shiftLeft num 1074
  unfold scaleOf IsScale
  dsimp only
  generalize num <<< 1074 = scaled at *
  by_cases hsmall : num.log2 + 1021 < den.log2
  -- the ratio is below the smallest binade
  · have hzero : num.log2 + 1021 - den.log2 = 0 := by omega
    have hlt : scaled < den <<< (0 + 53) :=
      calc scaled < 1 <<< (num.log2 + 1 + 1074) := hhigh
        _ ≤ 1 <<< (den.log2 + (0 + 53)) := shiftLeft_mono 1 (by omega)
        _ ≤ den <<< (0 + 53) := one_shiftLeft_log2_le hden _
    rw [hzero, if_pos hlt]
    exact ⟨hlt, .inl rfl⟩
  -- the logarithms leave two scales, and the comparison chooses
  · generalize hs : num.log2 + 1021 - den.log2 = s
    by_cases hlt : scaled < den <<< (s + 53)
    · rw [if_pos hlt]
      refine ⟨hlt, .inr ?_⟩
      calc den <<< (s + 52) ≤ 1 <<< (den.log2 + 1 + (s + 52)) :=
            Nat.le_of_lt (shiftLeft_lt_one_shiftLeft den _)
        _ ≤ 1 <<< (num.log2 + 1074) := shiftLeft_mono 1 (by omega)
        _ ≤ scaled := hlow
    · rw [if_neg hlt]
      refine ⟨?_, .inr (Nat.le_of_not_lt hlt)⟩
      calc scaled < 1 <<< (num.log2 + 1 + 1074) := hhigh
        _ ≤ 1 <<< (den.log2 + (s + 1 + 53)) := shiftLeft_mono 1 (by omega)
        _ ≤ den <<< (s + 1 + 53) := one_shiftLeft_log2_le hden _

theorem IsScale.scaleOf_eq {num den s : Nat} (h : IsScale num den s) (hnum : num ≠ 0)
    (hden : den ≠ 0) : scaleOf num den = s :=
  (isScale_scaleOf hnum hden).unique h

/-! ## Rounding a value of a magnitude -/

theorem significand_lt (bits : Nat) : significand bits < 1 <<< 53 := by
  change significand bits < 0x20000000000000
  unfold significand hiddenBit
  split <;> omega

/-- Above the smallest binade a significand has all its bits. -/
theorem hiddenBit_le_significand {bits : Nat} (h : scale bits ≠ 0) :
    hiddenBit ≤ significand bits := by
  unfold scale at h
  unfold significand
  split
  · rename_i hlt
    rw [Nat.div_eq_of_lt hlt] at h
    exact absurd rfl h
  · omega

theorem roundHalfEven_mul {den : Nat} (m : Nat) (h : 0 < den) : roundHalfEven (den * m) den = m := by
  simp only [roundHalfEven, Nat.mul_div_cancel_left m h, Nat.mul_mod_right, Nat.mul_zero]
  exact if_pos h

/-- The ratio that is the value of a magnitude has that magnitude's scale. -/
theorem isScale_of_exact {num den bits : Nat}
    (h : num <<< 1074 = den * (significand bits <<< scale bits)) (hden : 0 < den) :
    IsScale num den (scale bits) := by
  have hshift : ∀ k, den <<< (scale bits + k) = den * (1 <<< k <<< scale bits) := by
    intro k
    simp only [Nat.shiftLeft_eq, Nat.pow_add]
    ac_rfl
  unfold IsScale
  rw [h, hshift, hshift]
  simp only [Nat.shiftLeft_eq _ (scale bits)]
  refine ⟨?_, ?_⟩
  · exact Nat.mul_lt_mul_of_pos_left
      (Nat.mul_lt_mul_of_pos_right (significand_lt bits) (Nat.two_pow_pos _)) hden
  · by_cases hzero : scale bits = 0
    · exact .inl hzero
    · exact .inr (Nat.mul_le_mul_left den
        (Nat.mul_le_mul_right _ (hiddenBit_le_significand hzero)))

/-- **What is exactly the value of a finite magnitude is nearest to that magnitude.** -/
theorem nearest_of_exact {num den bits : Nat} (hbits : bits < infinity) (hden : 0 < den)
    (h : num <<< 1074 = den * (significand bits <<< scale bits)) : nearest num den = bits := by
  by_cases hnum : num = 0
  -- only zero stands for no units
  · subst hnum
    have hzero : significand bits = 0 := by
      rw [Nat.zero_shiftLeft, Nat.shiftLeft_eq] at h
      have hunits := (Nat.mul_eq_zero.mp h.symm).resolve_left (Nat.ne_of_gt hden)
      exact (Nat.mul_eq_zero.mp hunits).resolve_right (Nat.ne_of_gt (Nat.two_pow_pos _))
    have hscale : scale bits = 0 := by
      refine Decidable.byContradiction fun hscale => ?_
      have hle := hiddenBit_le_significand hscale
      rw [hzero] at hle
      exact absurd hle (by decide)
    have hsum := scale_mul_add_significand bits
    rw [hzero, hscale] at hsum
    exact hsum
  · have hround : roundHalfEven (num <<< 1074) (den <<< scale bits) = significand bits := by
      have hunits : num <<< 1074 = den <<< scale bits * significand bits := by
        rw [h, Nat.shiftLeft_eq, Nat.shiftLeft_eq]
        ac_rfl
      rw [hunits]
      refine roundHalfEven_mul _ ?_
      rw [Nat.shiftLeft_eq]
      exact Nat.mul_pos hden (Nat.two_pow_pos _)
    have hscale : scaleOf num den = scale bits :=
      (isScale_of_exact h hden).scaleOf_eq hnum (Nat.ne_of_gt hden)
    simp only [nearest, if_neg hnum, hscale, hround, scale_mul_add_significand]
    exact if_neg (Nat.lt_asymm hbits)

/-! ## Ratios out of range -/

/-- From `2 ^ 1025` on everything is nearest to infinity. -/
theorem nearest_of_large {num : Nat} (h : 1 <<< 1025 ≤ num) : nearest num 1 = infinity := by
  have hnum : num ≠ 0 := by
    rintro rfl
    exact absurd h (by decide +kernel)
  have hscale : 2047 ≤ scaleOf num 1 := by
    refine Nat.le_of_not_lt fun hlt => Nat.lt_irrefl (num <<< 1074) ?_
    calc num <<< 1074 < 1 <<< (scaleOf num 1 + 53) := (isScale_scaleOf hnum (by decide)).1
      _ ≤ 1 <<< 2099 := shiftLeft_mono 1 (by omega)
      _ = 1 <<< 1025 <<< 1074 := Nat.shiftLeft_add 1 1025 1074
      _ ≤ num <<< 1074 := by
        rw [Nat.shiftLeft_eq, Nat.shiftLeft_eq num]
        exact Nat.mul_le_mul_right _ h
  have hle : infinity ≤ scaleOf num 1 * hiddenBit := Nat.mul_le_mul_right hiddenBit hscale
  simp only [nearest, if_neg hnum]
  split <;> omega

/-- What is less than half a unit is nearest to zero. -/
theorem nearest_of_small {num den : Nat} (h : 2 * (num <<< 1074) < den) : nearest num den = 0 := by
  by_cases hnum : num = 0
  · rw [hnum, nearest_zero]
  · have hscale : IsScale num den 0 := by
      have hden : den ≤ den <<< (0 + 53) := shiftLeft_mono den (Nat.zero_le _)
      exact ⟨by omega, .inl rfl⟩
    have hlt : num <<< 1074 < den := by omega
    simp only [nearest, if_neg hnum, hscale.scaleOf_eq hnum (by omega), roundHalfEven,
      Nat.shiftLeft_zero, Nat.div_eq_of_lt hlt, Nat.mod_eq_of_lt hlt, if_pos h]
    rfl

end Binary64

namespace Decimal

/-! ## Decimals as ratios -/

theorem ratio_neg (n k : Nat) : ratio ⟨n, -(k : Int)⟩ = (n, Nat.pow 10 k) := by
  cases k with
  | zero =>
      change (n * 1, 1) = (n, 1)
      rw [Nat.mul_one]
  | succ k => rfl

/-- One decimal digit is worth more than three binary ones. -/
theorem one_shiftLeft_le_pow (k : Nat) : 1 <<< (k + 1076) ≤ Nat.pow 10 (k + 324) := by
  rw [Nat.shiftLeft_add, Nat.shiftLeft_eq, Nat.shiftLeft_eq, Nat.one_mul]
  rw [Nat.pow_eq, Nat.pow_add]
  exact Nat.mul_le_mul (Nat.pow_le_pow_left (by decide) k) (by decide +kernel)

/-- A decimal above the upper bound is nearest to infinity. -/
theorem nearest_ratio_of_large {n : Nat} {e : Int} (hn : n ≠ 0) (he : 310 < e) :
    Binary64.nearest (ratio ⟨n, e⟩).1 (ratio ⟨n, e⟩).2 = Binary64.infinity := by
  obtain ⟨k, rfl⟩ : ∃ k : Nat, e = .ofNat (k + 311) := ⟨(e - 311).toNat, by simp; omega⟩
  refine Binary64.nearest_of_large ?_
  calc 1 <<< 1025 ≤ 10 ^ 311 := by decide +kernel
    _ ≤ 10 ^ (k + 311) := Nat.pow_le_pow_right (by decide) (by omega)
    _ ≤ n * 10 ^ (k + 311) := Nat.le_mul_of_pos_left _ (Nat.pos_of_ne_zero hn)

/-- A decimal below the lower bound is nearest to zero. -/
theorem nearest_ratio_of_small {n : Nat} {e : Int} (he : e + (n.log2 + 1 : Nat) ≤ -324) :
    Binary64.nearest (ratio ⟨n, e⟩).1 (ratio ⟨n, e⟩).2 = 0 := by
  obtain ⟨k, hk, rfl⟩ : ∃ k : Nat, n.log2 + 1 ≤ k ∧ e = -((k + 324 : Nat) : Int) :=
    ⟨(-324 - e).toNat, by omega, by omega⟩
  rw [ratio_neg]
  refine Binary64.nearest_of_small ?_
  dsimp only
  calc 2 * (n <<< 1074) = n <<< 1075 := (Nat.shiftLeft_succ n 1074).symm
    _ < 1 <<< (n.log2 + 1 + 1075) := Binary64.shiftLeft_lt_one_shiftLeft n 1075
    _ ≤ 1 <<< (k + 1076) := Binary64.shiftLeft_mono 1 (by omega)
    _ ≤ Nat.pow 10 (k + 324) := one_shiftLeft_le_pow k

/-- **The bounds change no result**: a decimal is rounded as the ratio that it is. -/
theorem nearest_eq (d : Decimal) : d.nearest = Binary64.nearest d.ratio.1 d.ratio.2 := by
  obtain ⟨n, e⟩ := d
  unfold nearest
  split
  · rename_i hn
    change n = 0 at hn
    subst hn
    cases e with
    | ofNat e => simp only [ratio, Nat.zero_mul, Binary64.nearest_zero]
    | negSucc e => rfl
  · rename_i hn
    split
    · rename_i hlarge
      exact (nearest_ratio_of_large hn hlarge).symm
    · split
      · rename_i hsmall
        exact (nearest_ratio_of_small hsmall).symm
      · rfl

/-! ## Reading back -/

/-- A natural number is exactly the magnitude whose units it makes up. -/
theorem nearest_whole {n bits : Nat} (hbits : bits < Binary64.infinity)
    (h : n <<< 1074 = Binary64.significand bits <<< Binary64.scale bits) :
    nearest ⟨n, 0⟩ = bits := by
  rw [nearest_eq, show (0 : Int) = -((0 : Nat) : Int) from rfl, ratio_neg]
  refine Binary64.nearest_of_exact hbits Nat.one_pos ?_
  rw [h]
  exact (Nat.one_mul _).symm

/-- The exact decimal of a finite magnitude is nearest to it. -/
theorem nearest_exact {bits : Nat} (hbits : bits < Binary64.infinity) :
    (exact bits).nearest = bits := by
  unfold exact
  by_cases hscale : 1074 ≤ Binary64.scale bits
  · simp only [if_pos hscale]
    refine nearest_whole hbits ?_
    rw [← Nat.shiftLeft_add, Nat.sub_add_cancel hscale]
  -- the powers of five in numerator and denominator cancel
  · simp only [if_neg hscale]
    obtain ⟨k, hk⟩ : ∃ k, k + Binary64.scale bits = 1074 := ⟨1074 - Binary64.scale bits, by omega⟩
    rw [show 1074 - Binary64.scale bits = k by omega, nearest_eq, ratio_neg]
    refine Binary64.nearest_of_exact hbits (Nat.pow_pos (by decide)) ?_
    rw [← hk, Nat.shiftLeft_eq, Nat.shiftLeft_eq, Nat.pow_add]
    show _ * 5 ^ k * (2 ^ k * _) = 10 ^ k * _
    rw [show 10 ^ k = 5 ^ k * 2 ^ k from Nat.mul_pow 5 2 k]
    ac_rfl

/-- **The shortest decimal of a finite magnitude reads back** as that magnitude. -/
theorem readsBack_shortest {bits : Nat} (hbits : bits < Binary64.infinity) :
    (shortest bits).nearest = bits := by
  have hexact : readsBack bits (exact bits) = true := beq_iff_eq.mpr (nearest_exact hbits)
  exact beq_iff_eq.mp (readsBack_coarsest hexact _)

end Decimal

end TemplateLang

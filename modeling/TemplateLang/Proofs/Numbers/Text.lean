import TemplateLang.Proofs.Numbers.Bits
import TemplateLang.Proofs.Numbers.Nearest
import TemplateLang.Proofs.Numerals.Recognition
import TemplateLang.Value.Text

/-!
# TemplateLang.Proofs.Numbers.Text — the text of a number is read as that number

Numbers have two written forms, an integer and the shortest decimal in positional form. Both are
numerals, and reading one gives a decimal of the value that was written: zeros filled in on either side
change the digits that are read, not the ratio they stand for (`Numeral.read?_positional`). The shortest
decimal reads back, and an integer is its own decimal, so either form gives the magnitude again. Only
the sign of zero is lost, which is not written where the number is an integer.

Main statement (`Value.ofLiteral_text_number`): the text of every finite number is coerced to a number
equal to it. The texts of the infinities and of the number that is none are words, and stay texts.
-/

namespace TemplateLang

namespace Numeral

/-! ## Written digits -/

theorem digits_toDigits (n : Nat) : Digits (Nat.toDigits 10 n) :=
  ⟨Nat.toDigits_ne_nil, fun _ hc => Nat.isDigit_of_mem_toDigits (by decide) (by decide) hc⟩

theorem isDigit_of_mem_zeros (k : Nat) : ∀ c ∈ List.replicate k '0', c.isDigit = true := by
  intro c hc
  rw [(List.mem_replicate.mp hc).2]
  decide

theorem readDigits_of_digits {digits : List Char} (h : ∀ c ∈ digits, c.isDigit = true) :
    readDigits digits = (digits, []) := by
  have hread : readDigits (digits ++ []) = (digits, []) := readDigits_of_append h nofun
  rwa [List.append_nil] at hread

theorem optionalSign_minus (negative : Bool) : OptionalSign (if negative then ['-'] else []) := by
  cases negative
  · exact .none
  · exact .minus

theorem decide_eq_minus (negative : Bool) :
    decide ((if negative then ['-'] else []) = ['-']) = negative := by
  cases negative <;> rfl

/-- Digits alone are read as the integer that they write. -/
theorem read?_digits (negative : Bool) {digits : List Char} (h : Digits digits) :
    read? ((if negative then ['-'] else []) ++ digits) =
      some ⟨negative, Nat.ofDigitChars 10 digits 0, 0⟩ := by
  have hne : digits ++ [] ≠ [] := by simpa using h.ne_nil
  have hsigned : ∀ c ∈ digits.head?, c ≠ '+' ∧ c ≠ '-' := by simpa using h.no_sign []
  rw [read?_of_parts (optionalSign_minus negative) hsigned (readDigits_of_digits h.digit) rfl hne,
    decide_eq_minus, List.append_nil]
  rfl

/-- Digits around a point are read as one integer, scaled by as many places as stand behind it. -/
theorem read?_pointed (negative : Bool) {whole fraction : List Char} (hwhole : Digits whole)
    (hfraction : ∀ c ∈ fraction, c.isDigit = true) :
    read? ((if negative then ['-'] else []) ++ (whole ++ '.' :: fraction)) =
      some ⟨negative, Nat.ofDigitChars 10 (whole ++ fraction) 0, -(fraction.length : Int)⟩ := by
  have hpoint : readDigits (whole ++ '.' :: fraction) = (whole, '.' :: fraction) :=
    readDigits_of_append hwhole.digit (by simp)
  have hrest : readFraction ('.' :: fraction) = (fraction, []) := readDigits_of_digits hfraction
  rw [read?_of_parts (optionalSign_minus negative) (hwhole.no_sign _) hpoint hrest
    (List.append_ne_nil_of_left_ne_nil hwhole.ne_nil _), decide_eq_minus]
  simp [readExponent?]

/-- A point is written between the digits of an integer, with zeros in front where it has too few. -/
theorem exists_withPoint (n places : Nat) :
    ∃ whole fraction, Decimal.withPoint n places = whole ++ '.' :: fraction ∧ Digits whole ∧
      (∀ c ∈ fraction, c.isDigit = true) ∧ fraction.length = places ∧
      Nat.ofDigitChars 10 (whole ++ fraction) 0 = n := by
  let written := Nat.toDigits 10 n
  let filled := List.replicate (places + 1 - written.length) '0' ++ written
  have hdigit : ∀ c ∈ filled, c.isDigit = true :=
    List.forall_mem_append.mpr ⟨isDigit_of_mem_zeros _, (digits_toDigits n).digit⟩
  have hlength : places < filled.length := by
    rw [List.length_append, List.length_replicate]
    omega
  refine ⟨filled.take (filled.length - places), filled.drop (filled.length - places), rfl,
    ⟨?_, fun c hc => hdigit c (List.mem_of_mem_take hc)⟩,
    fun c hc => hdigit c (List.mem_of_mem_drop hc), ?_, ?_⟩
  · refine List.ne_nil_of_length_pos ?_
    rw [List.length_take]
    omega
  · rw [List.length_drop]
    omega
  · rw [List.take_append_drop, Nat.ofDigitChars_append, Nat.ofDigitChars_replicate_zero, Nat.mul_zero]
    exact Nat.ofDigitChars_ten_toDigits

/-- **The positional form of a decimal is read as a decimal of the same value.** -/
theorem read?_positional (negative : Bool) (d : Decimal) :
    ∃ e, read? ((if negative then ['-'] else []) ++ d.positional) = some ⟨negative, e⟩ ∧
      e.ratio = d.ratio := by
  obtain ⟨n, exponent⟩ := d
  cases exponent with
  | ofNat k =>
      have hdigits : Digits (Nat.toDigits 10 n ++ List.replicate k '0') :=
        ⟨List.append_ne_nil_of_left_ne_nil (digits_toDigits n).ne_nil _,
          List.forall_mem_append.mpr ⟨(digits_toDigits n).digit, isDigit_of_mem_zeros k⟩⟩
      have hread := read?_digits negative hdigits
      rw [Nat.ofDigitChars_append, Nat.ofDigitChars_ten_toDigits, Nat.ofDigitChars_replicate_zero,
        Nat.mul_comm] at hread
      exact ⟨_, hread, (Decimal.ratio_ofNat n k).symm⟩
  | negSucc k =>
      obtain ⟨whole, fraction, htext, hwhole, hfraction, hlength, hvalue⟩ :=
        exists_withPoint n (k + 1)
      refine ⟨⟨n, .negSucc k⟩, ?_, rfl⟩
      have hread := read?_pointed negative hwhole hfraction
      rw [← htext, hvalue, hlength] at hread
      exact hread

theorem numberOf?_ofList {cs : List Char} {n : Numeral} (h : read? cs = some n) :
    numberOf? (String.ofList cs) = some n.toFloat := by
  rw [numberOf?_eq, String.toList_ofList, h]
  rfl

end Numeral

namespace Binary64

/-! ## The two written forms -/

/-- **The shortest decimal is read as the number**, its sign included. -/
theorem numberOf?_shortestText {x : Float} (h : magnitude x < infinity) :
    Numeral.numberOf? (shortestText x) = some x := by
  unfold shortestText
  simp only [if_neg (Nat.lt_asymm h), if_neg (Nat.ne_of_lt h)]
  split
  · rename_i hzero
    have hread := Numeral.read?_digits (isNegative x) (Numeral.digits_toDigits 0)
    refine (Numeral.numberOf?_ofList hread).trans (congrArg some ?_)
    refine Eq.trans ?_ (ofMagnitude_magnitude x)
    rw [hzero]
    rfl
  · obtain ⟨e, hread, hratio⟩ :=
      Numeral.read?_positional (isNegative x) (Decimal.shortest (magnitude x))
    have hnearest : e.nearest = magnitude x := by
      rw [Decimal.nearest_eq, hratio, ← Decimal.nearest_eq, Decimal.readsBack_shortest h]
    rw [Numeral.numberOf?_ofList hread, Numeral.toFloat, hnearest, ofMagnitude_magnitude]

theorem shiftRight_shiftLeft_of_mod {n k : Nat} (h : n % Nat.pow 2 k = 0) : n >>> k <<< k = n := by
  rw [Nat.shiftLeft_eq, Nat.shiftRight_eq_div_pow]
  exact Nat.div_mul_cancel (Nat.dvd_of_mod_eq_zero h)

/-- A number that is an integer is finite, and has the nearest magnitude to that integer. The sign is
that of the integer, zero apart. -/
theorem integer?_eq_some {x : Float} {i : Int} (h : integer? x = some i) :
    magnitude x < infinity ∧ Decimal.nearest ⟨i.natAbs, 0⟩ = magnitude x ∧
      (i ≠ 0 → decide (i < 0) = isNegative x) := by
  unfold integer? at h
  dsimp only at h
  split at h
  · rename_i hwhole
    obtain ⟨hfinite, hmod⟩ := hwhole
    have hunits := shiftRight_shiftLeft_of_mod hmod
    generalize (significand (magnitude x) <<< scale (magnitude x)) >>> 1074 = n at h hunits
    cases h
    refine ⟨hfinite, ?_, ?_⟩
    · rw [show (if isNegative x then -(n : Int) else n).natAbs = n by split <;> omega]
      exact Decimal.nearest_whole hfinite hunits
    · intro hne
      cases hnegative : isNegative x with
      | true =>
          rw [hnegative, if_pos rfl] at hne
          rw [if_pos rfl, decide_eq_true_iff]
          omega
      | false =>
          rw [if_neg Bool.false_ne_true, decide_eq_false_iff_not]
          omega
  · cases h

/-- **An integer is read as a number equal to the one that was written.** -/
theorem numberOf?_integerText {x : Float} {i : Int} (h : integer? x = some i) :
    ∃ y, Numeral.numberOf? (integerText i) = some y ∧ (y == x) = true := by
  obtain ⟨hfinite, hnearest, hsign⟩ := integer?_eq_some h
  have hread := Numeral.read?_digits (decide (i < 0)) (Numeral.digits_toDigits i.natAbs)
  rw [Nat.ofDigitChars_ten_toDigits] at hread
  simp only [decide_eq_true_eq] at hread
  refine ⟨_, Numeral.numberOf?_ofList hread, ?_⟩
  rw [Numeral.toFloat, hnearest]
  by_cases hi : i = 0
  -- zero is written without its sign
  · subst hi
    have hzero : magnitude x = 0 := hnearest.symm
    rw [hzero]
    exact beq_zero hzero
  · rw [hsign hi, ofMagnitude_magnitude]
    exact beq_self_of_isFinite (isFinite_iff.mpr hfinite)

/-! ## Every number -/

theorem numberOf?_text {x : Float} (h : magnitude x < infinity) :
    ∃ y, Numeral.numberOf? (text x) = some y ∧ (y == x) = true := by
  have hshortest : ∃ y, Numeral.numberOf? (shortestText x) = some y ∧ (y == x) = true :=
    ⟨x, numberOf?_shortestText h, beq_self_of_isFinite (isFinite_iff.mpr h)⟩
  unfold text
  split
  · rename_i i hi
    split
    · exact numberOf?_integerText hi
    · exact hshortest
  · exact hshortest

/-- The words for the numbers that are not finite are no numerals. -/
theorem numberOf?_text_eq_none {x : Float} (h : ¬ magnitude x < infinity) :
    Numeral.numberOf? (text x) = none := by
  have hinteger : integer? x = none := by
    cases hx : integer? x with
    | none => rfl
    | some i => exact absurd (integer?_eq_some hx).1 h
  have hnonzero : magnitude x ≠ 0 := by
    intro hzero
    rw [hzero] at h
    exact h (by decide)
  rw [text, hinteger]
  dsimp only
  unfold shortestText
  dsimp only
  split
  · decide
  · rw [if_pos (by omega)]
    cases isNegative x <;> decide

end Binary64

namespace Value

/-- **Printing a number and coercing its text gives an equal number**, if the number is finite. The text
of any other number is a string again. -/
theorem ofLiteral_text_number (x : Float) :
    (x.isFinite = true →
        ∃ y, ofLiteral (some (text (.number x))) = .number y ∧ (y == x) = true) ∧
      (x.isFinite = false →
        ofLiteral (some (text (.number x))) = .string (text (.number x))) := by
  have htext : text (.number x) = Binary64.text x := by rw [text]
  rw [htext]
  refine ⟨fun hfinite => ?_, fun hfinite => ?_⟩
  · obtain ⟨y, hy, heq⟩ := Binary64.numberOf?_text (Binary64.isFinite_iff.mp hfinite)
    exact ⟨y, ofText_eq_number_iff.mpr hy, heq⟩
  · have hnone : Numeral.numberOf? (Binary64.text x) = none := by
      refine Binary64.numberOf?_text_eq_none fun hlt => ?_
      rw [Binary64.isFinite_iff.mpr hlt] at hfinite
      cases hfinite
    rw [ofLiteral, ofText, hnone]

end Value

end TemplateLang

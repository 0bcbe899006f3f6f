import TemplateLang.Proofs.NotANumber
import TemplateLang.Value.Coercion

/-!
# TemplateLang.Proofs.Numerals.Recognition — every numeral is read

What the reader of numerals accepts is derived by the grammar; here is the converse. Each small reader
takes its part whole, because what stands behind a part cannot go on with it: no digit and no point
stands behind a mantissa, no sign in front of one. Main statement (`Value.ofLiteral_number_iff`): the
literals that are numbers are exactly the numerals. The number is never `nan`, and every other literal
is its own text.
-/

namespace TemplateLang

namespace Numeral

/-! ## What the readers take whole -/

/-- A sign is read from in front of anything that begins with none. -/
theorem readSign_append {sign rest : List Char} (hsign : OptionalSign sign)
    (hrest : ∀ c ∈ rest.head?, c ≠ '+' ∧ c ≠ '-') :
    readSign (sign ++ rest) = (decide (sign = ['-']), rest) := by
  cases hsign with
  | none =>
      cases rest with
      | nil => rfl
      | cons c rest =>
          obtain ⟨hplus, hminus⟩ := hrest c rfl
          simp [readSign, hplus, hminus]
  | plus => rfl
  | minus => rfl

/-- Digits are read as far as they go. -/
theorem readDigits_of_append {digits rest : List Char} (hdigits : ∀ c ∈ digits, c.isDigit = true)
    (hrest : ∀ c ∈ rest.head?, c.isDigit = false) :
    readDigits (digits ++ rest) = (digits, rest) := by
  have hstops : rest.takeWhile Char.isDigit = [] ∧ rest.dropWhile Char.isDigit = rest := by
    cases rest with
    | nil => exact ⟨rfl, rfl⟩
    | cons c rest => simp [hrest c rfl]
  rw [readDigits, List.takeWhile_append_of_pos hdigits, List.dropWhile_append_of_pos hdigits,
    hstops.1, hstops.2, List.append_nil]

theorem readFraction_of_no_point {rest : List Char} (h : ∀ c ∈ rest.head?, c ≠ '.') :
    readFraction rest = ([], rest) := by
  cases rest with
  | nil => rfl
  | cons c rest => simp [readFraction, h c rfl]

/-- **`EndsMantissa rest`** — what stands behind a mantissa does not go on with it. -/
def EndsMantissa (rest : List Char) : Prop :=
  ∀ c ∈ rest.head?, c.isDigit = false ∧ c ≠ '.'

/-- A mantissa is read whole, and there is a digit in what was read. -/
theorem IsMantissa.exists_read {cs rest : List Char} (h : IsMantissa cs)
    (hrest : EndsMantissa rest) :
    ∃ whole afterWhole fraction, readDigits (cs ++ rest) = (whole, afterWhole) ∧
      readFraction afterWhole = (fraction, rest) ∧ whole ++ fraction ≠ [] := by
  have hdigit : ∀ c ∈ rest.head?, c.isDigit = false := fun c hc => (hrest c hc).1
  have hpoint : ∀ c ∈ rest.head?, c ≠ '.' := fun c hc => (hrest c hc).2
  cases h with
  | whole hdigits =>
      refine ⟨cs, rest, [], readDigits_of_append hdigits.digit hdigit,
        readFraction_of_no_point hpoint, ?_⟩
      rw [List.append_nil]
      exact hdigits.ne_nil
  | @pointed digits fraction hdigits hfraction =>
      refine ⟨digits, '.' :: (fraction ++ rest), fraction, ?_,
        readDigits_of_append hfraction hdigit, List.append_ne_nil_of_left_ne_nil hdigits.ne_nil _⟩
      rw [List.append_assoc]
      exact readDigits_of_append hdigits.digit (by simp)
  | @fraction digits hdigits =>
      exact ⟨[], '.' :: (digits ++ rest), digits, rfl,
        readDigits_of_append hdigits.digit hdigit, hdigits.ne_nil⟩

/-- A sign and parts that are read one after the other are read as one numeral. -/
theorem read?_of_parts {sign cs whole afterWhole fraction rest : List Char}
    (hsign : OptionalSign sign) (hcs : ∀ c ∈ cs.head?, c ≠ '+' ∧ c ≠ '-')
    (hwhole : readDigits cs = (whole, afterWhole))
    (hfraction : readFraction afterWhole = (fraction, rest)) (hdigits : whole ++ fraction ≠ []) :
    read? (sign ++ cs) = (readExponent? rest).map fun exponent =>
      ⟨decide (sign = ['-']), Nat.ofDigitChars 10 (whole ++ fraction) 0,
        exponent - fraction.length⟩ := by
  have hsome : (whole.isEmpty && fraction.isEmpty) = false := by
    cases whole with
    | nil =>
        cases fraction with
        | nil => exact absurd rfl hdigits
        | cons _ _ => rfl
    | cons _ _ => rfl
  rw [read?, readSign_append hsign hcs]
  simp only [hwhole, hfraction, hsome]
  rfl

/-- Digits begin with no sign. -/
theorem Digits.no_sign {cs : List Char} (h : Digits cs) (rest : List Char) :
    ∀ c ∈ (cs ++ rest).head?, c ≠ '+' ∧ c ≠ '-' := by
  intro c hc
  obtain ⟨d, ds, rfl⟩ := List.exists_cons_of_ne_nil h.ne_nil
  cases hc
  have hdigit := h.digit c List.mem_cons_self
  constructor
  · rintro rfl
    exact absurd hdigit (by decide)
  · rintro rfl
    exact absurd hdigit (by decide)

theorem IsMantissa.no_sign {cs : List Char} (h : IsMantissa cs) (rest : List Char) :
    ∀ c ∈ (cs ++ rest).head?, c ≠ '+' ∧ c ≠ '-' := by
  cases h with
  | whole hdigits => exact hdigits.no_sign rest
  | pointed hdigits _ =>
      rw [List.append_assoc]
      exact hdigits.no_sign _
  | fraction _ =>
      intro c hc
      cases hc
      decide

/-! ## Numerals -/

theorem IsExponent.ends {cs : List Char} (h : IsExponent cs) : EndsMantissa cs := by
  cases h with
  | none => exact nofun
  | marked hmark _ _ =>
      intro c hc
      cases hc
      rcases hmark with rfl | rfl <;> decide

theorem IsExponent.exists_read? {cs : List Char} (h : IsExponent cs) :
    ∃ exponent, readExponent? cs = some exponent := by
  cases h with
  | none => exact ⟨0, rfl⟩
  | @marked mark sign digits hmark hsign hdigits =>
      have hread : readSign (sign ++ digits) = (decide (sign = ['-']), digits) := by
        refine readSign_append hsign ?_
        simpa using hdigits.no_sign []
      have hne : digits.isEmpty = false := by simpa using hdigits.ne_nil
      have hall : digits.all Char.isDigit = true := List.all_eq_true.mpr hdigits.digit
      rw [readExponent?, if_pos hmark, hread]
      simp only [hne, hall]
      exact ⟨_, rfl⟩

/-- **Every numeral is read**, and nothing else is. -/
theorem exists_read?_iff {cs : List Char} : (∃ n, read? cs = some n) ↔ IsNumeral cs := by
  constructor
  · rintro ⟨n, hn⟩
    exact isNumeral_of_read? hn
  · intro h
    cases h with
    | mk hsign hmantissa hexponent =>
        obtain ⟨exponent, hread⟩ := hexponent.exists_read?
        obtain ⟨whole, afterWhole, fraction, hwhole, hfraction, hdigits⟩ :=
          hmantissa.exists_read hexponent.ends
        rw [read?_of_parts hsign (hmantissa.no_sign _) hwhole hfraction hdigits, hread]
        exact ⟨_, rfl⟩

theorem exists_numberOf?_iff {s : String} :
    (∃ x, numberOf? s = some x) ↔ IsNumeral s.toList := by
  rw [← exists_read?_iff]
  simp only [numberOf?_eq, Option.map_eq_some_iff]
  constructor
  · rintro ⟨_, n, hn, -⟩
    exact ⟨n, hn⟩
  · rintro ⟨n, hn⟩
    exact ⟨_, n, hn, rfl⟩

theorem numberOf?_eq_none_iff {s : String} : numberOf? s = none ↔ ¬ IsNumeral s.toList := by
  rw [← exists_numberOf?_iff]
  exact Option.eq_none_iff_forall_not_mem.trans not_exists.symm

end Numeral

namespace Value

theorem ofText_eq_number_iff {s : String} {x : Float} :
    ofText s = .number x ↔ Numeral.numberOf? s = some x := by
  rw [ofText]
  cases Numeral.numberOf? s with
  | none => simp
  | some y => simp

/-- **A literal is a number exactly if its whole text is a numeral.** The number is never `nan`, and a
literal that is no numeral is the string of its text. -/
theorem ofLiteral_number_iff (s : String) :
    ((∃ x, ofLiteral (some s) = .number x) ↔ Numeral.IsNumeral s.toList) ∧
      (∀ x, ofLiteral (some s) = .number x → x.isNaN = false) ∧
      (¬ Numeral.IsNumeral s.toList → ofLiteral (some s) = .string s) := by
  simp only [ofLiteral, ofText_eq_number_iff]
  refine ⟨Numeral.exists_numberOf?_iff, fun x hx => ?_, fun hnot => ?_⟩
  · exact Binary64.isNaN_of_ne_nan (Numeral.ne_nan_of_numberOf? hx)
  · rw [ofText, Numeral.numberOf?_eq_none_iff.mpr hnot]

end Value

end TemplateLang

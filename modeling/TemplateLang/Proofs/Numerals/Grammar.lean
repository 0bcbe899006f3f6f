import TemplateLang.Decimal.Reading

/-!
# TemplateLang.Proofs.Numerals.Grammar — numerals as a grammar

With `D` an ASCII digit a numeral is

    [+-]? (D+ ('.' D*)? | '.' D+) ([eE] [+-]? D+)?

written here as one inductive for each part. What the reader of numerals accepts is derived by the
grammar (`isNumeral_of_read?`), each small reader taking its own part from the front of the text.
The grammar then says what can stand where: a numeral that begins with a digit or a point has a sign
only behind the mark of its exponent (`IsNumeral.exists_cut`), and none ends with that mark. A
numeral has a digit and a word for a number has none, so a literal with a digit is a number only if
it is a numeral (`numberOf?_eq`).
-/

namespace TemplateLang

/-- What holds of the ten digits holds of every digit. -/
theorem forall_isDigit {P : Char → Prop} (h : ∀ n < 10, P (Char.ofNat (0x30 + n))) {c : Char}
    (hc : c.isDigit = true) : P c := by
  obtain ⟨hfirst, hlast⟩ : 0x30 ≤ c.toNat ∧ c.toNat ≤ 0x39 := Char.isDigit_iff_toNat.mp hc
  have hdigit := h (c.toNat - 0x30) (by omega)
  rwa [Nat.add_sub_cancel' hfirst, Char.ofNat_toNat] at hdigit

namespace Numeral

/-! ## The grammar -/

/-- A sign, or nothing. -/
inductive OptionalSign : List Char → Prop
  | none : OptionalSign []
  | plus : OptionalSign ['+']
  | minus : OptionalSign ['-']

/-- **`Digits cs`** — the text is a run of digits, and not empty. -/
structure Digits (cs : List Char) : Prop where
  ne_nil : cs ≠ []
  digit : ∀ c ∈ cs, c.isDigit = true

/-- Digits with or without a point, and with a digit on one side of it. -/
inductive IsMantissa : List Char → Prop
  | whole {digits : List Char} : Digits digits → IsMantissa digits
  | pointed {digits fraction : List Char} : Digits digits → (∀ c ∈ fraction, c.isDigit = true) →
      IsMantissa (digits ++ '.' :: fraction)
  | fraction {digits : List Char} : Digits digits → IsMantissa ('.' :: digits)

/-- Nothing, or a mark and an integer. -/
inductive IsExponent : List Char → Prop
  | none : IsExponent []
  | marked {mark : Char} {sign digits : List Char} : mark = 'e' ∨ mark = 'E' →
      OptionalSign sign → Digits digits → IsExponent (mark :: (sign ++ digits))

/-- **`IsNumeral cs`** — the whole text is a numeral. -/
inductive IsNumeral : List Char → Prop
  | mk {sign mantissa exponent : List Char} : OptionalSign sign → IsMantissa mantissa →
      IsExponent exponent → IsNumeral (sign ++ (mantissa ++ exponent))

/-! ## What the readers take -/

theorem exists_sign (cs : List Char) :
    ∃ sign, OptionalSign sign ∧ cs = sign ++ (readSign cs).2 := by
  unfold readSign
  split
  · exact ⟨['-'], .minus, rfl⟩
  · exact ⟨['+'], .plus, rfl⟩
  · exact ⟨[], .none, rfl⟩

theorem digit_of_readDigits (cs : List Char) : ∀ c ∈ (readDigits cs).1, c.isDigit = true :=
  List.all_eq_true.mp List.all_takeWhile

/-- A fraction is read behind a point, and without a point nothing is. -/
theorem readFraction_cases (cs : List Char) :
    readFraction cs = ([], cs) ∨
      ∃ fraction rest, (∀ c ∈ fraction, c.isDigit = true) ∧ cs = '.' :: (fraction ++ rest) ∧
        readFraction cs = (fraction, rest) := by
  unfold readFraction
  split
  · next rest =>
      refine .inr ⟨_, (readDigits rest).2, digit_of_readDigits rest, ?_, rfl⟩
      rw [readDigits_append]
  · exact .inl rfl

/-- **A mantissa is what stands in front of the exponent**, if there is a digit in it. -/
theorem exists_mantissa {cs : List Char}
    (h : ((readDigits cs).1.isEmpty && (readFraction (readDigits cs).2).1.isEmpty) = false) :
    ∃ mantissa, IsMantissa mantissa ∧ cs = mantissa ++ (readFraction (readDigits cs).2).2 := by
  have hdigits := digit_of_readDigits cs
  have hsplit := readDigits_append cs
  rcases readFraction_cases (readDigits cs).2 with hnone | ⟨fraction, rest, hfraction, hpoint, hread⟩
  · rw [hnone] at h ⊢
    refine ⟨_, .whole ⟨?_, hdigits⟩, hsplit.symm⟩
    simpa using h
  · rw [hread] at h ⊢
    rw [hpoint] at hsplit
    by_cases hwhole : (readDigits cs).1 = []
    · rw [hwhole] at h hsplit
      refine ⟨'.' :: fraction, .fraction ⟨?_, hfraction⟩, hsplit.symm⟩
      simpa using h
    · exact ⟨_, .pointed ⟨hwhole, hdigits⟩ hfraction, by simpa using hsplit.symm⟩

theorem isExponent_of_readExponent? {cs : List Char} {exponent : Int}
    (h : readExponent? cs = some exponent) : IsExponent cs := by
  cases cs with
  | nil => exact .none
  | cons mark rest =>
      rw [readExponent?] at h
      split at h
      · next hmark =>
          obtain ⟨sign, hsign, hrest⟩ := exists_sign rest
          dsimp only at h
          split at h
          · cases h
          · next hdigits =>
              rw [Bool.not_eq_true, Bool.or_eq_false_iff, Bool.not_eq_false'] at hdigits
              rw [hrest]
              refine .marked hmark hsign ⟨?_, List.all_eq_true.mp hdigits.2⟩
              simpa using hdigits.1
      · cases h

/-- **What is read as a numeral is one.** -/
theorem isNumeral_of_read? {cs : List Char} {n : Numeral} (h : read? cs = some n) :
    IsNumeral cs := by
  obtain ⟨sign, hsign, hcs⟩ := exists_sign cs
  rw [read?] at h
  dsimp only at h
  split at h
  · cases h
  · next hdigits =>
      rw [Bool.not_eq_true] at hdigits
      obtain ⟨mantissa, hmantissa, hunsigned⟩ := exists_mantissa hdigits
      obtain ⟨exponent, hexponent, -⟩ := Option.map_eq_some_iff.mp h
      rw [hcs, hunsigned]
      exact .mk hsign hmantissa (isExponent_of_readExponent? hexponent)

/-! ## What stands where -/

theorem IsMantissa.digit_or_point {cs : List Char} (h : IsMantissa cs) :
    ∀ c ∈ cs, c.isDigit = true ∨ c = '.' := by
  intro c hc
  cases h with
  | whole hdigits => exact .inl (hdigits.digit c hc)
  | pointed hdigits hfraction =>
      simp only [List.mem_append, List.mem_cons] at hc
      rcases hc with hc | rfl | hc
      · exact .inl (hdigits.digit c hc)
      · exact .inr rfl
      · exact .inl (hfraction c hc)
  | fraction hdigits =>
      rcases List.mem_cons.mp hc with rfl | hc
      · exact .inr rfl
      · exact .inl (hdigits.digit c hc)

theorem OptionalSign.eq_singleton {sign : List Char} (h : OptionalSign sign) {c : Char}
    (hc : c ∈ sign) : sign = [c] ∧ (c = '+' ∨ c = '-') := by
  cases h with
  | none => cases hc
  | plus =>
      cases List.mem_singleton.mp hc
      exact ⟨rfl, .inl rfl⟩
  | minus =>
      cases List.mem_singleton.mp hc
      exact ⟨rfl, .inr rfl⟩

/-- The characters of a numeral. -/
theorem IsNumeral.char_cases {cs : List Char} (h : IsNumeral cs) :
    ∀ c ∈ cs, c.isDigit = true ∨ c ∈ ['.', 'e', 'E', '+', '-'] := by
  have hsigned : ∀ {sign : List Char}, OptionalSign sign → ∀ c ∈ sign,
      c.isDigit = true ∨ c ∈ ['.', 'e', 'E', '+', '-'] := by
    intro sign hsign c hc
    rcases (hsign.eq_singleton hc).2 with rfl | rfl
    · exact .inr (by decide)
    · exact .inr (by decide)
  cases h with
  | mk hsign hmantissa hexponent =>
      intro c hc
      simp only [List.mem_append] at hc
      rcases hc with hc | hc | hc
      · exact hsigned hsign c hc
      · rcases hmantissa.digit_or_point c hc with hdigit | rfl
        · exact .inl hdigit
        · exact .inr (by decide)
      · cases hexponent with
        | none => cases hc
        | marked hmark hesign hdigits =>
            simp only [List.mem_cons, List.mem_append] at hc
            rcases hc with rfl | hc | hc
            · rcases hmark with rfl | rfl
              · exact .inr (by decide)
              · exact .inr (by decide)
            · exact hsigned hesign c hc
            · exact .inl (hdigits.digit c hc)

theorem IsNumeral.isNumeralChar {cs : List Char} (h : IsNumeral cs) :
    ∀ c ∈ cs, isNumeralChar c = true := by
  intro c hc
  rcases h.char_cases c hc with hdigit | hother
  · simp [Numeral.isNumeralChar, hdigit]
  · simp only [List.mem_cons, List.not_mem_nil, or_false] at hother
    rcases hother with rfl | rfl | rfl | rfl | rfl <;> decide

theorem Digits.exists_digit {cs : List Char} (h : Digits cs) : ∃ c ∈ cs, c.isDigit = true := by
  obtain ⟨c, hc⟩ := List.exists_mem_of_ne_nil cs h.ne_nil
  exact ⟨c, hc, h.digit c hc⟩

theorem IsMantissa.exists_digit {cs : List Char} (h : IsMantissa cs) :
    ∃ c ∈ cs, c.isDigit = true := by
  cases h with
  | whole hdigits => exact hdigits.exists_digit
  | pointed hdigits _ =>
      obtain ⟨c, hc, hdigit⟩ := hdigits.exists_digit
      exact ⟨c, List.mem_append_left _ hc, hdigit⟩
  | fraction hdigits =>
      obtain ⟨c, hc, hdigit⟩ := hdigits.exists_digit
      exact ⟨c, List.mem_cons_of_mem _ hc, hdigit⟩

theorem IsNumeral.exists_digit {cs : List Char} (h : IsNumeral cs) :
    ∃ c ∈ cs, c.isDigit = true := by
  cases h with
  | mk _ hmantissa _ =>
      obtain ⟨c, hc, hdigit⟩ := hmantissa.exists_digit
      exact ⟨c, List.mem_append_right _ (List.mem_append_left _ hc), hdigit⟩

theorem IsMantissa.ne_nil {cs : List Char} (h : IsMantissa cs) : cs ≠ [] := by
  cases h with
  | whole hdigits => exact hdigits.ne_nil
  | pointed hdigits _ => exact List.append_ne_nil_of_left_ne_nil hdigits.ne_nil _
  | fraction _ => exact List.cons_ne_nil _ _

theorem mem_of_getLast?_append {front back : List Char} (hne : back ≠ []) {c : Char}
    (h : c ∈ (front ++ back).getLast?) : c ∈ back := by
  rw [List.getLast?_append, List.getLast?_eq_some_getLast hne] at h
  cases h
  exact List.getLast_mem hne

/-- The last character of a numeral is a digit or a point. -/
theorem IsNumeral.getLast?_digit_or_point {cs : List Char} (h : IsNumeral cs) :
    ∀ c ∈ cs.getLast?, c.isDigit = true ∨ c = '.' := by
  intro c hc
  cases h with
  | @mk sign mantissa exponent _ hmantissa hexponent =>
      cases hexponent with
      | none =>
          rw [List.append_nil] at hc
          exact hmantissa.digit_or_point c (mem_of_getLast?_append hmantissa.ne_nil hc)
      | @marked mark esign digits _ _ hdigits =>
          have hsplit : sign ++ (mantissa ++ mark :: (esign ++ digits)) =
              sign ++ mantissa ++ mark :: esign ++ digits := by simp
          rw [hsplit] at hc
          exact .inl (hdigits.digit c (mem_of_getLast?_append hdigits.ne_nil hc))

/-! ## Literals -/

/-- A word for a number has no digit. -/
theorem ofWord?_of_digit {cs : List Char} (h : ∃ c ∈ cs, c.isDigit = true) : ofWord? cs = none := by
  obtain ⟨c, hc, hdigit⟩ := h
  obtain ⟨sign, hsign, hcs⟩ := exists_sign cs
  have hword : c ∈ (readSign cs).2 := by
    rw [hcs] at hc
    rcases List.mem_append.mp hc with hc | hc
    · rcases (hsign.eq_singleton hc).2 with rfl | rfl
      · exact absurd hdigit (by decide)
      · exact absurd hdigit (by decide)
    · exact hc
  have hlower : c ∈ (readSign cs).2.map Char.toLower :=
    List.mem_map.mpr ⟨c, hword, forall_isDigit (P := fun c => c.toLower = c) (by decide) hdigit⟩
  have hnot : ∀ word : List Char, word.any Char.isDigit = false →
      (readSign cs).2.map Char.toLower ≠ word := by
    rintro word hfree rfl
    exact List.any_eq_false.mp hfree c hlower hdigit
  rw [ofWord?]
  dsimp only
  rw [if_neg, if_neg (hnot _ (by decide))]
  rintro (hinf | hinfinity)
  · exact hnot _ (by decide) hinf
  · exact hnot _ (by decide) hinfinity

/-- **A literal is a number if it is read as a numeral**, and in no other case. -/
theorem numberOf?_eq (s : String) : numberOf? s = (read? s.toList).map toFloat := by
  rw [numberOf?, floatOf?]
  cases hread : read? s.toList with
  | some n =>
      have hnumeral := isNumeral_of_read? hread
      have hchars : s.toList.all isNumeralChar = true :=
        List.all_eq_true.mpr hnumeral.isNumeralChar
      have hdigit : s.toList.any Char.isDigit = true := List.any_eq_true.mpr hnumeral.exists_digit
      simp [hchars, hdigit]
  | none =>
      split
      · next hpasses =>
          rw [Bool.and_eq_true] at hpasses
          exact ofWord?_of_digit (List.any_eq_true.mp hpasses.2)
      · rfl

theorem isNumeral_of_numberOf? {s : String} {x : Float} (h : numberOf? s = some x) :
    IsNumeral s.toList := by
  rw [numberOf?_eq] at h
  obtain ⟨n, hn, -⟩ := Option.map_eq_some_iff.mp h
  exact isNumeral_of_read? hn

/-! ## Signs -/

/-- **`BeginsNumeral cs`** — the text begins with a digit or a point. -/
def BeginsNumeral (cs : List Char) : Prop :=
  ∃ c ∈ cs.head?, c.isDigit = true ∨ c = '.'

theorem IsMantissa.beginsNumeral {cs : List Char} (h : IsMantissa cs) (more : List Char) :
    BeginsNumeral (cs ++ more) := by
  obtain ⟨c, rest, rfl⟩ := List.exists_cons_of_ne_nil h.ne_nil
  exact ⟨c, rfl, h.digit_or_point c List.mem_cons_self⟩

/-- The first character of a numeral. -/
theorem IsNumeral.head_cases {cs : List Char} (h : IsNumeral cs) :
    ∀ c ∈ cs.head?, c.isDigit = true ∨ c ∈ ['.', '+', '-'] := by
  intro c hc
  cases h with
  | mk hsign hmantissa _ =>
      cases hsign with
      | none =>
          obtain ⟨d, hd, hbegins⟩ := hmantissa.beginsNumeral _
          cases Option.mem_unique hd hc
          rcases hbegins with hdigit | rfl
          · exact .inl hdigit
          · exact .inr (by decide)
      | plus =>
          cases hc
          exact .inr (by decide)
      | minus =>
          cases hc
          exact .inr (by decide)

/-- **Where a numeral that begins with a digit or a point has a sign**: behind the mark of its
exponent, with only digits to follow. -/
theorem IsNumeral.exists_cut {cs : List Char} (h : IsNumeral cs) (hbegins : BeginsNumeral cs)
    {c : Char} (hsign : c = '+' ∨ c = '-') (hc : c ∈ cs) :
    ∃ mantissa mark digits, IsMantissa mantissa ∧ (mark = 'e' ∨ mark = 'E') ∧ Digits digits ∧
      cs = mantissa ++ [mark] ++ c :: digits := by
  have hapart : ¬ (c.isDigit = true ∨ c = '.' ∨ c = 'e' ∨ c = 'E') := by
    rcases hsign with rfl | rfl <;> decide
  cases h with
  | @mk sign mantissa exponent hsigned hmantissa hexponent =>
      have hnone : sign = [] := by
        cases sign with
        | nil => rfl
        | cons d sign =>
            obtain ⟨e, he, hdigit⟩ := hbegins
            cases he
            rcases (hsigned.eq_singleton List.mem_cons_self).2 with rfl | rfl
            · exact absurd hdigit (by decide)
            · exact absurd hdigit (by decide)
      rw [hnone, List.nil_append] at hc ⊢
      rcases List.mem_append.mp hc with hc | hc
      · exact absurd ((hmantissa.digit_or_point c hc).imp_right .inl) hapart
      · cases hexponent with
        | none => cases hc
        | @marked mark esign digits hmark hesign hdigits =>
            simp only [List.mem_cons, List.mem_append] at hc
            rcases hc with rfl | hc | hc
            · exact absurd (.inr (.inr hmark)) hapart
            · rw [(hesign.eq_singleton hc).1]
              exact ⟨mantissa, mark, digits, hmantissa, hmark, hdigits, by simp⟩
            · exact absurd (.inl (hdigits.digit c hc)) hapart

end Numeral

end TemplateLang

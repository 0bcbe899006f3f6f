import TemplateLang.Proofs.Coercion
import TemplateLang.Proofs.Numerals.Grammar
import TemplateLang.Proofs.Operands

/-!
# TemplateLang.Proofs.Numerals.Blocks — numerals written in a block

A numeral in quotes is one string, and means the number that it spells. Without quotes the tokenizer
gets it first, which knows nothing of numerals and cuts every text of a block at the signs of its
operators. Main statement (`compileExpr_numeral`): a numeral without a sign stays one word, and means
the same number. An exponent with a sign is cut off at its sign, and the numeral is read as a sum or
a difference; what stands in front of the sign ends in `e` and is no numeral, so its value is `nan`,
which no numeral means.
-/

namespace TemplateLang

/-! ## Characters -/

theorem isWordChar_of_isDigit {c : Char} (h : c.isDigit = true) : isWordChar c = true :=
  forall_isDigit (P := fun c => isWordChar c = true) (by decide) h

theorem isLetter_of_isDigit {c : Char} (h : c.isDigit = true) : Text.isLetter c = false :=
  forall_isDigit (P := fun c => Text.isLetter c = false) (by decide +kernel) h

/-! ## What a word means that begins like a numeral -/

/-- A path begins with a name, which begins with no digit and no point. -/
theorem Path.isPath_of_beginsNumeral {s : String} (h : Numeral.BeginsNumeral s.toList) :
    isPath s = false := by
  obtain ⟨c, hc, hbegins⟩ := h
  obtain ⟨cs, hs⟩ := List.head?_eq_some_iff.mp hc
  rw [isPath, hs]
  rcases hbegins with hdigit | rfl
  · have hpoint : c ≠ '.' := by
      rintro rfl
      exact absurd hdigit (by decide)
    have hunderscore : c ≠ '_' := by
      rintro rfl
      exact absurd hdigit (by decide)
    simp [segments, hpoint, isName, isLetter_of_isDigit hdigit, hunderscore]
  · simp [segments, isName]

theorem isConstant_of_beginsNumeral {s : String} (h : Numeral.BeginsNumeral s.toList) :
    isConstant s = false := by
  obtain ⟨c, hc, hbegins⟩ := h
  cases hconstant : isConstant s with
  | false => rfl
  | true =>
      simp only [isConstant, Bool.or_eq_true, beq_iff_eq] at hconstant
      rcases hconstant with (rfl | rfl) | rfl <;> cases hc <;> exact absurd hbegins (by decide)

/-- **A word that begins like a numeral is a literal**, a number or its own text. -/
theorem Expr.eval_word_of_beginsNumeral {s : String} (h : Numeral.BeginsNumeral s.toList)
    (offset : Nat) (c : Context) :
    (leaf ⟨.word, s, offset⟩).eval c = .ok (Value.ofText s) := by
  show (Meaning.ofWord s).eval c = _
  rw [Meaning.ofWord_of_not_constant (isConstant_of_beginsNumeral h),
    Path.isPath_of_beginsNumeral h, Value.ofText]
  cases Numeral.numberOf? s <;> rfl

/-! ## Numerals -/

/-- **`SignFree s`** — there is no sign in the text. -/
def SignFree (s : String) : Prop :=
  '+' ∉ s.toList ∧ '-' ∉ s.toList

theorem Numeral.Digits.isPlainWord {digits : List Char} (h : Digits digits) :
    IsPlainWord (String.ofList digits) :=
  isPlainWord_ofList h.ne_nil fun c hc => isWordChar_of_isDigit (h.digit c hc)

section Marked

variable {mantissa : List Char} {mark : Char} (hmark : mark = 'e' ∨ mark = 'E')

include hmark

/-- A mantissa and a mark are one word. -/
theorem Numeral.IsMantissa.isPlainWord_marked (h : IsMantissa mantissa) :
    IsPlainWord (String.ofList (mantissa ++ [mark])) := by
  refine isPlainWord_ofList (List.append_ne_nil_of_left_ne_nil h.ne_nil _) ?_
  intro c hc
  rcases List.mem_append.mp hc with hc | hc
  · rcases h.digit_or_point c hc with hdigit | rfl
    · exact isWordChar_of_isDigit hdigit
    · decide
  · rw [List.mem_singleton.mp hc]
    rcases hmark with rfl | rfl <;> decide

/-- A mark without an exponent makes no numeral. -/
theorem Numeral.numberOf?_marked (front : List Char) :
    numberOf? (String.ofList (front ++ [mark])) = none := by
  refine Option.eq_none_iff_forall_not_mem.mpr fun y hy => ?_
  have hlast := (isNumeral_of_numberOf? hy).getLast?_digit_or_point mark (by simp)
  rcases hmark with rfl | rfl <;> exact absurd hlast (by decide)

end Marked

section Numerals

variable {s : String} {x : Float} (hx : Numeral.numberOf? s = some x)

include hx

/-- **A numeral in quotes means the number that it spells.** -/
theorem compileExpr_quotedNumeral {q : Char} (hq : isQuote q = true) :
    ∃ e, compileExpr (inBlock (quotedBy q s)) {} = .ok e ∧ ∀ c, e.eval c = .ok (.number x) := by
  have hquotes : ∀ r, isQuote r = true → r ∉ s.toList := by
    intro r hr hmem
    have hchar := (Numeral.isNumeral_of_numberOf? hx).char_cases r hmem
    rcases isQuote_iff.mp hr with rfl | rfl <;> exact absurd hchar (by decide)
  have ht : (Expr.leaf ⟨.quoted, s, 0⟩).Printable :=
    .inr ⟨rfl, fun h => hquotes '"' rfl h.2⟩
  have hraw : Token.SpelledAs ⟨.quoted, s, 0⟩ (quotedBy q s).toList :=
    ⟨q, hq, hquotes q hq, toList_quotedBy q s⟩
  obtain ⟨e, he, hsame⟩ := compileExpr_operand ht hraw
  refine ⟨e, he, fun c => ?_⟩
  rw [Expr.eval_eq_of_unplaced_eq hsame, Expr.eval_quoted rfl, Value.coerced_of_numeral hx]

variable (hbegins : Numeral.BeginsNumeral s.toList)

include hbegins

/-- **A numeral without a sign means the number that it spells**, as a word. -/
theorem compileExpr_plainNumeral (hfree : SignFree s) :
    ∃ e, compileExpr (inBlock s) {} = .ok e ∧ ∀ c, e.eval c = .ok (.number x) := by
  have hword : IsPlainWord s := by
    refine ⟨?_, ?_⟩
    · intro hnil
      obtain ⟨c, hc, -⟩ := hbegins
      rw [hnil] at hc
      cases hc
    · intro c hc
      rcases (Numeral.isNumeral_of_numberOf? hx).char_cases c hc with hdigit | hother
      · exact isWordChar_of_isDigit hdigit
      · simp only [List.mem_cons, List.not_mem_nil, or_false] at hother
        rcases hother with rfl | rfl | rfl | rfl | rfl
        · decide
        · decide
        · decide
        · exact absurd hc hfree.1
        · exact absurd hc hfree.2
  obtain ⟨e, he, hsame⟩ := compileExpr_operand (t := ⟨.word, s, 0⟩) (.inl ⟨rfl, hword.isName⟩) rfl
  refine ⟨e, he, fun c => ?_⟩
  rw [Expr.eval_eq_of_unplaced_eq hsame, Expr.eval_word_of_beginsNumeral hbegins, Value.ofText, hx]

/-- **A numeral with a sign is cut at the sign**: what stands in front of it is a word, but no
numeral any more, and what stands behind it are digits. -/
theorem exists_cut_of_signed (hsigned : ¬ SignFree s) :
    ∃ op left right, (op = Operator.add ∨ op = Operator.subtract) ∧
      s = left ++ op.symbol ++ right ∧ IsPlainWord left ∧ IsPlainWord right ∧
      Numeral.BeginsNumeral left.toList ∧ Numeral.BeginsNumeral right.toList ∧
      Numeral.numberOf? left = none := by
  obtain ⟨op, sign, hop, hsymbol, hsign, hmem⟩ : ∃ op sign,
      (op = Operator.add ∨ op = Operator.subtract) ∧ op.symbol.toList = [sign] ∧
        (sign = '+' ∨ sign = '-') ∧ sign ∈ s.toList := by
    rcases Decidable.not_and_iff_or_not.mp hsigned with hplus | hminus
    · exact ⟨.add, '+', .inl rfl, rfl, .inl rfl, Decidable.not_not.mp hplus⟩
    · exact ⟨.subtract, '-', .inr rfl, rfl, .inr rfl, Decidable.not_not.mp hminus⟩
  obtain ⟨mantissa, mark, digits, hmantissa, hmark, hdigits, hs⟩ :=
    (Numeral.isNumeral_of_numberOf? hx).exists_cut hbegins hsign hmem
  refine ⟨op, String.ofList (mantissa ++ [mark]), String.ofList digits, hop, ?_,
    hmantissa.isPlainWord_marked hmark, hdigits.isPlainWord, ?_, ?_,
    Numeral.numberOf?_marked hmark mantissa⟩
  · refine String.toList_inj.mp ?_
    simp [hs, hsymbol]
  · rw [String.toList_ofList]
    exact hmantissa.beginsNumeral _
  · rw [String.toList_ofList, ← List.append_nil digits]
    exact (Numeral.IsMantissa.whole hdigits).beginsNumeral []

/-- **A numeral with a sign means nothing**, as it is read in a block. -/
theorem compileExpr_signedNumeral (hsigned : ¬ SignFree s) :
    ∃ op left right e, (op = Operator.add ∨ op = Operator.subtract) ∧
      s = left ++ op.symbol ++ right ∧ compileExpr (inBlock s) {} = .ok e ∧
      e.unplaced = Expr.onWords op left right ∧
      ∀ c, e.eval c = .ok (.number Binary64.nan) := by
  obtain ⟨op, left, right, hop, hs, hleft, hright, hleftBegins, hrightBegins, hnone⟩ :=
    exists_cut_of_signed hx hbegins hsigned
  obtain ⟨e, he, hsame⟩ := compileExpr_cut op hleft hright
  refine ⟨op, left, right, e, hop, hs, hs ▸ he, hsame, fun c => ?_⟩
  have hleftValue := Expr.eval_word_of_beginsNumeral hleftBegins 0 c
  have hrightValue := Expr.eval_word_of_beginsNumeral hrightBegins 0 c
  rw [Value.ofText, hnone] at hleftValue
  calc e.eval c
      = (Expr.onWords op left right).eval c := Expr.eval_eq_of_unplaced_eq hsame c
    _ = .ok (op.apply (.string left) (Value.ofText right)) := by
        rw [Expr.onWords, Expr.eval, hleftValue, hrightValue]
    _ = .ok (.number Binary64.nan) := by rw [Operator.apply_of_not_numeral hop hnone]

end Numerals

/-- **What a numeral means in a block**, if it begins with a digit or a point. In quotes it means the
number that it spells, and so it does without them if it has no sign. If its exponent has one, the
block is read as the sum or the difference of what stands on both sides of the sign, and the value is
`nan`, which the numeral does not spell. -/
theorem compileExpr_numeral {s : String} {x : Float} (hx : Numeral.numberOf? s = some x)
    (hbegins : Numeral.BeginsNumeral s.toList) :
    (∀ q, isQuote q = true →
      ∃ e, compileExpr (inBlock (quotedBy q s)) {} = .ok e ∧ ∀ c, e.eval c = .ok (.number x)) ∧
    (SignFree s → ∃ e, compileExpr (inBlock s) {} = .ok e ∧ ∀ c, e.eval c = .ok (.number x)) ∧
    (¬ SignFree s →
      ∃ op left right e, (op = Operator.add ∨ op = Operator.subtract) ∧
        s = left ++ op.symbol ++ right ∧ compileExpr (inBlock s) {} = .ok e ∧
        e.unplaced = Expr.onWords op left right ∧
        ∀ c, e.eval c = .ok (.number Binary64.nan)) ∧
    x ≠ Binary64.nan :=
  ⟨fun _ hq => compileExpr_quotedNumeral hx hq, compileExpr_plainNumeral hx hbegins,
    compileExpr_signedNumeral hx hbegins, Numeral.ne_nan_of_numberOf? hx⟩

/-- `1.5e3` is one word; `1e+5` is a hundred thousand in quotes, and a sum with `1e` without. -/
theorem exponentNumerals_compile :
    (Numeral.numberOf? "1.5e3" = some 1500 ∧ Numeral.BeginsNumeral "1.5e3".toList ∧
      ∃ e, compileExpr (inBlock "1.5e3") {} = .ok e ∧ ∀ c, e.eval c = .ok (.number 1500)) ∧
    Numeral.numberOf? "1e+5" = some 100000 ∧ Numeral.BeginsNumeral "1e+5".toList ∧
      (∃ e, compileExpr (inBlock (quotedBy '"' "1e+5")) {} = .ok e ∧
        ∀ c, e.eval c = .ok (.number 100000)) ∧
      ∃ e, compileExpr (inBlock "1e+5") {} = .ok e ∧
        ∀ c, e.eval c = .ok (.number Binary64.nan) := by
  have hplain : Numeral.numberOf? "1.5e3" = some 1500 := rfl
  have hsigned : Numeral.numberOf? "1e+5" = some 100000 := rfl
  have hone : ∀ cs, Numeral.BeginsNumeral ('1' :: cs) := fun _ => ⟨'1', rfl, .inl rfl⟩
  obtain ⟨-, hword, -, -⟩ := compileExpr_numeral hplain (hone _)
  obtain ⟨hquoted, -, hcut, -⟩ := compileExpr_numeral hsigned (hone _)
  obtain ⟨_, _, _, e, _, _, he, _, hnan⟩ := hcut fun hfree => hfree.1 (by decide)
  exact ⟨⟨hplain, hone _, hword ⟨by decide, by decide⟩⟩, hsigned, hone _, hquoted '"' rfl, e, he,
    hnan⟩

/-- Without quotes `1e+5` does not mean the number that it spells. -/
theorem not_every_numeral_means_its_number :
    ¬ ∀ (s : String) (x : Float), Numeral.numberOf? s = some x →
      Numeral.BeginsNumeral s.toList →
        ∃ e, compileExpr (inBlock s) {} = .ok e ∧ ∀ c, e.eval c = .ok (.number x) := by
  intro h
  have hx : Numeral.numberOf? "1e+5" = some 100000 := rfl
  have hbegins : Numeral.BeginsNumeral "1e+5".toList := ⟨'1', rfl, .inl rfl⟩
  obtain ⟨e, he, hvalue⟩ := h "1e+5" 100000 hx hbegins
  obtain ⟨_, _, _, e', _, _, he', _, hnan⟩ :=
    compileExpr_signedNumeral hx hbegins fun hfree => hfree.1 (by decide)
  have hsame : e = e' := Except.ok.inj (he.symm.trans he')
  have hboth := (hvalue (.ofPairs [])).symm.trans (hsame ▸ hnan (.ofPairs []))
  exact Numeral.ne_nan_of_numberOf? hx (Value.number.inj (Except.ok.inj hboth))

end TemplateLang

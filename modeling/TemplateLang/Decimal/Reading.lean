import TemplateLang.Decimal.Basic

/-!
# TemplateLang.Decimal.Reading — which texts are numerals, and what they spell

A numeral is, with `D` an ASCII digit,

    [+-]? (D+ ('.' D*)? | '.' D+) ([eE] [+-]? D+)?

with no blanks, no digit separators and no hexadecimal. The whole text has to match, so `2a3b` and
`1e` are not numerals. The reader follows the grammar from left to right, one small reader for each
part; each returns what it read and the rest of the text.

Numbers may also be written as words, for infinity and for what is not a number (`floatOf?`). A
literal must not: it is a number only if its characters are those of numerals and one of them is a
digit (`numberOf?`), which leaves the words out.
-/

namespace TemplateLang.Numeral

/-- Reads an optional sign; `true` stands for minus. -/
def readSign : List Char → Bool × List Char
  | '-' :: rest => (true, rest)
  | '+' :: rest => (false, rest)
  | rest => (false, rest)

/-- Reads the longest run of digits. -/
def readDigits (cs : List Char) : List Char × List Char :=
  (cs.takeWhile Char.isDigit, cs.dropWhile Char.isDigit)

theorem readDigits_append (cs : List Char) : (readDigits cs).1 ++ (readDigits cs).2 = cs :=
  List.takeWhile_append_dropWhile

/-- Reads an optional point and the digits after it. -/
def readFraction : List Char → List Char × List Char
  | '.' :: rest => readDigits rest
  | rest => ([], rest)

/-- The exponent that the rest of a numeral spells: nothing at all, or a marked integer that
reaches the end of the text. -/
def readExponent? : List Char → Option Int
  | [] => some 0
  | mark :: rest =>
      if mark = 'e' ∨ mark = 'E' then
        let (negative, digits) := readSign rest
        if digits.isEmpty || !digits.all Char.isDigit then none
        else
          let n := Nat.ofDigitChars 10 digits 0
          some (if negative then -(n : Int) else n)
      else none

/-- Reads a text as a numeral. Digits before and after the point form one integer, which the point
and the exponent scale; a text without a digit before the exponent is no numeral. -/
def read? (cs : List Char) : Option Numeral :=
  let (negative, unsigned) := readSign cs
  let (whole, afterWhole) := readDigits unsigned
  let (fraction, afterFraction) := readFraction afterWhole
  if whole.isEmpty && fraction.isEmpty then none
  else
    (readExponent? afterFraction).map fun exponent =>
      ⟨negative, Nat.ofDigitChars 10 (whole ++ fraction) 0, exponent - fraction.length⟩

-- a point needs a digit on one side, and either side will do
example : read? ['.'] = none ∧ read? ['5', '.'] = some ⟨false, 5, 0⟩ ∧
    read? ['.', '5'] = some ⟨false, 5, -1⟩ := by decide

/-! ## Numbers in texts -/

/-- The number that a word stands for, with or without a sign and in any case of its letters. -/
def ofWord? (cs : List Char) : Option Float :=
  let (negative, word) := readSign cs
  let lower := word.map Char.toLower
  if lower = ['i', 'n', 'f'] ∨ lower = ['i', 'n', 'f', 'i', 'n', 'i', 't', 'y'] then
    some (Binary64.ofMagnitude negative Binary64.infinity)
  else if lower = ['n', 'a', 'n'] then some Binary64.nan
  else none

/-- The number that a text stands for, as a numeral or as a word. -/
def floatOf? (cs : List Char) : Option Float :=
  match read? cs with
  | some n => some n.toFloat
  | none => ofWord? cs

/-- Whether `c` can stand in a numeral. -/
def isNumeralChar (c : Char) : Bool :=
  c.isDigit || c == '+' || c == '-' || c == '.' || c == 'e' || c == 'E'

/-- The number that a literal stands for: only characters of numerals, with a digit among them, are
read as a number at all. -/
def numberOf? (s : String) : Option Float :=
  if s.toList.all isNumeralChar && s.toList.any Char.isDigit then floatOf? s.toList else none

end TemplateLang.Numeral

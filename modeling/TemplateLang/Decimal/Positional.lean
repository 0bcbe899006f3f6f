import TemplateLang.Decimal.Shortest

/-!
# TemplateLang.Decimal.Positional — numbers as text, without an exponent

A number that is an integer of at most fifteen digits is written as that integer, and so zero has no
sign. Any other number is written with the digits of the shortest decimal that reads back as it,
always in positional form: zeros fill the places down to the units or behind the point, and no
exponent is ever written. The infinities and the number that is not one have words of their own,
which are not numerals.
-/

namespace TemplateLang

namespace Decimal

/-- The digits of a decimal with `places` of them behind the point, at least one before it. -/
def withPoint (digits : Nat) (places : Nat) : List Char :=
  let written := Nat.toDigits 10 digits
  let filled := List.replicate (places + 1 - written.length) '0' ++ written
  filled.take (filled.length - places) ++ '.' :: filled.drop (filled.length - places)

/-- The positional form of a decimal. -/
def positional (d : Decimal) : List Char :=
  match d.exponent with
  | .ofNat e => Nat.toDigits 10 d.digits ++ List.replicate e '0'
  | .negSucc e => withPoint d.digits (e + 1)

example : positional ⟨12, 3⟩ = ['1', '2', '0', '0', '0'] := by decide

example : positional ⟨12, -3⟩ = ['0', '.', '0', '1', '2'] := by decide

end Decimal

namespace Binary64

/-- The integer that a number is, if it is one. -/
def integer? (x : Float) : Option Int :=
  let bits := magnitude x
  let scaled := significand bits <<< scale bits
  if bits < infinity ∧ scaled % Nat.pow 2 1074 = 0 then
    let n := scaled >>> 1074
    some (if isNegative x then -(n : Int) else n)
  else none

/-- The text of an integer. -/
def integerText (i : Int) : String :=
  String.ofList ((if i < 0 then ['-'] else []) ++ Nat.toDigits 10 i.natAbs)

/-- The text of a number, in the digits of the shortest decimal or in words. -/
def shortestText (x : Float) : String :=
  let bits := magnitude x
  let sign := if isNegative x then ['-'] else []
  if infinity < bits then "NaN"
  else if bits = infinity then String.ofList (sign ++ ['i', 'n', 'f'])
  else if bits = 0 then String.ofList (sign ++ ['0'])
  else String.ofList (sign ++ (Decimal.shortest bits).positional)

/-- The text of a number. -/
def text (x : Float) : String :=
  match integer? x with
  | some i => if i.natAbs < Nat.pow 10 15 then integerText i else shortestText x
  | none => shortestText x

end Binary64

end TemplateLang

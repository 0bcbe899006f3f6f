import TemplateLang.Value.Basic
import TemplateLang.Decimal.Reading
import TemplateLang.Json

/-!
# TemplateLang.Value.Coercion — from text, numbers and documents to values, and back to numbers

A literal is a number when its whole text is a numeral and a string otherwise; there is no third
outcome and no error. The operators ask every operand for a number (`Value.number?`): strings are
read by the same rule as literals, null and the truth values count as zero and one, and arrays and
maps have no number.
-/

namespace TemplateLang.Value

/-- Coerces a literal: the number that the text spells as a whole, else the text itself. -/
def ofText (s : String) : Value :=
  match Numeral.numberOf? s with
  | some x => .number x
  | none => .string s

/-- The value of a literal that may be missing; what is missing is null. -/
def ofLiteral : Option String → Value
  | none => .null
  | some s => ofText s

/-- The number that a value stands for as an operand. -/
def number? : Value → Option Float
  | .null => some Binary64.zero
  | .bool b => some (if b then Binary64.one else Binary64.zero)
  | .number x => some x
  | .string s => Numeral.numberOf? s
  | .array _ => none
  | .map _ => none

/-- The number nearest to an integer. -/
def ofInt (i : Int) : Value :=
  .number (Numeral.ofInt i).toFloat

/-- Coercing a string changes nothing about its number. -/
theorem number?_ofText (s : String) : (ofText s).number? = (Value.string s).number? := by
  unfold ofText
  split <;> rename_i h <;> simp [number?, h]

/-! ## Documents -/

mutual

/-- The value of a document: every number is the one nearest to its numeral. -/
def ofJson : Json → Value
  | .null => .null
  | .bool b => .bool b
  | .number n => .number n.toFloat
  | .string s => .string s
  | .array items => .array (ofJsonItems items)
  | .object members => .map (ofJsonMembers members [])

/-- The values of the items of an array. -/
def ofJsonItems : List Json → List Value
  | [] => []
  | j :: rest => ofJson j :: ofJsonItems rest

/-- Binds the members of an object from left to right, so that later ones replace earlier ones of
the same name. -/
def ofJsonMembers : List (String × Json) → Bindings Value → Bindings Value
  | [], entries => entries
  | (name, j) :: rest, entries => ofJsonMembers rest (entries.insert name (ofJson j))

end

end TemplateLang.Value

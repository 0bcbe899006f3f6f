import TemplateLang.Text.Order
import TemplateLang.Value.Coercion

/-!
# TemplateLang.Expr.Operator — the binary operators

There are five operators, all left-associative, on three levels of precedence: the comparison binds
loosest, sums bind tighter, products tightest. An operator never fails. It asks both operands for
their number and computes in binary64; an operand without a number counts as the number that is
not one, which makes every comparison with it false and every sum and product with it the same
non-number. The one exception is a comparison of two strings that are not both numerals, which
goes by code point order.
-/

namespace TemplateLang

/-- A binary operator. -/
inductive Operator where
  | greater
  | add
  | subtract
  | multiply
  | divide
deriving DecidableEq

namespace Operator

/-- The operators, loosest first. -/
def all : List Operator :=
  [.greater, .add, .subtract, .multiply, .divide]

/-- The text that writes the operator. -/
def symbol : Operator → String
  | .greater => ">"
  | .add => "+"
  | .subtract => "-"
  | .multiply => "*"
  | .divide => "/"

/-- How tightly the operator binds; a higher number binds tighter. -/
def precedence : Operator → Nat
  | .greater => 0
  | .add => 1
  | .subtract => 1
  | .multiply => 2
  | .divide => 2

/-- The operator that a text writes. -/
def ofSymbol? (s : String) : Option Operator :=
  all.find? fun op => op.symbol == s

theorem ofSymbol?_symbol (op : Operator) : ofSymbol? op.symbol = some op := by
  cases op <;> decide

/-! ## Application -/

/-- The number of an operand, or the number that is not one. -/
def operand (v : Value) : Float :=
  match v.number? with
  | some x => x
  | none => Binary64.nan

/-- Whether `left` is greater than `right`. -/
def isGreater (left right : Value) : Bool :=
  match left, right with
  | .string s, .string t =>
      if (Numeral.numberOf? s).isSome && (Numeral.numberOf? t).isSome then
        decide (operand right < operand left)
      else Text.before t s
  | _, _ => decide (operand right < operand left)

/-- The value of an operator on its operands. -/
def apply : Operator → Value → Value → Value
  | .greater, left, right => .bool (isGreater left right)
  | .add, left, right => .number (operand left + operand right)
  | .subtract, left, right => .number (operand left - operand right)
  | .multiply, left, right => .number (operand left * operand right)
  | .divide, left, right => .number (operand left / operand right)

end Operator

end TemplateLang

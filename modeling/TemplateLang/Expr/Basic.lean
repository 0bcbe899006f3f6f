import TemplateLang.Expr.Operator
import TemplateLang.Token.Basic

/-!
# TemplateLang.Expr.Basic — expressions

An expression is a tree of binary operators over tokens. Groups leave no trace in the tree: its
shape says what belongs together, and the text of a tree (`Expr.text`) puts every operator back
into parentheses.
-/

namespace TemplateLang

/-- An expression. -/
inductive Expr where
  | leaf (token : Token)
  | binary (op : Operator) (left right : Expr)
deriving DecidableEq

namespace Expr

/-- The text of an expression, with every operator in parentheses and quoted leaves in single
quotes. -/
def text : Expr → String
  | .leaf t =>
      match t.kind with
      | .quoted => "'" ++ t.text ++ "'"
      | _ => t.text
  | .binary op left right => "(" ++ left.text ++ " " ++ op.symbol ++ " " ++ right.text ++ ")"

end Expr

/-- The operator that a token writes: the whole token has to be its symbol, so operators written
without a blank between them are none. -/
def Token.operator? (t : Token) : Option Operator :=
  match t.kind with
  | .operator => Operator.ofSymbol? t.text
  | _ => none

end TemplateLang

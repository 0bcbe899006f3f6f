import TemplateLang.Context.Basic
import TemplateLang.Expr.Basic

/-!
# TemplateLang.Expr.Eval — the value of an expression in a context

A leaf is a literal or a variable, and its spelling decides which (`Token.meaning`). Strings and
literal text are literals, numbers if they are numerals. A word is, in this order, one of the
three constants, a numeral, a path to be looked up, or else its own text. Only looking up a path
can fail; the operators never do. The left operand is evaluated first, and both always are.
-/

namespace TemplateLang

/-- What a token stands for as an operand. -/
inductive Meaning where
  /-- A value of its own. -/
  | value (v : Value)
  /-- Whatever the context has at the path. -/
  | variable (path : String)

/-- What a word stands for. -/
def Meaning.ofWord (word : String) : Meaning :=
  if word == "true" then .value (.bool true)
  else if word == "false" then .value (.bool false)
  else if word == "null" then .value .null
  else
    match Numeral.numberOf? word with
    | some x => .value (.number x)
    | none => if Path.isPath word then .variable word else .value (.string word)

/-- What a token stands for. -/
def Token.meaning (t : Token) : Meaning :=
  if t.kind == .word then Meaning.ofWord t.text else .value (Value.ofText t.text)

/-- The value of what a token stands for, in a context. -/
def Meaning.eval (c : Context) : Meaning → Except EvalError Value
  | .value v => .ok v
  | .variable path => c.lookup path

/-- The value of an expression in a context. -/
def Expr.eval (c : Context) : Expr → Except EvalError Value
  | .leaf t => t.meaning.eval c
  | .binary op left right =>
      match left.eval c with
      | .error e => .error e
      | .ok v =>
          match right.eval c with
          | .error e => .error e
          | .ok w => .ok (op.apply v w)

end TemplateLang

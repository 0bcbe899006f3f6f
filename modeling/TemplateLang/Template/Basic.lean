import TemplateLang.Expr.Basic

/-!
# TemplateLang.Template.Basic — compiled templates

A compiled template is a list of nodes in document order: literal text, outputs, assignments, and
the conditionals and loops that hold nodes of their own. It says what a renderer has to do and
leaves the rendering to it.
-/

namespace TemplateLang

/-- A piece of a compiled template. -/
inductive Node where
  /-- Text that stands for itself. -/
  | literal (text : String)
  /-- The value of an expression. -/
  | output (value : Expr)
  /-- Binds a name to the value of an expression; the operator is kept as it was written. -/
  | assign (name : String) (sign : String) (value : Expr)
  /-- Nodes that count only if the condition holds. -/
  | conditional (condition : Expr) (body : List Node)
  /-- Nodes that count once for every item, with the name bound to it. -/
  | loop (name : String) (items : Expr) (body : List Node)

/-- A compiled template. -/
abbrev Template := List Node

end TemplateLang

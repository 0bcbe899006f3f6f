import TemplateLang.Expr.Eval
import TemplateLang.Proofs.Places

/-!
# TemplateLang.Proofs.Evaluation — evaluating bottom up

The value of an expression is defined along its tree. `Expr.steps` lays the tree out as a sequence
of steps: operands as they stand from left to right, every operator right behind its two operands.
A calculator with a stack of values takes the steps one by one (`calculate`). Main statement
(`calculate_steps`): it comes to the value of the expression, or to the error of its first operand
that has none, and touches nothing that was on the stack before.
-/

namespace TemplateLang

/-- A step of a calculation. -/
inductive Step where
  /-- Puts the value of an operand on the stack. -/
  | operand (t : Token)
  /-- Puts the value of an operator in place of the two topmost values. -/
  | apply (op : Operator)

/-- **`calculate c steps stack`** — takes the steps one after the other, in the context `c`. The
stack has its topmost value in front. Where an operator misses an operand, nothing is left. -/
def calculate (c : Context) : List Step → List Value → Except EvalError (List Value)
  | [], stack => .ok stack
  | .operand t :: steps, stack =>
      match t.meaning.eval c with
      | .error e => .error e
      | .ok v => calculate c steps (v :: stack)
  | .apply op :: steps, right :: left :: stack => calculate c steps (op.apply left right :: stack)
  | .apply _ :: _, _ => .ok []

namespace Expr

/-- The steps that come to the value of an expression: those of the left operand, those of the
right one, and the operator. -/
def steps : Expr → List Step
  | .leaf t => [.operand t]
  | .binary op left right => left.steps ++ right.steps ++ [.apply op]

/-- The steps of an expression put its value on the stack, and the calculation goes on. -/
theorem calculate_steps_append (c : Context) (e : Expr) (more : List Step) (stack : List Value) :
    calculate c (e.steps ++ more) stack =
      match e.eval c with
      | .error err => .error err
      | .ok v => calculate c more (v :: stack) := by
  induction e generalizing more stack with
  | leaf t => rfl
  | binary op left right ihl ihr =>
      have hsplit : (binary op left right).steps ++ more =
          left.steps ++ (right.steps ++ .apply op :: more) := by
        simp [steps]
      rw [hsplit, ihl, eval]
      cases left.eval c with
      | error err => rfl
      | ok v =>
          show calculate c (right.steps ++ .apply op :: more) (v :: stack) = _
          rw [ihr]
          cases right.eval c with
          | error err => rfl
          | ok w => rfl

/-- **Calculating evaluates.** -/
theorem calculate_steps (c : Context) (e : Expr) :
    calculate c e.steps [] = (e.eval c).map fun v => [v] := by
  have h := calculate_steps_append c e [] []
  rw [List.append_nil] at h
  rw [h]
  cases e.eval c with
  | error err => rfl
  | ok v => rfl

/-- The value of an expression does not depend on the places of its tokens. -/
theorem eval_unplaced (c : Context) (e : Expr) : e.unplaced.eval c = e.eval c := by
  induction e with
  | leaf t => rfl
  | binary op left right ihl ihr => rw [unplaced_binary, eval, eval, ihl, ihr]

theorem eval_eq_of_unplaced_eq {e e' : Expr} (h : e.unplaced = e'.unplaced) (c : Context) :
    e.eval c = e'.eval c := by
  rw [← eval_unplaced c e, h, eval_unplaced]

end Expr

end TemplateLang

/-!
# TemplateLang.Diagnostic.EvalError — why an expression has no value

Evaluating fails in one way only: a variable is missing and the context does not take missing
variables for null. The error names the path as it was written. It points at no source, because an
expression no longer knows the text that it came from.
-/

namespace TemplateLang

/-- Why an expression has no value. -/
inductive EvalError where
  /-- The path has no value, and the context insists on one. -/
  | unresolvedVariable (path : String)
deriving DecidableEq

namespace EvalError

/-- The message of an error. -/
def message : EvalError → String
  | .unresolvedVariable path => "variable `" ++ path ++ "` is not defined"

/-- The code by which tools know an error. -/
def code : EvalError → String
  | .unresolvedVariable _ => "twig::eval::undefined"

/-- Advice on how to mend the evaluation. -/
def help? : EvalError → Option String
  | .unresolvedVariable _ =>
      some "use `UndefinedBehavior::Lenient` to resolve missing variables to null"

end EvalError

end TemplateLang

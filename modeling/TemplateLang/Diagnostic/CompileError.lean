import TemplateLang.Diagnostic.Problem
import TemplateLang.Source

/-!
# TemplateLang.Diagnostic.CompileError — a problem and where it is

Compiling fails with one error, the first. Apart from the template without tokens, which has no
place to point at, an error is a problem with the span that it is about and the source that the
span lies in.
-/

namespace TemplateLang

/-- Why a template or an expression did not compile. -/
inductive CompileError where
  /-- There is nothing to compile under this name. -/
  | emptyInput (name : String)
  /-- A problem at a place of the source. -/
  | located (problem : Problem) (span : Span) (source : Source)
deriving DecidableEq

namespace CompileError

/-- The message of an error. -/
def message : CompileError → String
  | .emptyInput name => "template `" ++ name ++ "` contains no tokens"
  | .located problem _ _ => problem.message

/-- The code by which tools know an error. -/
def code : CompileError → String
  | .emptyInput _ => "twig::empty_input"
  | .located problem _ _ => problem.code

/-- Advice on how to mend the template. -/
def help? : CompileError → Option String
  | .emptyInput _ => none
  | .located problem _ _ => problem.help?

/-- The labelled places of an error. -/
def labels : CompileError → List (String × Span)
  | .emptyInput _ => []
  | .located problem span _ => [(problem.label, span)]

/-- The source that the labels point into. -/
def source? : CompileError → Option Source
  | .emptyInput _ => none
  | .located _ _ source => some source

end CompileError

end TemplateLang

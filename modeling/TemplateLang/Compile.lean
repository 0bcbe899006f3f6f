import TemplateLang.Template.Reading
import TemplateLang.Token.Stream

/-!
# TemplateLang.Compile — from text to expressions and templates

A stream of tokens is read under the options of the caller, from the cursor on: as one expression,
which leaves the rest of the stream alone, or as a template, which uses the stream up.

On texts there are two entry points. A template is compiled as a whole. An expression is compiled
from where the text begins, be it an output block or a literal; whatever stands behind the
expression is ignored, so the text may go on. In both cases the whole text has to be tokenized
first.
-/

namespace TemplateLang

namespace TokenStream

/-- Reads an expression whose operators bind at least as tightly as `minPrecedence`. -/
def readExpr (options : Options) (minPrecedence : Nat) (s : TokenStream) :
    Except CompileError Expr × TokenStream :=
  s.read options fun levels => Expr.read levels minPrecedence

/-- Reads the rest of the stream as a template. -/
def readTemplate (options : Options) (s : TokenStream) :
    Except CompileError Template × TokenStream :=
  s.read options Template.read

end TokenStream

/-- Compiles the expression that a text begins with. -/
def compileExpr (text : String) (options : Options) : Except CompileError Expr :=
  match TokenStream.ofSource ⟨options.name, text⟩ with
  | .error e => .error e
  | .ok stream => (stream.readExpr options 0).1

/-- Compiles a template. -/
def compileTemplate (text : String) (options : Options) : Except CompileError Template :=
  match TokenStream.ofSource ⟨options.name, text⟩ with
  | .error e => .error e
  | .ok stream => (stream.readTemplate options).1

end TemplateLang

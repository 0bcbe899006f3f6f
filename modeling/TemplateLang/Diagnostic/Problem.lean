import TemplateLang.Token.Delimiter

/-!
# TemplateLang.Diagnostic.Problem — what can be wrong with a template, and how it is told

A problem is a cause, not a message: what was expected, which part of a statement is missing, which
limit was passed. The wording of every cause is in one place, here: the message, the code that
tools match on, the advice where there is some, and the label at the place that the problem is
about.
-/

namespace TemplateLang

/-- What could have stood where something else was found. -/
inductive Expectation where
  /-- A leaf, a group or an output opener. -/
  | operand
  /-- The parenthesis that closes a group. -/
  | groupEnd
  /-- The delimiter that closes a block of this kind. -/
  | blockEnd (kind : BlockKind)
deriving DecidableEq

/-- The name of what was expected. -/
def Expectation.text : Expectation → String
  | .operand => "an operand"
  | .groupEnd => "`)`"
  | .blockEnd kind => "`" ++ (Delimiter.closing kind).text ++ "`"

/-- A part that a statement has to have. -/
inductive StatementPart where
  /-- The word that says which statement it is. -/
  | keyword
  /-- The name that an assignment binds. -/
  | variableName
  /-- The operator behind the name of an assignment. -/
  | assignmentSign (name : String)
  /-- The name that a loop binds. -/
  | loopVariable
  /-- The word between the name of a loop and what it runs over. -/
  | loopIn (name : String)
deriving DecidableEq

/-- The name of a part. -/
def StatementPart.text : StatementPart → String
  | .keyword => "a statement keyword"
  | .variableName => "a variable name after `set`"
  | .assignmentSign name => "`=` after `" ++ name ++ "`"
  | .loopVariable => "a loop variable after `for`"
  | .loopIn name => "`in` after `" ++ name ++ "`"

/-- What is wrong with a statement block. -/
inductive BlockFault where
  /-- The tokens end before the part. -/
  | missing (part : StatementPart)
  /-- Something else stands in place of the part. -/
  | misplaced (part : StatementPart) (found : String)
  /-- No statement has this keyword. -/
  | unknownStatement (keyword : String)
  /-- The body that the keyword began has no end tag. -/
  | neverClosed (keyword : String)
  /-- The end tag stands outside every body. -/
  | strayEnd (keyword : String)
deriving DecidableEq

/-- The reason that a report gives for a fault. -/
def BlockFault.text : BlockFault → String
  | .missing .keyword => "missing statement keyword"
  | .missing part => "expected " ++ part.text
  | .misplaced part found => "expected " ++ part.text ++ ", found `" ++ found ++ "`"
  | .unknownStatement keyword => "unknown statement `" ++ keyword ++ "`"
  | .neverClosed keyword =>
      "`" ++ keyword ++ "` block is never closed; expected an `end" ++ keyword ++ "` tag"
  | .strayEnd keyword => "`" ++ keyword ++ "` closes no open block"

/-- What is wrong at some place of a template. -/
inductive Problem where
  /-- The text ends inside a block of this kind. -/
  | unterminatedBlock (kind : BlockKind)
  /-- The text ends inside the string that the quote began. -/
  | unterminatedString (quote : Char)
  /-- Something else stands in place of what was expected. -/
  | unexpectedToken (expected : Expectation) (found : String)
  /-- An expression ends where an operand is due. -/
  | missingOperand
  /-- A statement block is not one of the statements. -/
  | malformedBlock (fault : BlockFault)
  /-- The template nests beyond the limit. -/
  | nestingTooDeep (limit : Nat)
deriving DecidableEq

namespace Problem

/-- The message of a problem. -/
def message : Problem → String
  | .unterminatedBlock kind => "source ends inside `" ++ (Delimiter.opening kind).text ++ "`"
  | .unterminatedString _ => "unterminated string literal"
  | .unexpectedToken expected found =>
      "expected " ++ expected.text ++ ", found `" ++ found ++ "`"
  | .missingOperand => "expression ends before its last operand"
  | .malformedBlock fault => "malformed block: " ++ fault.text
  | .nestingTooDeep limit => "nesting exceeds " ++ toString limit ++ " levels"

/-- The code by which tools know a problem. -/
def code : Problem → String
  | .unterminatedBlock _ => "twig::syntax::unterminated"
  | .unterminatedString _ => "twig::syntax::unterminated_string"
  | .unexpectedToken _ _ => "twig::syntax::unexpected"
  | .missingOperand => "twig::syntax::unexpected_end"
  | .malformedBlock _ => "twig::syntax::malformed_block"
  | .nestingTooDeep _ => "twig::nesting_too_deep"

/-- Advice on how to mend the template. -/
def help? : Problem → Option String
  | .unterminatedBlock kind =>
      some ("add `" ++ (Delimiter.closing kind).text ++ "` to close this block")
  | .unterminatedString quote => some ("add a closing " ++ String.singleton quote)
  | .nestingTooDeep _ => some "raise `CompileOptions::max_depth` or flatten the template"
  | .unexpectedToken _ _ => none
  | .missingOperand => none
  | .malformedBlock _ => none

/-- What the label at the place of a problem says. -/
def label : Problem → String
  | .unterminatedBlock _ => "opened here"
  | .unterminatedString _ => "string starts here"
  | .unexpectedToken _ _ => "here"
  | .missingOperand => "expected an operand here"
  | .malformedBlock _ => "in this block"
  | .nestingTooDeep _ => "too deep"

end Problem

end TemplateLang

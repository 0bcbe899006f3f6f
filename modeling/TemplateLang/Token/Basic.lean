import TemplateLang.Source
import TemplateLang.Token.Delimiter

/-!
# TemplateLang.Token.Basic — tokens and the characters that shape them

A token is a piece of template text with the offset at which it begins. Its kind records only how
the scanner came by it: tokens carry no grammar of their own, and the parser decides from kind and
text what a token means. The text of a quoted token leaves its quotes out, but its span covers
them.
-/

namespace TemplateLang

/-- How a token was written. -/
inductive TokenKind where
  /-- The mark that opens or closes a block. -/
  | delimiter
  /-- A run of special characters inside a block. -/
  | operator
  /-- Bare text inside a block: numbers, names, dotted paths. -/
  | word
  /-- What stands between two quotes, inside a block or outside. -/
  | quoted
  /-- Text outside every block. -/
  | text
deriving DecidableEq

/-- A piece of template text. -/
structure Token where
  kind : TokenKind
  text : String
  /-- The offset of the first byte; for a quoted token, that of its opening quote. -/
  offset : Nat
deriving DecidableEq

namespace Token

/-- Whether the token has this kind and this text. -/
def isExactly (t : Token) (kind : TokenKind) (text : String) : Bool :=
  t.kind == kind && t.text == text

/-- Whether the token is the delimiter with this text. -/
def isDelimiter (t : Token) (text : String) : Bool :=
  t.isExactly .delimiter text

/-- Whether the token closes a block. -/
def isCloser (t : Token) : Bool :=
  t.isDelimiter (Delimiter.closing .output).text ||
    t.isDelimiter (Delimiter.closing .statement).text

/-- Whether the token can stand as an operand by itself. -/
def isOperand (t : Token) : Bool :=
  t.kind == .word || t.kind == .quoted || t.kind == .text

/-- The number of bytes that the token takes in its source, quotes included. -/
def length (t : Token) : Nat :=
  match t.kind with
  | .quoted => Text.byteLength t.text.toList + 2
  | _ => Text.byteLength t.text.toList

/-- The stretch of its source that the token covers. -/
def span (t : Token) : Span :=
  ⟨t.offset, t.length⟩

end Token

/-! ## Characters -/

/-- The characters that operators are written with. -/
def specialChars : List Char :=
  ['+', '-', '*', '/', '(', ')', '[', ']', '|', '=', ',', '<', '>', '%', '?', ':', '~']

/-- Whether `c` belongs to operators inside a block. -/
def isSpecial (c : Char) : Bool :=
  specialChars.contains c

/-- Whether `c` opens a string, which the same character closes. -/
def isQuote (c : Char) : Bool :=
  c == '\'' || c == '"'

end TemplateLang

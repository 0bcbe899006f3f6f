import TemplateLang.Text.Bytes

/-!
# TemplateLang.Source — a named template text, and places in it

Diagnostics point into the text that they are about. A source is that text with the name that
reports show for it, and a span is a stretch of the text, offset and length counted in bytes.
-/

namespace TemplateLang

/-- A stretch of a source text, in bytes. -/
structure Span where
  offset : Nat
  length : Nat
deriving DecidableEq

/-- The text of a template and the name that reports show for it. -/
structure Source where
  name : String
  text : String
deriving DecidableEq

namespace Source

/-- The number of bytes of the text. -/
def size (source : Source) : Nat :=
  Text.byteLength source.text.toList

/-- The empty span behind the last byte. -/
def endSpan (source : Source) : Span :=
  ⟨source.size, 0⟩

end Source

end TemplateLang

/-!
# TemplateLang.Options — what a caller may set before compiling

The depth limit bounds how far a template nests: every block body, every parenthesised group,
every output opener in operand position and every binary operator takes one level. The name is
what diagnostics show for the template.
-/

namespace TemplateLang

/-- Settings of one compilation. -/
structure Options where
  /-- How many levels may be open at once. -/
  maxDepth : Nat := 64
  /-- The name of the template in diagnostics. -/
  name : String := "template"
deriving DecidableEq

end TemplateLang

import TemplateLang.Value.Basic
import TemplateLang.Decimal.Positional

/-!
# TemplateLang.Value.Text — values as text

The text of a value is what a template would show: nothing for null, the bare characters of a
string, the items of an array in brackets. A map has no text of its own beyond a placeholder, so
its entries never show.
-/

namespace TemplateLang.Value

mutual

/-- The text of a value. -/
def text : Value → String
  | .null => ""
  | .bool b => if b then "true" else "false"
  | .number x => Binary64.text x
  | .string s => s
  | .array items => "[" ++ ", ".intercalate (texts items) ++ "]"
  | .map _ => "[object]"

/-- The texts of the items of an array. -/
def texts : List Value → List String
  | [] => []
  | v :: rest => text v :: texts rest

end

end TemplateLang.Value

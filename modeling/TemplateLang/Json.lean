import TemplateLang.Decimal.Basic

/-!
# TemplateLang.Json — JSON documents as data for templates

Templates take their variables from JSON. A document keeps its numbers as numerals, the way they
are written, so that each becomes the number nearest to it in one step and a negative zero stays
negative. An object lists its members in the order of the document; where a name occurs twice,
the last member of that name is the one that counts.
-/

namespace TemplateLang

/-- A JSON document. -/
inductive Json where
  | null
  | bool (b : Bool)
  | number (n : Numeral)
  | string (s : String)
  | array (items : List Json)
  | object (members : List (String × Json))

namespace Json

/-- The last of the members with the given name. -/
def lastMember? (name : String) : List (String × Json) → Option Json
  | [] => none
  | (key, value) :: rest =>
      match lastMember? name rest with
      | some later => some later
      | none => if key = name then some value else none

/-- The member of that name, if the document is an object that has one. -/
def member? (name : String) : Json → Option Json
  | .object members => lastMember? name members
  | _ => none

end Json

end TemplateLang

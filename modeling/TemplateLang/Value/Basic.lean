import TemplateLang.Bindings
import TemplateLang.Binary64

/-!
# TemplateLang.Value.Basic — the values of expressions

A value is null, a truth value, a number, a string, an array or a map. Map entries are listed by
name, each name once, which is how every builder of this library leaves them; `Value.equal` asks
no more than that each name of one map has an equal value in the other, so the order of the
entries does not count.
-/

namespace TemplateLang

/-- A value of an expression or of a variable. -/
inductive Value where
  | null
  | bool (b : Bool)
  | number (x : Float)
  | string (s : String)
  | array (items : List Value)
  | map (entries : List (String × Value))

namespace Value

/-- The map that binds the given names; of two pairs with one name the later counts. -/
def ofPairs (pairs : List (String × Value)) : Value :=
  .map (Bindings.ofPairs pairs)

/-- The name of the kind of value. -/
def typeName : Value → String
  | .null => "null"
  | .bool _ => "bool"
  | .number _ => "number"
  | .string _ => "string"
  | .array _ => "array"
  | .map _ => "map"

/-- Whether a value counts as true: null, false, both zeros, the number that is not one and
everything empty do not. -/
def isTruthy : Value → Bool
  | .null => false
  | .bool b => b
  | .number x =>
      let bits := Binary64.magnitude x
      Nat.blt 0 bits && Nat.ble bits Binary64.infinity
  | .string s => !s.isEmpty
  | .array items => !items.isEmpty
  | .map entries => !entries.isEmpty

/-! ## Equality -/

mutual

/-- Whether two values are equal. Numbers compare as numbers: the zeros are equal, and the number
that is not one equals nothing. Values of different kinds are never equal. -/
def equal : Value → Value → Bool
  | .null, .null => true
  | .bool a, .bool b => a == b
  | .number x, .number y => x == y
  | .string s, .string t => s == t
  | .array items, .array others => equalItems items others
  | .map entries, .map others =>
      entries.length == others.length && equalEntries entries others
  | _, _ => false

/-- Whether two arrays have as many items and equal ones at each place. -/
def equalItems : List Value → List Value → Bool
  | [], [] => true
  | v :: rest, w :: others => equal v w && equalItems rest others
  | _, _ => false

/-- Whether every listed name is bound in `others`, to an equal value. -/
def equalEntries : List (String × Value) → List (String × Value) → Bool
  | [], _ => true
  | (name, v) :: rest, others =>
      (match Bindings.get? name others with
        | some w => equal v w
        | none => false) && equalEntries rest others

end

instance : BEq Value := ⟨equal⟩

end Value

end TemplateLang

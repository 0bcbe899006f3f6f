import TemplateLang.Text.Letter
import TemplateLang.Value.Basic

/-!
# TemplateLang.Context.Path — dotted paths into values

A path is text cut at its points into segments; there is always a first one, and the empty text has
one empty segment. Which words are looked up at all is a matter of their spelling (`isPath`): a name
first, then names and positions. What a segment means depends on the value that it is applied to: a
map is asked for the name, an array for the item at the position, and nothing else has parts.
-/

namespace TemplateLang

namespace Path

/-- The first segment of a path and the others. -/
def segments : List Char → List Char × List (List Char)
  | [] => ([], [])
  | c :: cs =>
      let found := segments cs
      if c = '.' then ([], found.1 :: found.2) else (c :: found.1, found.2)

/-- Whether a segment is a name: a letter or an underscore, then letters, numbers and
underscores. -/
def isName : List Char → Bool
  | [] => false
  | c :: cs =>
      (Text.isLetter c || c == '_') && cs.all fun d => Text.isAlphanumeric d || d == '_'

/-- Whether a segment is a run of ASCII digits. -/
def isPosition (segment : List Char) : Bool :=
  !segment.isEmpty && segment.all Char.isDigit

/-- Whether a text is a path that is looked up: a name, and names or positions behind it. -/
def isPath (s : String) : Bool :=
  let found := segments s.toList
  isName found.1 && found.2.all fun segment => isName segment || isPosition segment

/-- The number of positions that can be told apart. -/
def positionBound : Nat := 0x10000000000000000

/-- The position that a segment spells, with or without a plus sign. -/
def position? (segment : List Char) : Option Nat :=
  let digits := match segment with
    | '+' :: rest => rest
    | other => other
  if isPosition digits then
    let n := Nat.ofDigitChars 10 digits 0
    if n < positionBound then some n else none
  else none

end Path

namespace Value

/-- The part of a value that a segment names. -/
def part? (segment : List Char) : Value → Option Value
  | .map entries => Bindings.get? (String.ofList segment) entries
  | .array items => (Path.position? segment).bind fun i => items[i]?
  | _ => none

/-- The value at the end of the segments, each applied to the value before it. -/
def descend? : List (List Char) → Value → Option Value
  | [], v => some v
  | segment :: rest, v => (part? segment v).bind (descend? rest)

@[simp] theorem descend?_nil (v : Value) : descend? [] v = some v := rfl

/-- Walking a path in two stages is walking it at once. -/
theorem descend?_append (first second : List (List Char)) (v : Value) :
    descend? (first ++ second) v = (descend? first v).bind (descend? second) := by
  induction first generalizing v with
  | nil => rfl
  | cons segment rest ih =>
      simp only [List.cons_append, descend?]
      cases part? segment v with
      | none => rfl
      | some w => exact ih w

end Value

end TemplateLang

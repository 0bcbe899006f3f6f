/-!
# TemplateLang.Token.Delimiter — the four marks that open and close blocks

A template is literal text with blocks in it. Output blocks stand between `{{` and `}}`, statement
blocks between `{%` and `%}`. A delimiter is recognised by its two characters wherever a token
starts. Each kind of block has one opening and one closing delimiter; whether the delimiter that
ends a block is the one that belongs to it is for the readers of tokens to judge, not for the scan.
-/

namespace TemplateLang

/-- The two kinds of blocks. -/
inductive BlockKind where
  /-- A block that shows the value of an expression. -/
  | output
  /-- A block that holds a statement or an end tag. -/
  | statement
deriving DecidableEq

/-- A mark that opens or closes a block. -/
inductive Delimiter where
  | opening (block : BlockKind)
  | closing (block : BlockKind)
deriving DecidableEq

namespace Delimiter

/-- The delimiters, every opening one followed by the closing one of its block. -/
def all : List Delimiter :=
  [.opening .output, .closing .output, .opening .statement, .closing .statement]

/-- The two characters of a delimiter. -/
def text : Delimiter → String
  | .opening .output => "\x7b\x7b"
  | .closing .output => "\x7d\x7d"
  | .opening .statement => "\x7b%"
  | .closing .statement => "%\x7d"

/-- The delimiter with exactly this text. -/
def ofText? (s : String) : Option Delimiter :=
  all.find? fun d => d.text == s

/-- The closing delimiter for the opening one with this text. -/
def closingFor? (s : String) : Option Delimiter :=
  match ofText? s with
  | some (.opening block) => some (.closing block)
  | _ => none

/-- The delimiter that a text begins with, and the rest of the text. -/
def strip? : List Char → Option (Delimiter × List Char)
  | '{' :: '{' :: rest => some (.opening .output, rest)
  | '}' :: '}' :: rest => some (.closing .output, rest)
  | '{' :: '%' :: rest => some (.opening .statement, rest)
  | '%' :: '}' :: rest => some (.closing .statement, rest)
  | _ => none

theorem ofText?_text (d : Delimiter) : ofText? d.text = some d := by
  rcases d with block | block <;> cases block <;> decide

theorem ofText?_eq_some_iff {s : String} {d : Delimiter} : ofText? s = some d ↔ s = d.text := by
  constructor
  · intro h
    have hs := List.find?_some h
    exact (beq_iff_eq.mp hs).symm
  · rintro rfl
    exact ofText?_text d

/-- A text begins with a delimiter exactly when it is the delimiter's text and a rest. -/
theorem strip?_eq_some_iff {cs rest : List Char} {d : Delimiter} :
    strip? cs = some (d, rest) ↔ cs = d.text.toList ++ rest := by
  constructor
  · intro h
    unfold strip? at h
    split at h <;> cases h <;> rfl
  · rintro rfl
    rcases d with block | block <;> cases block <;> rfl

theorem length_of_strip? {cs rest : List Char} {d : Delimiter} (h : strip? cs = some (d, rest)) :
    rest.length + 2 = cs.length := by
  rw [strip?_eq_some_iff.mp h]
  rcases d with block | block <;> cases block <;> rfl

end Delimiter

end TemplateLang

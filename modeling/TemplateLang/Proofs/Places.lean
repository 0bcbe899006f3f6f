import TemplateLang.Template.Basic

/-!
# TemplateLang.Proofs.Places — trees up to the places of their tokens

The tokens in a tree say where they stand in the source. Two sources that differ only in what
separates their tokens, or in where they begin, give trees that differ only in these places:
`mapTokens` changes every token of a tree, and `unplaced` forgets the places.
-/

namespace TemplateLang

/-- The token as it would stand at the beginning of a source. -/
def Token.unplaced (t : Token) : Token :=
  { t with offset := 0 }

/-- The token, further on in its source by `n` bytes. -/
def Token.shift (n : Nat) (t : Token) : Token :=
  { t with offset := t.offset + n }

namespace Expr

/-- The expression with every token changed. -/
def mapTokens (f : Token → Token) : Expr → Expr
  | .leaf t => .leaf (f t)
  | .binary op left right => .binary op (left.mapTokens f) (right.mapTokens f)

/-- The expression without the places of its tokens. -/
def unplaced (e : Expr) : Expr :=
  e.mapTokens Token.unplaced

theorem unplaced_leaf (t : Token) : (leaf t).unplaced = leaf t.unplaced := rfl

theorem unplaced_binary (op : Operator) (left right : Expr) :
    (binary op left right).unplaced = binary op left.unplaced right.unplaced := rfl

end Expr

mutual

/-- The node with every token changed. -/
def Node.mapTokens (f : Token → Token) : Node → Node
  | .literal text => .literal text
  | .output value => .output (value.mapTokens f)
  | .assign name sign value => .assign name sign (value.mapTokens f)
  | .conditional condition body => .conditional (condition.mapTokens f) (Template.mapTokens f body)
  | .loop name items body => .loop name (items.mapTokens f) (Template.mapTokens f body)

/-- The template with every token changed. -/
def Template.mapTokens (f : Token → Token) : List Node → List Node
  | [] => []
  | node :: nodes => node.mapTokens f :: Template.mapTokens f nodes

end

namespace Template

/-- The template without the places of its tokens. -/
def unplaced (template : Template) : Template :=
  mapTokens Token.unplaced template

section Equations

variable {e : Expr} {body nodes : Template}

theorem unplaced_literal (text : String) :
    unplaced (.literal text :: nodes) = .literal text :: unplaced nodes := rfl

theorem unplaced_output : unplaced (.output e :: nodes) = .output e.unplaced :: unplaced nodes :=
  rfl

theorem unplaced_assign (name sign : String) :
    unplaced (.assign name sign e :: nodes) = .assign name sign e.unplaced :: unplaced nodes := rfl

theorem unplaced_conditional :
    unplaced (.conditional e body :: nodes) =
      .conditional e.unplaced (unplaced body) :: unplaced nodes := rfl

theorem unplaced_loop (name : String) :
    unplaced (.loop name e body :: nodes) =
      .loop name e.unplaced (unplaced body) :: unplaced nodes := rfl

end Equations

end Template

end TemplateLang

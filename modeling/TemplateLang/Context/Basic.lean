import TemplateLang.Context.Path
import TemplateLang.Diagnostic.EvalError
import TemplateLang.Value.Coercion

/-!
# TemplateLang.Context.Basic — variables in nested scopes

A context is a stack of scopes that is never empty: the innermost scope is a field of its own, and
popping the last scope leaves the context as it is. Reading a name takes the innermost scope that
binds it. Writing comes in two kinds: `set` always binds in the innermost scope, while `assign`
goes to the scope that reading the name would find, and to the innermost only if there is none.

A path is first tried whole, as a name with points in it, and only then walked segment by segment.
What a path without a value means is the policy of the context: null, or an error that names the
path.
-/

namespace TemplateLang

/-- The variables of one scope. -/
abbrev Scope := Bindings Value

/-- What looking up a missing variable comes to. -/
inductive UndefinedPolicy where
  /-- Null. -/
  | lenient
  /-- An error. -/
  | strict
deriving DecidableEq

/-- Variables in nested scopes, and what missing ones mean. -/
structure Context where
  innermost : Scope
  /-- The scopes around the innermost, from the inside out. -/
  outer : List Scope
  policy : UndefinedPolicy

namespace Context

/-! ## Making a context -/

/-- The context that binds the variables of one scope. -/
def ofScope (scope : Scope) : Context :=
  ⟨scope, [], .lenient⟩

/-- The context without variables. -/
def empty : Context :=
  ofScope []

/-- The context that binds the given names; of two pairs with one name the later counts. -/
def ofPairs (pairs : List (String × Value)) : Context :=
  ofScope (Bindings.ofPairs pairs)

/-- The context that binds the members of a document; a document that is no object has none. -/
def ofJson : Json → Context
  | .object members => ofScope (Value.ofJsonMembers members [])
  | _ => empty

/-- The context with another policy. -/
def withPolicy (policy : UndefinedPolicy) (c : Context) : Context :=
  { c with policy := policy }

/-! ## Scopes -/

/-- The scopes of a context, from the inside out. -/
def scopes (c : Context) : List Scope :=
  c.innermost :: c.outer

/-- Opens an empty scope inside the others. -/
def push (c : Context) : Context :=
  { c with innermost := [], outer := c.innermost :: c.outer }

/-- Closes the innermost scope, unless it is the only one. -/
def pop (c : Context) : Context :=
  match c.outer with
  | [] => c
  | scope :: rest => { c with innermost := scope, outer := rest }

@[simp] theorem scopes_push (c : Context) : c.push.scopes = [] :: c.scopes := rfl

@[simp] theorem pop_push (c : Context) : c.push.pop = c := rfl

/-! ## Names -/

/-- The value of a name in the first of the scopes that binds it. -/
def find? (name : String) (scopes : List Scope) : Option Value :=
  scopes.findSome? fun scope => Bindings.get? name scope

/-- The value of a name. -/
def get? (name : String) (c : Context) : Option Value :=
  find? name c.scopes

/-- Binds a name in the innermost scope. -/
def set (name : String) (value : Value) (c : Context) : Context :=
  { c with innermost := c.innermost.insert name value }

/-- Rebinds a name in the first of the scopes that binds it, if there is one. -/
def rebind? (name : String) (value : Value) : List Scope → Option (List Scope)
  | [] => none
  | scope :: rest =>
      if scope.binds name then some (scope.insert name value :: rest)
      else (rebind? name value rest).map (scope :: ·)

/-- Rebinds a name where it is bound, or binds it in the innermost scope. -/
def assign (name : String) (value : Value) (c : Context) : Context :=
  if c.innermost.binds name then c.set name value
  else
    match rebind? name value c.outer with
    | some outer => { c with outer := outer }
    | none => c.set name value

/-! ## Paths -/

/-- The value at a path. -/
def resolve? (path : String) (c : Context) : Option Value :=
  match c.get? path with
  | some v => some v
  | none =>
      let found := Path.segments path.toList
      (c.get? (String.ofList found.1)).bind (Value.descend? found.2)

/-- The value at a path, or what the policy makes of a missing one. -/
def lookup (path : String) (c : Context) : Except EvalError Value :=
  match c.resolve? path, c.policy with
  | some v, _ => .ok v
  | none, .lenient => .ok .null
  | none, .strict => .error (.unresolvedVariable path)

end Context

end TemplateLang

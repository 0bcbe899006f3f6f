import TemplateLang.Proofs.Scopes.Hygiene
import TemplateLang.Proofs.Scopes.Writes

/-!
# TemplateLang.Proofs.Scopes.Stack — no operation loses the last scope or a write

A context cannot be without scopes, since its innermost scope is a field of its own. A stack of scopes
can: binding a name in it does nothing if there is no scope, and assigning looks for the place of the
last scope, which an empty stack does not have. Main statement (`Origin.reached_keepsWrites`): from
every way of making one, a stack goes through any operations without such a failure, has a scope at
the end and is the stack of the context that the same operations lead to; and what is written there is
read back, with everything else as it was.

The invariant is that the stack is the stack of a context. Each operation keeps it (`attempt_stack`),
closing a scope because the last one stays, assigning because the place that is found lies inside.
-/

namespace TemplateLang

/-! ## Stacks of scopes -/

/-- Scopes from the outside in, of which there may be none, and the policy for missing variables. -/
structure ScopeStack where
  scopes : List Scope
  policy : UndefinedPolicy

/-- The place of the innermost scope that binds the name, counted from the outside. -/
def innermostPlace? (name : String) : List Scope → Option Nat
  | [] => none
  | scope :: rest =>
      ((innermostPlace? name rest).map (· + 1)).or (if scope.binds name then some 0 else none)

namespace ScopeStack

/-- The value of a name in the last scope that binds it. -/
def get? (name : String) (s : ScopeStack) : Option Value :=
  s.scopes.reverse.findSome? fun scope => scope.get? name

/-- Binds a name in the last scope. Without a scope the write is dropped. -/
def set (name : String) (value : Value) (s : ScopeStack) : ScopeStack :=
  match s.scopes.getLast? with
  | none => s
  | some scope => { s with scopes := s.scopes.dropLast ++ [scope.insert name value] }

/-- Rebinds a name in the innermost scope that binds it, or binds it in the last scope. Without a
scope there is no last place, and a place outside the stack holds no scope. -/
def assign? (name : String) (value : Value) (s : ScopeStack) : Option ScopeStack :=
  if s.scopes.length = 0 then none
  else
    let place := (innermostPlace? name s.scopes).getD (s.scopes.length - 1)
    s.scopes[place]?.map fun scope =>
      { s with scopes := s.scopes.set place (scope.insert name value) }

/-- Opens an empty scope. -/
def push (s : ScopeStack) : ScopeStack :=
  { s with scopes := s.scopes ++ [[]] }

/-- Closes the last scope if there is more than one. -/
def pop (s : ScopeStack) : ScopeStack :=
  if 1 < s.scopes.length then { s with scopes := s.scopes.dropLast } else s

end ScopeStack

/-! ## Operations -/

/-- An operation on a context. -/
inductive Operation where
  | onScopes (step : ScopeStep)
  | withPolicy (policy : UndefinedPolicy)

namespace Operation

/-- The context behind an operation. -/
def apply (c : Context) : Operation → Context
  | .onScopes step => step.apply c
  | .withPolicy policy => c.withPolicy policy

/-- The stack behind an operation, unless it fails. -/
def attempt (s : ScopeStack) : Operation → Option ScopeStack
  | .onScopes (.set name value) => some (s.set name value)
  | .onScopes (.assign name value) => s.assign? name value
  | .onScopes .push => some s.push
  | .onScopes .pop => some s.pop
  | .withPolicy policy => some { s with policy := policy }

end Operation

/-- The context behind operations done one after the other. -/
def Context.after (c : Context) (operations : List Operation) : Context :=
  operations.foldl Operation.apply c

/-- The stack behind operations done one after the other, unless one of them fails. -/
def ScopeStack.after? (s : ScopeStack) : List Operation → Option ScopeStack
  | [] => some s
  | operation :: operations => (operation.attempt s).bind fun next => next.after? operations

/-- What a context is made from. -/
inductive Origin where
  | nothing
  | pairs (entries : List (String × Value))
  | document (j : Json)

namespace Origin

/-- The context made from it. -/
def context : Origin → Context
  | .nothing => Context.empty
  | .pairs entries => Context.ofPairs entries
  | .document j => Context.ofJson j

/-- The stack made from it: one scope, in which the members of a document are bound one by one. -/
def stack : Origin → ScopeStack
  | .nothing => ⟨[[]], .lenient⟩
  | .pairs entries => ⟨[Bindings.ofPairs entries], .lenient⟩
  | .document (.object members) =>
      members.foldl (fun s member => s.set member.1 (Value.ofJson member.2)) ⟨[[]], .lenient⟩
  | .document _ => ⟨[[]], .lenient⟩

end Origin

/-! ## The stack of a context -/

namespace Context

/-- The stack of a context. -/
def stack (c : Context) : ScopeStack :=
  ⟨c.outer.reverse ++ [c.innermost], c.policy⟩

theorem stack_eq (c : Context) : c.stack = ⟨c.scopes.reverse, c.policy⟩ := by
  rw [stack, scopes, List.reverse_cons]

theorem scopes_stack_ne_nil (c : Context) : c.stack.scopes ≠ [] := by
  simp [stack]

theorem get?_stack (name : String) (c : Context) : c.stack.get? name = c.get? name := by
  rw [ScopeStack.get?, stack_eq, List.reverse_reverse]
  rfl

theorem set_stack (name : String) (value : Value) (c : Context) :
    c.stack.set name value = (c.set name value).stack := by
  simp [stack, ScopeStack.set, set]

theorem push_stack (c : Context) : c.stack.push = c.push.stack := by
  simp [stack, ScopeStack.push, push]

/-- Closing a scope leaves the last one, of a stack as of a context. -/
theorem pop_stack (c : Context) : c.stack.pop = c.pop.stack := by
  obtain ⟨innermost, outer, policy⟩ := c
  cases outer with
  | nil => simp [stack, ScopeStack.pop, pop]
  | cons scope rest => simp [stack, ScopeStack.pop, pop]

end Context

/-! ## Places -/

section Places

variable {name : String}

theorem innermostPlace?_concat (name : String) (scopes : List Scope) (scope : Scope) :
    innermostPlace? name (scopes ++ [scope]) =
      if scope.binds name then some scopes.length else innermostPlace? name scopes := by
  induction scopes with
  | nil => simp [innermostPlace?]
  | cons first rest ih =>
      rw [List.cons_append, innermostPlace?, ih, innermostPlace?]
      cases scope.binds name <;> simp

theorem innermostPlace?_lt {scopes : List Scope} {place : Nat}
    (h : innermostPlace? name scopes = some place) : place < scopes.length := by
  induction scopes generalizing place with
  | nil => cases h
  | cons scope rest ih =>
      rw [innermostPlace?, Option.or_eq_some_iff, Option.map_eq_some_iff] at h
      rw [List.length_cons]
      rcases h with ⟨i, hi, rfl⟩ | ⟨_, h⟩
      · exact Nat.succ_lt_succ (ih hi)
      · split at h
        · cases h
          exact Nat.zero_lt_succ _
        · cases h

/-- Rebinding a name writes the scope at the place that is found from the outside. -/
theorem reverse_rebind? (name : String) (value : Value) (scopes : List Scope) :
    (Context.rebind? name value scopes).map List.reverse =
      (innermostPlace? name scopes.reverse).bind fun place =>
        scopes.reverse[place]?.map fun scope =>
          scopes.reverse.set place (scope.insert name value) := by
  induction scopes with
  | nil => rfl
  | cons scope rest ih =>
      rw [List.reverse_cons, innermostPlace?_concat, Context.rebind?]
      cases hbinds : scope.binds name with
      | true => simp
      | false =>
          have hcons : ((Context.rebind? name value rest).map (scope :: ·)).map List.reverse =
              ((Context.rebind? name value rest).map List.reverse).map (· ++ [scope]) := by
            cases Context.rebind? name value rest <;> simp
          simp only [Bool.false_eq_true, if_false]
          rw [hcons, ih]
          cases hplace : innermostPlace? name rest.reverse with
          | none => rfl
          | some place =>
              have hlt := innermostPlace?_lt hplace
              simp [List.getElem?_append_left hlt, List.set_append_left _ _ hlt, Function.comp_def]

end Places

namespace Context

/-- **Assigning finds a place inside the stack**, and writes there what it writes in the context. -/
theorem assign?_stack (name : String) (value : Value) (c : Context) :
    c.stack.assign? name value = some (c.assign name value).stack := by
  have hlength : c.scopes.reverse.length ≠ 0 := by simp [scopes]
  have hscopes := scopes_assign name value c
  have hrebind := reverse_rebind? name value c.scopes
  rw [stack_eq c, stack_eq (c.assign name value), policy_assign, hscopes, ScopeStack.assign?,
    if_neg hlength]
  cases hplace : innermostPlace? name c.scopes.reverse with
  -- no scope binds the name, and the last place is taken
  | none =>
      rw [hplace, Option.bind_none, Option.map_eq_none_iff] at hrebind
      rw [hrebind]
      simp [scopes]
  | some place =>
      have hlt := innermostPlace?_lt hplace
      rw [hplace, Option.bind_some, List.getElem?_eq_getElem hlt, Option.map_some,
        Option.map_eq_some_iff] at hrebind
      obtain ⟨scopes', hscopes', hreverse⟩ := hrebind
      rw [hscopes', Option.getD_some, Option.getD_some, hreverse]
      show (c.scopes.reverse[place]?.map fun scope =>
        ScopeStack.mk (c.scopes.reverse.set place (scope.insert name value)) c.policy) = _
      rw [List.getElem?_eq_getElem hlt, Option.map_some]

end Context

/-! ## Runs -/

/-- **What one operation does to the stack of a context**: it does not fail, and leads to the stack of
the context behind the operation. -/
theorem Operation.attempt_stack (operation : Operation) (c : Context) :
    operation.attempt c.stack = some (operation.apply c).stack := by
  cases operation with
  | withPolicy policy => rfl
  | onScopes step =>
      cases step with
      | set name value => exact congrArg some (c.set_stack name value)
      | assign name value => exact c.assign?_stack name value
      | push => exact congrArg some c.push_stack
      | pop => exact congrArg some c.pop_stack

theorem Context.after?_stack (operations : List Operation) (c : Context) :
    c.stack.after? operations = some (c.after operations).stack := by
  induction operations generalizing c with
  | nil => rfl
  | cons operation operations ih =>
      rw [ScopeStack.after?, operation.attempt_stack c, Option.bind_some]
      exact ih (operation.apply c)

theorem Context.foldl_set_stack (members : List (String × Json)) (entries : Scope) :
    members.foldl (fun s member => s.set member.1 (Value.ofJson member.2)) (ofScope entries).stack =
      (ofScope (Value.ofJsonMembers members entries)).stack := by
  induction members generalizing entries with
  | nil => rfl
  | cons member members ih =>
      rw [List.foldl_cons, Value.ofJsonMembers, ← ih]
      rfl

/-- Every way of making a stack gives that of the context made in the same way. -/
theorem Origin.stack_eq (origin : Origin) : origin.stack = origin.context.stack := by
  cases origin with
  | nothing => rfl
  | pairs entries => rfl
  | document j =>
      cases j with
      | object members => exact Context.foldl_set_stack members []
      | _ => rfl

/-! ## Reached contexts -/

/-- **`c.KeepsWrites`** — nothing can be lost in writing to the context. -/
structure Context.KeepsWrites (c : Context) : Prop where
  /-- A scope is there. -/
  has_scope : c.stack.scopes ≠ []
  /-- Names read the same in the stack and in the context. -/
  get : ∀ name, c.stack.get? name = c.get? name
  /-- Binding a name in the stack is not dropped, and writes the value and nothing else. -/
  set : ∀ name value, c.stack.set name value = (c.set name value).stack ∧
    c.Writes name value (c.set name value)
  /-- Assigning finds its place in the stack, and writes the value and nothing else. -/
  assign : ∀ name value, c.stack.assign? name value = some (c.assign name value).stack ∧
    c.Writes name value (c.assign name value)

/-- **A context never loses its last scope or a write.** However it was made and whatever was done to
it, with any number of scopes closed beyond those opened, no operation failed on the stack, and what is
written next is read back and changes nothing else. -/
theorem Origin.reached_keepsWrites (origin : Origin) (operations : List Operation) :
    origin.stack.after? operations = some (origin.context.after operations).stack ∧
      (origin.context.after operations).KeepsWrites := by
  let c := origin.context.after operations
  constructor
  · rw [origin.stack_eq]
    exact origin.context.after?_stack operations
  · exact ⟨c.scopes_stack_ne_nil, fun name => c.get?_stack name,
      fun name value => ⟨c.set_stack name value, c.set_writes name value⟩,
      fun name value => ⟨c.assign?_stack name value, c.assign_writes name value⟩⟩

/-- Without a scope both kinds of writing lose what they are given. -/
example (name : String) (value : Value) (policy : UndefinedPolicy) :
    (ScopeStack.mk [] policy).set name value = ⟨[], policy⟩ ∧
      (ScopeStack.mk [] policy).assign? name value = none := ⟨rfl, rfl⟩

end TemplateLang

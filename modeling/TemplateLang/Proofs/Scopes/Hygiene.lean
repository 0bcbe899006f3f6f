import TemplateLang.Proofs.Scopes.Rebinding

/-!
# TemplateLang.Proofs.Scopes.Hygiene — what happens inside a scope stays there

A scope is opened, something happens, and the scope is closed again. What happened may have opened
and closed further scopes, so long as each was closed (`Balanced`). Main statement
(`enclosed_keepsScopes`): of the scopes around it only what they bind names to can have changed, of
each name only the innermost binding, and that to the last value assigned to the name while no scope
opened inside had a binding of its own for it.

The invariant behind it (`Above`) splits the scopes of a context into those opened since the start,
of which there is always one, and those that were there before. A step lemma (`Above.step`) says what
each operation does to the second part, column by column, and the run lemma (`Above.run`) adds the
steps up.
-/

namespace TemplateLang

/-! ## Operations on scopes -/

/-- An operation on the scopes of a context. -/
inductive ScopeStep where
  | set (name : String) (value : Value)
  | assign (name : String) (value : Value)
  | push
  | pop

namespace ScopeStep

/-- The context behind an operation. -/
def apply (c : Context) : ScopeStep → Context
  | .set name value => c.set name value
  | .assign name value => c.assign name value
  | .push => c.push
  | .pop => c.pop

/-- How many scopes are open behind an operation, if there were `depth` before it; closing one where
none is open has no answer. -/
def depthAfter? (depth : Nat) : ScopeStep → Option Nat
  | .push => some (depth + 1)
  | .pop => if depth = 0 then none else some (depth - 1)
  | .set _ _ => some depth
  | .assign _ _ => some depth

end ScopeStep

/-- The context behind operations done one after the other. -/
def Context.run (c : Context) (steps : List ScopeStep) : Context :=
  steps.foldl ScopeStep.apply c

/-- How many scopes are open behind operations, if there were `depth` before them; they may close
only what is open. -/
def depthAfter? (depth : Nat) : List ScopeStep → Option Nat
  | [] => some depth
  | step :: steps => (step.depthAfter? depth).bind fun next => depthAfter? next steps

/-- **`Balanced steps`** — every scope that the operations close they have opened before, and every
one that they open they close. -/
def Balanced (steps : List ScopeStep) : Prop :=
  depthAfter? 0 steps = some 0

instance (steps : List ScopeStep) : Decidable (Balanced steps) :=
  inferInstanceAs (Decidable (_ = _))

/-! ## Assignments that reach the scopes around -/

/-- The scopes of a context that were opened when there were `base` of them. -/
def opened (base : Nat) (c : Context) : List Scope :=
  c.scopes.take (c.scopes.length - base)

/-- The value that an operation assigns to the name while no scope opened above the first `base`
binds it. -/
def ScopeStep.outward? (name : String) (base : Nat) (c : Context) : ScopeStep → Option Value
  | .assign other value =>
      if other = name ∧ ∀ scope ∈ opened base c, scope.binds name = false then some value else none
  | _ => none

/-- **`lastOutward? name base c steps`** — of the values that the operations, from the context `c`
on, assign to the name while no scope opened above the first `base` binds it, the last. -/
def lastOutward? (name : String) (base : Nat) (c : Context) : List ScopeStep → Option Value
  | [] => none
  | step :: steps =>
      (lastOutward? name base (step.apply c) steps).or (step.outward? name base c)

/-! ## The scopes around -/

/-- **`Above base depth c`** — the outer scopes of the context are those of `base`, and there are
`depth` above the innermost one that was opened on them. -/
def Above (base : List Scope) (depth : Nat) (c : Context) : Prop :=
  ∃ inner : List Scope, inner.length = depth + 1 ∧ c.scopes = inner ++ base

namespace Above

variable {base : List Scope} {depth : Nat} {c : Context}

theorem push (h : Above base depth c) : Above base (depth + 1) c.push := by
  obtain ⟨inner, hlength, hscopes⟩ := h
  exact ⟨[] :: inner, by rw [List.length_cons, hlength],
    by rw [Context.scopes_push, hscopes, List.cons_append]⟩

theorem pop (h : Above base (depth + 1) c) : Above base depth c.pop := by
  obtain ⟨inner, hlength, hscopes⟩ := h
  cases inner with
  | nil => cases hlength
  | cons scope inner =>
      have hinner : inner.length = depth + 1 := Nat.succ.inj hlength
      refine ⟨inner, hinner, Context.scopes_pop ?_ hscopes⟩
      exact List.append_ne_nil_of_left_ne_nil (List.ne_nil_of_length_eq_add_one hinner) base

/-- Whatever replaces the innermost scope, the outer ones are the same. -/
theorem replace (h : Above base depth c) (scope : Scope) :
    ∃ inner : List Scope, inner.length = depth + 1 ∧ scope :: c.outer = inner ++ base := by
  obtain ⟨inner, hlength, hscopes⟩ := h
  cases inner with
  | nil => cases hlength
  | cons first inner =>
      have houter : c.outer = inner ++ base := (List.cons_eq_cons.mp hscopes).2
      exact ⟨scope :: inner, hlength, by rw [houter, List.cons_append]⟩

/-- Assigning changes the scopes around only where none of the opened ones binds the name. -/
theorem assign (h : Above base depth c) (name : String) (value : Value) :
    ∃ base', Above base' depth (c.assign name value) ∧ base'.length = base.length ∧
      ∀ other, column other base' =
        settle ((ScopeStep.assign name value).outward? other base.length c)
          (column other base) := by
  obtain ⟨replaced, hreplaced, hnew⟩ := h.replace (c.innermost.insert name value)
  obtain ⟨inner, hlength, hscopes⟩ := h
  have hopened : opened base.length c = inner := by simp [opened, hscopes]
  have hassign := Context.scopes_assign name value c
  rw [hscopes, Context.rebind?_append, hnew] at hassign
  cases hinner : Context.rebind? name value inner with
  -- an opened scope binds the name
  | some inner' =>
      rw [hinner] at hassign
      refine ⟨base, ⟨inner', (Context.length_rebind? hinner).trans hlength, hassign⟩, rfl, ?_⟩
      intro other
      rw [ScopeStep.outward?, hopened, if_neg]
      · rfl
      · rintro ⟨rfl, hfree⟩
        rw [Context.rebind?_eq_none_iff.mpr hfree] at hinner
        cases hinner
  | none =>
      have hfree := Context.rebind?_eq_none_iff.mp hinner
      rw [hinner] at hassign
      cases hbase : Context.rebind? name value base with
      -- one of the scopes around does
      | some base' =>
          rw [hbase] at hassign
          refine ⟨base', ⟨inner, hlength, hassign⟩, Context.length_rebind? hbase, ?_⟩
          intro other
          rw [ScopeStep.outward?, hopened]
          by_cases hname : name = other
          · subst hname
            rw [if_pos ⟨rfl, hfree⟩]
            exact Context.column_rebind? hbase
          · rw [if_neg fun h => hname h.1]
            exact Context.column_rebind?_of_ne (Ne.symm hname) hbase
      -- the name is new, and bound in the innermost scope
      | none =>
          rw [hbase] at hassign
          refine ⟨base, ⟨replaced, hreplaced, hassign⟩, rfl, ?_⟩
          intro other
          rw [ScopeStep.outward?, hopened]
          by_cases hname : name = other
          · subst hname
            exact (settle_of_unbound (Context.column_of_rebind?_eq_none hbase) _).symm
          · rw [if_neg fun h => hname h.1]
            rfl

/-- **What one operation does to the scopes around.** -/
theorem step (h : Above base depth c) {step : ScopeStep} {next : Nat}
    (hstep : step.depthAfter? depth = some next) :
    ∃ base', Above base' next (step.apply c) ∧ base'.length = base.length ∧
      ∀ name, column name base' =
        settle (step.outward? name base.length c) (column name base) := by
  cases step with
  | set name value =>
      cases hstep
      obtain ⟨inner, hlength, hscopes⟩ := h.replace (c.innermost.insert name value)
      exact ⟨base, ⟨inner, hlength, hscopes⟩, rfl, fun _ => rfl⟩
  | assign name value =>
      cases hstep
      exact h.assign name value
  | push =>
      cases hstep
      exact ⟨base, h.push, rfl, fun _ => rfl⟩
  | pop =>
      cases depth with
      | zero => cases hstep
      | succ depth =>
          cases hstep
          exact ⟨base, h.pop, rfl, fun _ => rfl⟩

/-- **What a run does to the scopes around**: in the column of each name it settles the last value
that was assigned outward. -/
theorem run {steps : List ScopeStep} {last : Nat} (h : Above base depth c)
    (hsteps : depthAfter? depth steps = some last) :
    ∃ base', Above base' last (c.run steps) ∧ base'.length = base.length ∧
      ∀ name, column name base' =
        settle (lastOutward? name base.length c steps) (column name base) := by
  induction steps generalizing base depth c with
  | nil =>
      cases hsteps
      exact ⟨base, h, rfl, fun _ => rfl⟩
  | cons step steps ih =>
      obtain ⟨next, hstep, hrest⟩ := Option.bind_eq_some_iff.mp hsteps
      obtain ⟨mid, hmid, hsame, hcols⟩ := h.step hstep
      obtain ⟨base', hbase, hlength, hcols'⟩ := ih hmid hrest
      refine ⟨base', hbase, hlength.trans hsame, fun name => ?_⟩
      rw [hcols', hcols, settle_settle, hsame, lastOutward?]

end Above

/-! ## Closing the scope again -/

/-- **`c.KeepsScopes c' last`** — the context `c'` has the scopes of `c`, but for the innermost
binding of each name, which may have come to `last`. -/
structure Context.KeepsScopes (c c' : Context) (last : String → Option Value) : Prop where
  /-- There are as many scopes. -/
  same_count : c'.scopes.length = c.scopes.length
  /-- Each scope binds the same names. -/
  same_names : ∀ name,
    c'.scopes.map (Bindings.binds name) = c.scopes.map (Bindings.binds name)
  /-- In the innermost scope that binds a name it has the last value, or the one that it had; in the
  scopes further out it has the one that it had. -/
  innermost_binding : ∀ name front old back,
    column name c.scopes = front ++ some old :: back → (∀ b ∈ front, b = none) →
      column name c'.scopes = front ++ some ((last name).getD old) :: back
  /-- A name without a value has none afterwards. -/
  unbound : ∀ name, c.get? name = none → c'.get? name = none

/-- The columns of a context show what each scope binds. -/
theorem map_isSome_column (name : String) (scopes : List Scope) :
    (column name scopes).map Option.isSome = scopes.map (Bindings.binds name) := by
  rw [column, List.map_map]
  rfl

/-- **What happens inside a scope stays there.** A scope is opened, balanced operations are done, and
the scope is closed: the scopes around bind what they bound before, and of each name at most the
innermost binding has another value, the last that was assigned to the name where no scope opened
inside had a binding for it. -/
theorem enclosed_keepsScopes {steps : List ScopeStep} (h : Balanced steps) (c : Context) :
    c.KeepsScopes (c.push.run steps).pop
      fun name => lastOutward? name c.scopes.length c.push steps := by
  have hstart : Above c.scopes 0 c.push := ⟨[[]], rfl, rfl⟩
  obtain ⟨base, ⟨inner, hlength, hscopes⟩, hsame, hcols⟩ := hstart.run h
  obtain ⟨scope, rfl⟩ := List.length_eq_one_iff.mp hlength
  have hne : base ≠ [] := by
    rintro rfl
    cases hsame
  have hpop : (c.push.run steps).pop.scopes = base := Context.scopes_pop hne hscopes
  refine ⟨by rw [hpop, hsame], fun name => ?_, fun name front old back hcol hfront => ?_,
    fun name hnone => ?_⟩
  · rw [hpop, ← map_isSome_column, ← map_isSome_column, hcols, map_isSome_settle]
  · rw [hpop, hcols, hcol, settle_append hfront]
  · have hfree := Context.get?_eq_none_iff.mp hnone
    rw [Context.get?_eq_none_iff, hpop, hcols, settle_of_unbound hfree]
    exact hfree

/-- Two scopes that both bind `y`; only the outer one binds `x`. -/
def nestedContext : Context :=
  (((Context.ofPairs [("x", .string "x outside"), ("y", .string "y outside")]).push).set "y"
    (.string "y inside"))

/-- Operations that assign `x` twice where it can be reached, once where a scope of their own shadows
it, and once where they have bound it themselves. -/
def shadowingSteps : List ScopeStep :=
  [.assign "x" (.string "first"), .push, .assign "x" (.string "second"), .set "x" .null,
    .assign "x" (.string "shadowed"), .pop, .assign "y" (.string "y changed"), .set "x" .null,
    .assign "x" (.string "own"), .assign "z" .null]

/-- Of the values assigned to `x` the second gets out, `y` changes in the inner scope alone, and `z`
does not get out at all. -/
theorem shadowingSteps_keepsScopes :
    Balanced shadowingSteps ∧
      lastOutward? "x" 2 nestedContext.push shadowingSteps = some (.string "second") ∧
      nestedContext.KeepsScopes (nestedContext.push.run shadowingSteps).pop
        (fun name => lastOutward? name 2 nestedContext.push shadowingSteps) ∧
      column "y" (nestedContext.push.run shadowingSteps).pop.scopes =
        [some (.string "y changed"), some (.string "y outside")] := by
  have hbalanced : Balanced shadowingSteps := by decide
  have hkeeps := enclosed_keepsScopes hbalanced nestedContext
  exact ⟨hbalanced, rfl, hkeeps,
    hkeeps.innermost_binding "y" [] (.string "y inside") [some (.string "y outside")] rfl nofun⟩

end TemplateLang

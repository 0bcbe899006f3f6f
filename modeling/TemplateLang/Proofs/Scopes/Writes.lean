import TemplateLang.Proofs.Scopes.Rebinding

/-!
# TemplateLang.Proofs.Scopes.Writes — a write is read back and changes nothing else

Binding a name and assigning to it choose their scopes in different ways, but what they do can be said
in the same words (`Context.Writes`): one place of the column of the name gets the value, no place in
front of it is bound, and nothing else is touched. That no place in front is bound is what makes the
value the one that is read (`writes_of_columns`). Binding writes the first place (`set_writes`),
assigning the first bound one, or the first if none is bound (`assign_writes`).
-/

namespace TemplateLang

/-- A column has no bound place, or a first one. -/
theorem column_cases (col : List (Option Value)) :
    (∀ b ∈ col, b = none) ∨
      ∃ front old back, (∀ b ∈ front, b = none) ∧ col = front ++ some old :: back := by
  induction col with
  | nil => exact .inl nofun
  | cons b col ih =>
      cases b with
      | some old => exact .inr ⟨[], old, col, nofun, rfl⟩
      | none =>
          rcases ih with hnone | ⟨front, old, back, hfront, rfl⟩
          · exact .inl (List.forall_mem_cons.mpr ⟨rfl, hnone⟩)
          · exact .inr ⟨none :: front, old, back, List.forall_mem_cons.mpr ⟨rfl, hfront⟩, rfl⟩

/-- **`c.Writes name value c'`** — the context `c'` is `c` with the value written to the name. -/
structure Context.Writes (c : Context) (name : String) (value : Value) (c' : Context) : Prop where
  /-- The value is read back. -/
  reads_value : c'.get? name = some value
  /-- Every other name reads as before. -/
  other_names : ∀ other, other ≠ name → c'.get? other = c.get? other
  /-- There are as many scopes. -/
  same_count : c'.scopes.length = c.scopes.length
  /-- No scope binds another name to anything else. -/
  other_columns : ∀ other, other ≠ name → column other c'.scopes = column other c.scopes
  /-- One scope has got the value, and none further in binds the name. -/
  one_entry : ∃ front old back, (∀ b ∈ front, b = none) ∧
    column name c.scopes = front ++ old :: back ∧
      column name c'.scopes = front ++ some value :: back
  /-- What missing variables mean is the same. -/
  same_policy : c'.policy = c.policy

namespace Context

/-- Reading a name is reading its column. -/
theorem get?_eq_findSome?_column (name : String) (c : Context) :
    c.get? name = (column name c.scopes).findSome? id := by
  simp [get?, find?, column, List.findSome?_map]

/-- What is written to one place of a column, with no place bound in front of it, is what is read. -/
theorem writes_of_columns {name : String} {value : Value} {c c' : Context}
    (hothers : ∀ other, other ≠ name → column other c'.scopes = column other c.scopes)
    (hpolicy : c'.policy = c.policy) {front back : List (Option Value)} {old : Option Value}
    (hfront : ∀ b ∈ front, b = none) (hcol : column name c.scopes = front ++ old :: back)
    (hcol' : column name c'.scopes = front ++ some value :: back) : c.Writes name value c' where
  reads_value := by
    have hnone : front.findSome? id = none := List.findSome?_eq_none_iff.mpr hfront
    rw [get?_eq_findSome?_column, hcol', List.findSome?_append, hnone, Option.none_or]
    rfl
  other_names := fun other hne => by
    rw [get?_eq_findSome?_column, get?_eq_findSome?_column, hothers other hne]
  same_count := by
    have hlength := congrArg List.length hcol
    have hlength' := congrArg List.length hcol'
    simp only [column, List.length_map, List.length_append, List.length_cons] at hlength hlength'
    omega
  other_columns := hothers
  one_entry := ⟨front, old, back, hfront, hcol, hcol'⟩
  same_policy := hpolicy

theorem column_scopes (name : String) (c : Context) :
    column name c.scopes = c.innermost.get? name :: column name c.outer := rfl

/-! ## Binding and assigning -/

theorem policy_assign (name : String) (value : Value) (c : Context) :
    (c.assign name value).policy = c.policy := by
  unfold assign
  split
  · rfl
  · split <;> rfl

/-- Binding a name writes the innermost place of its column. -/
theorem set_writes (name : String) (value : Value) (c : Context) :
    c.Writes name value (c.set name value) := by
  have hfront : ∀ b ∈ ([] : List (Option Value)), b = none := nofun
  have hcol' : column name (c.set name value).scopes = some value :: column name c.outer := by
    rw [column_scopes, set, Bindings.get?_insert_self]
  refine writes_of_columns (fun other hne => ?_) rfl hfront (column_scopes name c) hcol'
  rw [column_scopes, column_scopes, set, Bindings.get?_insert_of_ne hne]

theorem rebind?_of_unbound {name : String} {scopes : List Scope}
    (h : ∀ b ∈ column name scopes, b = none) (value : Value) :
    rebind? name value scopes = none := by
  refine rebind?_eq_none_iff.mpr fun scope hscope => ?_
  have hnone := h _ (List.mem_map_of_mem hscope)
  rw [Bindings.binds, hnone, Option.isSome_none]

/-- Assigning writes the first bound place of the column of the name, or the innermost place if none
is bound. -/
theorem assign_writes (name : String) (value : Value) (c : Context) :
    c.Writes name value (c.assign name value) := by
  have hscopes := scopes_assign name value c
  rcases column_cases (column name c.scopes) with hfree | ⟨front, old, back, hfront, hcol⟩
  · have hset : (c.assign name value).scopes = (c.set name value).scopes := by
      rw [hscopes, rebind?_of_unbound hfree, Option.getD_none]
      rfl
    have hwrites := set_writes name value c
    obtain ⟨front, old, back, hfront, hcol, hcol'⟩ := hwrites.one_entry
    refine writes_of_columns (fun other hne => ?_) (policy_assign name value c) hfront hcol ?_
    · rw [hset]
      exact hwrites.other_columns other hne
    · rw [hset, hcol']
  · cases hrebind : rebind? name value c.scopes with
    | none =>
        have hnone := column_of_rebind?_eq_none hrebind (some old) (by simp [hcol])
        cases hnone
    | some scopes' =>
        rw [hrebind, Option.getD_some] at hscopes
        refine writes_of_columns (fun other hne => ?_) (policy_assign name value c) hfront hcol ?_
        · rw [hscopes]
          exact column_rebind?_of_ne hne hrebind
        · rw [hscopes, column_rebind? hrebind, hcol, writeFirst_append hfront]

end Context

end TemplateLang

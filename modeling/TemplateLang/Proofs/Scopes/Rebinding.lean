import TemplateLang.Context.Basic

/-!
# TemplateLang.Proofs.Scopes.Rebinding — what writing does, scope by scope

Reading sees only the innermost binding of a name, but writing has to leave the others alone too.
So a stack of scopes is looked at one name at a time: its **column** lists what each scope binds the
name to, from the inside out. Writing to a column can only change its first bound place
(`settle`), and rebinding a name is exactly that, on the column of the name and on no other
(`column_rebind?`, `column_rebind?_of_ne`).
-/

namespace TemplateLang

/-! ## Columns -/

/-- **`column name scopes`** — what each scope binds the name to, from the inside out. -/
def column (name : String) (scopes : List Scope) : List (Option Value) :=
  scopes.map (Bindings.get? name)

/-- The column with another value at its first bound place; a column without one stays as it is. -/
def writeFirst (value : Value) : List (Option Value) → List (Option Value)
  | [] => []
  | some _ :: col => some value :: col
  | none :: col => none :: writeFirst value col

/-- **`settle value? col`** — the column with the value, if there is one, at its first bound
place. -/
def settle : Option Value → List (Option Value) → List (Option Value)
  | none, col => col
  | some value, col => writeFirst value col

section Columns

variable {front back : List (Option Value)}

/-- The first bound place is behind places that are not bound. -/
theorem writeFirst_append (h : ∀ b ∈ front, b = none) (value old : Value) :
    writeFirst value (front ++ some old :: back) = front ++ some value :: back := by
  induction front with
  | nil => rfl
  | cons b front ih =>
      obtain ⟨rfl, hfront⟩ := List.forall_mem_cons.mp h
      rw [List.cons_append, List.cons_append, writeFirst, ih hfront]

theorem writeFirst_of_unbound {col : List (Option Value)} (h : ∀ b ∈ col, b = none)
    (value : Value) : writeFirst value col = col := by
  induction col with
  | nil => rfl
  | cons b col ih =>
      obtain ⟨rfl, hcol⟩ := List.forall_mem_cons.mp h
      rw [writeFirst, ih hcol]

/-- Of two values written one after the other the later stays. -/
theorem writeFirst_writeFirst (value earlier : Value) (col : List (Option Value)) :
    writeFirst value (writeFirst earlier col) = writeFirst value col := by
  induction col with
  | nil => rfl
  | cons b col ih =>
      cases b with
      | none => rw [writeFirst, writeFirst, writeFirst, ih]
      | some old => rfl

/-- Writing binds nothing new. -/
theorem map_isSome_writeFirst (value : Value) (col : List (Option Value)) :
    (writeFirst value col).map Option.isSome = col.map Option.isSome := by
  induction col with
  | nil => rfl
  | cons b col ih =>
      cases b with
      | none => rw [writeFirst, List.map_cons, List.map_cons, ih]
      | some old => rfl

theorem settle_append (h : ∀ b ∈ front, b = none) (value? : Option Value) (old : Value) :
    settle value? (front ++ some old :: back) = front ++ some (value?.getD old) :: back := by
  cases value? with
  | none => rfl
  | some value => exact writeFirst_append h value old

theorem settle_of_unbound {col : List (Option Value)} (h : ∀ b ∈ col, b = none)
    (value? : Option Value) : settle value? col = col := by
  cases value? with
  | none => rfl
  | some value => exact writeFirst_of_unbound h value

theorem settle_settle (later earlier : Option Value) (col : List (Option Value)) :
    settle later (settle earlier col) = settle (later.or earlier) col := by
  cases later with
  | none => rfl
  | some value =>
      cases earlier with
      | none => rfl
      | some other => exact writeFirst_writeFirst value other col

theorem map_isSome_settle (value? : Option Value) (col : List (Option Value)) :
    (settle value? col).map Option.isSome = col.map Option.isSome := by
  cases value? with
  | none => rfl
  | some value => exact map_isSome_writeFirst value col

end Columns

namespace Context

/-! ## Reading and rebinding -/

/-- A name has no value exactly when no scope binds it. -/
theorem get?_eq_none_iff {name : String} {c : Context} :
    c.get? name = none ↔ ∀ b ∈ column name c.scopes, b = none := by
  simp [get?, find?, column, List.findSome?_eq_none_iff]

section Rebind

variable {name : String} {value : Value} {scopes scopes' : List Scope}

theorem rebind?_eq_none_iff :
    rebind? name value scopes = none ↔ ∀ scope ∈ scopes, scope.binds name = false := by
  induction scopes with
  | nil => simp [rebind?]
  | cons scope rest ih =>
      cases hbinds : scope.binds name with
      | true => simp [rebind?, hbinds]
      | false => simp [rebind?, hbinds, ih]

theorem column_of_rebind?_eq_none (h : rebind? name value scopes = none) :
    ∀ b ∈ column name scopes, b = none := by
  intro b hb
  obtain ⟨scope, hscope, rfl⟩ := List.mem_map.mp hb
  have hbinds : (Bindings.get? name scope).isSome = false := rebind?_eq_none_iff.mp h scope hscope
  simpa using hbinds

/-- Rebinding goes to the inner scopes if they bind the name, and else to the outer ones. -/
theorem rebind?_append (inner base : List Scope) :
    rebind? name value (inner ++ base) =
      ((rebind? name value inner).map (· ++ base)).or
        ((rebind? name value base).map (inner ++ ·)) := by
  induction inner with
  | nil =>
      cases h : rebind? name value base with
      | none => simp [rebind?, h]
      | some base' => simp [rebind?, h]
  | cons scope rest ih =>
      cases hbinds : scope.binds name with
      | true => simp [rebind?, hbinds]
      | false =>
          rw [List.cons_append, rebind?, rebind?, hbinds, ih]
          cases rebind? name value rest <;> cases rebind? name value base <;> rfl

/-- **Rebinding writes the first bound place of the column.** -/
theorem column_rebind? (h : rebind? name value scopes = some scopes') :
    column name scopes' = writeFirst value (column name scopes) := by
  induction scopes generalizing scopes' with
  | nil => cases h
  | cons scope rest ih =>
      rw [rebind?] at h
      split at h
      · next hbinds =>
          cases h
          obtain ⟨old, hold⟩ := Option.isSome_iff_exists.mp hbinds
          simp [column, writeFirst, hold]
      · next hbinds =>
          obtain ⟨rest', hrest, rfl⟩ := Option.map_eq_some_iff.mp h
          have hnone : Bindings.get? name scope = none :=
            Option.not_isSome_iff_eq_none.mp hbinds
          have hcol := ih hrest
          simp only [column, List.map_cons] at hcol ⊢
          rw [hnone, hcol, writeFirst]

/-- The other columns stay as they are. -/
theorem column_rebind?_of_ne {other : String} (hne : other ≠ name)
    (h : rebind? name value scopes = some scopes') : column other scopes' = column other scopes := by
  induction scopes generalizing scopes' with
  | nil => cases h
  | cons scope rest ih =>
      rw [rebind?] at h
      split at h
      · cases h
        simp [column, Bindings.get?_insert_of_ne hne]
      · obtain ⟨rest', hrest, rfl⟩ := Option.map_eq_some_iff.mp h
        exact congrArg (Bindings.get? other scope :: ·) (ih hrest)

theorem length_rebind? (h : rebind? name value scopes = some scopes') :
    scopes'.length = scopes.length := by
  have hbound := map_isSome_writeFirst value (column name scopes)
  rw [← column_rebind? h] at hbound
  simpa [column] using congrArg List.length hbound

end Rebind

/-! ## The scopes behind an operation -/

/-- Assigning rebinds a name, and binds it in the innermost scope where it is not bound yet. -/
theorem scopes_assign (name : String) (value : Value) (c : Context) :
    (c.assign name value).scopes =
      (rebind? name value c.scopes).getD (c.innermost.insert name value :: c.outer) := by
  unfold assign scopes
  cases hbinds : c.innermost.binds name with
  | true => simp [rebind?, hbinds, set]
  | false =>
      cases houter : rebind? name value c.outer with
      | none => simp [rebind?, hbinds, houter, set]
      | some outer => simp [rebind?, hbinds, houter]

/-- Closing a scope drops the innermost, unless it is the only one. -/
theorem scopes_pop {c : Context} {scope : Scope} {rest : List Scope} (hne : rest ≠ [])
    (h : c.scopes = scope :: rest) : c.pop.scopes = rest := by
  obtain ⟨innermost, outer, policy⟩ := c
  obtain ⟨rfl, rfl⟩ := List.cons_eq_cons.mp h
  cases outer with
  | nil => exact absurd rfl hne
  | cons next outer => rfl

end Context

end TemplateLang

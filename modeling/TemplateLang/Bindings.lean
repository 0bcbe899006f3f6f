import TemplateLang.Text.Order

/-!
# TemplateLang.Bindings — names bound to values, listed in code point order

One structure serves wherever names are bound: the entries of a map value and the variables of a
scope. It is an association list; `insert` puts a new name before the first later one and replaces
the value of a name that is already there, so a list built by `insert` alone names each name once
and is sorted. Lookup needs neither property: the two laws of `get?` below hold of every list.
-/

namespace TemplateLang

/-- Names bound to values. -/
abbrev Bindings (α : Type) := List (String × α)

namespace Bindings

variable {α : Type}

/-- The value that `name` is bound to. -/
def get? (name : String) : Bindings α → Option α
  | [] => none
  | (key, value) :: rest => if key = name then some value else get? name rest

/-- Whether `name` is bound. -/
def binds (name : String) (entries : Bindings α) : Bool :=
  (get? name entries).isSome

/-- Binds `name` to `value`, in place of any value that it was bound to. -/
def insert (name : String) (value : α) : Bindings α → Bindings α
  | [] => [(name, value)]
  | (key, old) :: rest =>
      if key = name then (name, value) :: rest
      else if Text.before name key then (name, value) :: (key, old) :: rest
      else (key, old) :: insert name value rest

/-- The bindings of a list of pairs; of two pairs with one name the later counts. -/
def ofPairs (pairs : List (String × α)) : Bindings α :=
  pairs.foldl (fun entries pair => insert pair.1 pair.2 entries) []

@[simp] theorem get?_insert_self (name : String) (value : α) (entries : Bindings α) :
    get? name (insert name value entries) = some value := by
  induction entries with
  | nil => simp [insert, get?]
  | cons entry rest ih =>
      obtain ⟨key, old⟩ := entry
      by_cases hk : key = name
      -- the name is bound here
      · simp [insert, get?, hk]
      · by_cases hb : Text.before name key = true
        -- its place is in front
        · simp [insert, get?, hk, hb]
        -- its place is further on
        · simp [insert, get?, hk, hb, ih]

theorem get?_insert_of_ne {name other : String} (h : other ≠ name) (value : α)
    (entries : Bindings α) : get? other (insert name value entries) = get? other entries := by
  induction entries with
  | nil => simp [insert, get?, Ne.symm h]
  | cons entry rest ih =>
      obtain ⟨key, old⟩ := entry
      by_cases hk : key = name
      · subst hk
        simp [insert, get?, Ne.symm h]
      · by_cases hb : Text.before name key = true
        · simp [insert, get?, hk, hb, Ne.symm h]
        · simp [insert, get?, hk, hb, ih]

end Bindings

end TemplateLang

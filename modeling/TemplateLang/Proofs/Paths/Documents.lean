import TemplateLang.Context.Basic
import TemplateLang.Proofs.Numerals.Grammar

/-!
# TemplateLang.Proofs.Paths.Documents — paths into documents

A context made from a document holds its members as values, and paths are walked in these values. Main
statement (`Context.resolve?_joined`): what a path comes to can be read off the document itself. Its
segments lead from the document to a part of it, one step each (`Json.Leads`), and the path resolves to
the value of that part; where a step does not exist, the path has no value.

Walking a value and following a document go step by step together (`Value.part?_ofJson_iff`), so one
induction on the segments gives the path. Two things are left: the first segment is a name of the
context, not of a map, and the whole path is tried as such a name before. With no point in the names of
the document, the second can succeed only where there is no more than one segment.
-/

namespace TemplateLang

/-! ## Following a document -/

/-- **`Path.Spells segment i`** — the segment is the position `i` in decimal digits, with or without a
plus sign, and the position can be told apart from the others. -/
def Path.Spells (segment : List Char) (i : Nat) : Prop :=
  ∃ digits, (segment = digits ∨ segment = '+' :: digits) ∧ Numeral.Digits digits ∧
    Nat.ofDigitChars 10 digits 0 = i ∧ i < positionBound

/-- **`j.Step segment k`** — the segment names `k` in `j`: a member of an object, or an item of an
array. Nothing else has parts. -/
inductive Json.Step : Json → String → Json → Prop
  | member {members : List (String × Json)} {name : String} {k : Json} :
      lastMember? name members = some k → Step (.object members) name k
  | item {items : List Json} {segment : String} {i : Nat} {k : Json} :
      Path.Spells segment.toList i → items[i]? = some k → Step (.array items) segment k

/-- **`j.Leads segments k`** — the segments lead from `j` to `k`. -/
inductive Json.Leads : Json → List String → Json → Prop
  | here (j : Json) : Leads j [] j
  | step {j next k : Json} {segment : String} {rest : List String} :
      Step j segment next → Leads next rest k → Leads j (segment :: rest) k

/-! ## Positions -/

theorem Path.isPosition_iff {segment : List Char} :
    isPosition segment = true ↔ Numeral.Digits segment := by
  simp only [isPosition, Bool.and_eq_true, Bool.not_eq_true', List.isEmpty_eq_false_iff,
    List.all_eq_true]
  exact ⟨fun h => ⟨h.1, h.2⟩, fun h => ⟨h.ne_nil, h.digit⟩⟩

theorem Path.position?_eq_some_iff {segment : List Char} {i : Nat} :
    position? segment = some i ↔ Spells segment i := by
  have hdigits : ∀ digits : List Char,
      (if isPosition digits then
        let n := Nat.ofDigitChars 10 digits 0
        if n < positionBound then some n else none
      else none) = some i ↔
        Numeral.Digits digits ∧ Nat.ofDigitChars 10 digits 0 = i ∧ i < positionBound := by
    intro digits
    rw [← isPosition_iff]
    dsimp only
    split
    · next hposition =>
        split
        · next hbound =>
            rw [Option.some.injEq]
            exact ⟨fun h => ⟨hposition, h, h ▸ hbound⟩, fun h => h.2.1⟩
        · next hbound => exact ⟨nofun, fun h => absurd (h.2.1 ▸ h.2.2) hbound⟩
    · next hposition => exact ⟨nofun, fun h => absurd h.1 hposition⟩
  -- a run of digits has no sign in front
  have hplus : ∀ rest : List Char, ¬ Numeral.Digits ('+' :: rest) := by
    intro rest h
    exact absurd (h.digit '+' List.mem_cons_self) (by decide)
  unfold position?
  split
  · next rest =>
      rw [hdigits]
      constructor
      · exact fun h => ⟨rest, .inr rfl, h⟩
      · rintro ⟨digits, rfl | heq, h⟩
        · exact absurd h.1 (hplus rest)
        · cases heq
          exact h
  · next hsign =>
      rw [hdigits]
      constructor
      · exact fun h => ⟨segment, .inl rfl, h⟩
      · rintro ⟨digits, rfl | rfl, h⟩
        · exact h
        · exact absurd rfl (hsign digits)

/-! ## Values of documents -/

namespace Value

/-- The value of an object binds each name to the value of its last member, over whatever was bound
before. -/
theorem get?_ofJsonMembers (name : String) (members : List (String × Json))
    (entries : Bindings Value) :
    Bindings.get? name (ofJsonMembers members entries) =
      ((Json.lastMember? name members).map ofJson).or (Bindings.get? name entries) := by
  induction members generalizing entries with
  | nil => simp [ofJsonMembers, Json.lastMember?]
  | cons member rest ih =>
      obtain ⟨key, j⟩ := member
      rw [ofJsonMembers, ih, Json.lastMember?]
      cases hlater : Json.lastMember? name rest with
      | some later => rfl
      | none =>
          by_cases hkey : key = name
          · subst hkey
            simp
          · simp [hkey, Bindings.get?_insert_of_ne (Ne.symm hkey)]

/-- The value of an object alone binds the names of its members. -/
theorem get?_ofJsonMembers_nil (name : String) (members : List (String × Json)) :
    Bindings.get? name (ofJsonMembers members []) =
      (Json.lastMember? name members).map ofJson :=
  (get?_ofJsonMembers name members []).trans Option.or_none

theorem ofJsonItems_eq_map (items : List Json) : ofJsonItems items = items.map ofJson := by
  induction items with
  | nil => rfl
  | cons j rest ih => rw [ofJsonItems, ih, List.map_cons]

/-- **The parts of a document's value are the values of its parts.** -/
theorem part?_ofJson_iff {j : Json} {segment : String} {v : Value} :
    part? segment.toList (ofJson j) = some v ↔ ∃ k, j.Step segment k ∧ ofJson k = v := by
  cases j with
  | object members =>
      rw [ofJson, part?, String.ofList_toList, get?_ofJsonMembers_nil, Option.map_eq_some_iff]
      constructor
      · rintro ⟨k, hk, hv⟩
        exact ⟨k, .member hk, hv⟩
      · rintro ⟨k, hk, hv⟩
        cases hk with
        | member hk => exact ⟨k, hk, hv⟩
  | array items =>
      rw [ofJson, part?, ofJsonItems_eq_map, Option.bind_eq_some_iff]
      simp only [Path.position?_eq_some_iff, List.getElem?_map, Option.map_eq_some_iff]
      constructor
      · rintro ⟨i, hi, k, hk, hv⟩
        exact ⟨k, .item hi hk, hv⟩
      · rintro ⟨k, hk, hv⟩
        cases hk with
        | item hi hk => exact ⟨_, hi, k, hk, hv⟩
  | null => exact ⟨nofun, nofun⟩
  | bool b => exact ⟨nofun, nofun⟩
  | number n => exact ⟨nofun, nofun⟩
  | string s => exact ⟨nofun, nofun⟩

/-- Walking segments in a document's value is following them in the document. -/
theorem descend?_ofJson_iff {segments : List String} {j : Json} {v : Value} :
    descend? (segments.map String.toList) (ofJson j) = some v ↔
      ∃ k, j.Leads segments k ∧ ofJson k = v := by
  induction segments generalizing j with
  | nil =>
      rw [List.map_nil, descend?_nil, Option.some.injEq]
      constructor
      · exact fun h => ⟨j, .here j, h⟩
      · rintro ⟨k, hk, hv⟩
        cases hk
        exact hv
  | cons segment rest ih =>
      rw [List.map_cons, descend?, Option.bind_eq_some_iff]
      constructor
      · rintro ⟨w, hw, hv⟩
        obtain ⟨next, hstep, rfl⟩ := part?_ofJson_iff.mp hw
        obtain ⟨k, hk, hv⟩ := ih.mp hv
        exact ⟨k, .step hstep hk, hv⟩
      · rintro ⟨k, hk, hv⟩
        cases hk with
        | step hstep hrest =>
            exact ⟨_, part?_ofJson_iff.mpr ⟨_, hstep, rfl⟩, ih.mpr ⟨k, hrest, hv⟩⟩

end Value

/-! ## Joining segments -/

namespace Path

/-- A text without points is one segment. -/
theorem segments_of_no_point {cs : List Char} (h : '.' ∉ cs) : segments cs = (cs, []) := by
  induction cs with
  | nil => rfl
  | cons c cs ih =>
      rw [List.mem_cons, not_or] at h
      rw [segments, ih h.2, if_neg (Ne.symm h.1)]

theorem segments_append_point {cs : List Char} (h : '.' ∉ cs) (rest : List Char) :
    segments (cs ++ '.' :: rest) = (cs, (segments rest).1 :: (segments rest).2) := by
  induction cs with
  | nil => simp [segments]
  | cons c cs ih =>
      rw [List.mem_cons, not_or] at h
      rw [List.cons_append, segments, ih h.2, if_neg (Ne.symm h.1)]

/-- **Joined segments are cut apart again**, if there are no points in them. -/
theorem segments_joined {first : String} {rest : List String}
    (h : ∀ segment ∈ first :: rest, '.' ∉ segment.toList) :
    segments (".".intercalate (first :: rest)).toList =
      (first.toList, rest.map String.toList) := by
  rw [String.toList_intercalate, show ".".toList = ['.'] from rfl]
  induction rest generalizing first with
  | nil =>
      rw [List.map_cons, List.map_nil, List.intercalate_singleton]
      exact segments_of_no_point (h first List.mem_cons_self)
  | cons second rest ih =>
      obtain ⟨hfirst, hrest⟩ := List.forall_mem_cons.mp h
      have hcut := ih hrest
      rw [List.map_cons] at hcut
      rw [List.map_cons, List.map_cons, List.intercalate_cons_cons, List.append_assoc,
        List.singleton_append, segments_append_point hfirst, hcut]

/-- There is a point in two or more segments that are joined. -/
theorem point_mem_joined (first second : String) (rest : List String) :
    '.' ∈ (".".intercalate (first :: second :: rest)).toList := by
  rw [String.toList_intercalate, List.map_cons, List.map_cons, List.intercalate_cons_cons]
  simp

end Path

/-! ## Paths into documents -/

theorem Json.lastMember?_eq_none {name : String} {members : List (String × Json)}
    (h : ∀ member ∈ members, member.1 ≠ name) : lastMember? name members = none := by
  induction members with
  | nil => rfl
  | cons member rest ih =>
      obtain ⟨hmember, hrest⟩ := List.forall_mem_cons.mp h
      rw [lastMember?, ih hrest]
      exact if_neg hmember

namespace Context

/-- The context with `count` more scopes, all of them empty. -/
def pushed (count : Nat) (c : Context) : Context :=
  Nat.repeat push count c

theorem get?_pushed (name : String) (count : Nat) (c : Context) :
    (c.pushed count).get? name = c.get? name := by
  induction count with
  | zero => rfl
  | succ count ih => exact ih

/-- A context that is made from an object binds what the value of the object does. -/
theorem get?_ofJson (name : String) (members : List (String × Json)) :
    (ofJson (.object members)).get? name = (Json.lastMember? name members).map Value.ofJson := by
  show find? name [Value.ofJsonMembers members []] = _
  rw [find?, List.findSome?_cons, Value.get?_ofJsonMembers_nil]
  cases Json.lastMember? name members <;> rfl

section Object

variable {members : List (String × Json)} (hnames : ∀ member ∈ members, '.' ∉ member.1.toList)

include hnames

/-- A path of more than one segment is no name in the document. -/
theorem get?_joined (first second : String) (rest : List String) :
    (ofJson (.object members)).get? (".".intercalate (first :: second :: rest)) = none := by
  rw [get?_ofJson, Json.lastMember?_eq_none, Option.map_none]
  rintro member hmember heq
  refine hnames member hmember ?_
  rw [heq]
  exact Path.point_mem_joined first second rest

/-- **A path walks from the document**: the first segment is a name in it, and the others go on from
there. -/
theorem resolve?_eq_descend? (count : Nat) {segments : List String} (hne : segments ≠ [])
    (hpoints : ∀ segment ∈ segments, '.' ∉ segment.toList) :
    ((ofJson (.object members)).pushed count).resolve? (".".intercalate segments) =
      Value.descend? (segments.map String.toList) (Value.ofJson (.object members)) := by
  obtain ⟨first, rest, rfl⟩ := List.exists_cons_of_ne_nil hne
  have hwalk : Value.descend? ((first :: rest).map String.toList) (Value.ofJson (.object members)) =
      ((ofJson (.object members)).get? first).bind (Value.descend? (rest.map String.toList)) := by
    rw [List.map_cons, Value.descend?, Value.ofJson, Value.part?, String.ofList_toList,
      Value.get?_ofJsonMembers_nil, get?_ofJson]
  rw [resolve?, Path.segments_joined hpoints, hwalk]
  simp only [get?_pushed, String.ofList_toList]
  cases rest with
  | nil =>
      have hone : ".".intercalate [first] = first := by
        refine String.toList_inj.mp ?_
        rw [String.toList_intercalate, List.map_cons, List.map_nil, List.intercalate_singleton]
      rw [hone]
      cases (ofJson (.object members)).get? first <;> rfl
  | cons second rest => rw [get?_joined hnames]

/-- **Paths navigate documents.** In a context made from an object without points in its names, and in
any number of scopes inside it, the path of segments without points has the value of the part that the
segments lead to, and no value if they lead nowhere. -/
theorem resolve?_joined (count : Nat) {segments : List String} (hne : segments ≠ [])
    (hpoints : ∀ segment ∈ segments, '.' ∉ segment.toList) :
    (∀ k, (Json.object members).Leads segments k →
      ((ofJson (.object members)).pushed count).resolve? (".".intercalate segments) =
        some (Value.ofJson k)) ∧
    ((∀ k, ¬ (Json.object members).Leads segments k) →
      ((ofJson (.object members)).pushed count).resolve? (".".intercalate segments) = none) := by
  rw [resolve?_eq_descend? hnames count hne hpoints]
  constructor
  · intro k hk
    exact Value.descend?_ofJson_iff.mpr ⟨k, hk, rfl⟩
  · intro hnowhere
    refine Option.eq_none_iff_forall_not_mem.mpr fun v hv => ?_
    obtain ⟨k, hk, -⟩ := Value.descend?_ofJson_iff.mp hv
    exact hnowhere k hk

end Object

/-- A document with an array in it, and with a point in a name that is not at the top. -/
def rowsDocument : List (String × Json) :=
  [("rows", .array [.null, .object [("a.b", .bool true), ("", .string "found")]]),
    ("", .string "at the top")]

/-- The item at `+1` has a member without a name, and nothing leads into a truth value, or to a name
with a point in it. -/
theorem rowsDocument_resolves :
    (∀ member ∈ rowsDocument, '.' ∉ member.1.toList) ∧
      ((ofJson (.object rowsDocument)).pushed 2).resolve? "rows.+1." = some (.string "found") ∧
      ((ofJson (.object rowsDocument)).pushed 2).resolve? "rows.1.a.b" = none := by
  have hnames : ∀ member ∈ rowsDocument, '.' ∉ member.1.toList := by decide
  have hfound : ∀ segment ∈ ["rows", "+1", ""], '.' ∉ segment.toList := by decide
  have hmissing : ∀ segment ∈ ["rows", "1", "a", "b"], '.' ∉ segment.toList := by decide
  refine ⟨hnames, ?_, ?_⟩
  · refine (resolve?_joined hnames 2 (List.cons_ne_nil _ _) hfound).1 (.string "found") ?_
    have hposition : Path.Spells "+1".toList 1 :=
      ⟨['1'], .inr rfl, ⟨List.cons_ne_nil _ _, by simp⟩, rfl, by decide⟩
    exact .step (.member rfl) (.step (.item hposition rfl) (.step (.member rfl) (.here _)))
  · refine (resolve?_joined hnames 2 (List.cons_ne_nil _ _) hmissing).2 fun k hk => ?_
    have hwalk := Value.descend?_ofJson_iff.mpr ⟨k, hk, rfl⟩
    cases hwalk

end Context

end TemplateLang

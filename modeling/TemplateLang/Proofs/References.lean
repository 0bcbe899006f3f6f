import TemplateLang.Expr.Eval

/-!
# TemplateLang.Proofs.References — what an expression asks of its context

An expression meets its context only where a word is spelled as a path and means nothing by itself;
these are its references, listed from left to right. Main statement (`Expr.followsPolicy`): under the
strict policy the first reference without a value is the error, under the lenient one there is no
error, and nothing but the values of the references tells one context from another.

Both halves are inductions on the expression. What carries them is that a reference is looked up as
it stands and everything else is a value (`Token.meaning_cases`), and that the left operand comes
first: the references of an operator are those of its operands in the same order.
-/

namespace TemplateLang

/-! ## References -/

/-- Whether a word is one of the three constants. -/
def isConstant (word : String) : Bool :=
  word == "true" || word == "false" || word == "null"

/-- **`t.reference?`** — the path that a token refers to: the text of a word that is no constant and
no numeral, and is spelled as a path. -/
def Token.reference? (t : Token) : Option String :=
  if t.kind = .word ∧ isConstant t.text = false ∧ Numeral.numberOf? t.text = none ∧
      Path.isPath t.text = true then
    some t.text
  else none

/-- The tokens at the leaves of an expression, from left to right. -/
def Expr.leaves : Expr → List Token
  | .leaf t => [t]
  | .binary _ left right => left.leaves ++ right.leaves

/-- The paths that an expression refers to, from left to right. -/
def Expr.references (e : Expr) : List String :=
  e.leaves.filterMap Token.reference?

@[simp] theorem Expr.references_leaf (t : Token) :
    (leaf t).references = t.reference?.toList := by
  cases h : t.reference? <;> simp [references, leaves, h]

@[simp] theorem Expr.references_binary (op : Operator) (left right : Expr) :
    (binary op left right).references = left.references ++ right.references :=
  List.filterMap_append

/-- A word that is not a constant is a numeral, a path, or its own text. -/
theorem Meaning.ofWord_of_not_constant {word : String} (h : isConstant word = false) :
    ofWord word =
      match Numeral.numberOf? word with
      | some x => .value (.number x)
      | none => if Path.isPath word then .variable word else .value (.string word) := by
  simp only [isConstant, Bool.or_eq_false_iff] at h
  obtain ⟨⟨htrue, hfalse⟩, hnull⟩ := h
  simp only [ofWord, htrue, hfalse, hnull]
  rfl

theorem Meaning.exists_ofWord_of_constant {word : String} (h : isConstant word = true) :
    ∃ v, ofWord word = .value v := by
  simp only [isConstant, Bool.or_eq_true, beq_iff_eq] at h
  rcases h with (rfl | rfl) | rfl <;> exact ⟨_, rfl⟩

/-- **A token is a reference or a value**: a reference is looked up as it is written, and everything
else means the same in every context. -/
theorem Token.meaning_cases (t : Token) :
    (∃ path, t.reference? = some path ∧ t.meaning = .variable path) ∨
      (t.reference? = none ∧ ∃ v, t.meaning = .value v) := by
  unfold reference? meaning
  by_cases hkind : t.kind = .word
  · rw [if_pos (beq_iff_eq.mpr hkind)]
    cases hconstant : isConstant t.text with
    | true => exact .inr ⟨by simp, Meaning.exists_ofWord_of_constant hconstant⟩
    | false =>
        rw [Meaning.ofWord_of_not_constant hconstant]
        cases hnumber : Numeral.numberOf? t.text with
        | some x => exact .inr ⟨by simp, _, rfl⟩
        | none =>
            cases hpath : Path.isPath t.text with
            | true => exact .inl ⟨t.text, by simp [hkind], rfl⟩
            | false => exact .inr ⟨by simp, _, rfl⟩
  · rw [if_neg (by simp [hkind]), if_neg (by simp [hkind])]
    exact .inr ⟨rfl, _, rfl⟩

/-- Only words refer to anything. -/
theorem Expr.references_of_no_word {e : Expr} (h : ∀ t ∈ e.leaves, t.kind ≠ .word) :
    e.references = [] := by
  refine List.filterMap_eq_nil_iff.mpr fun t ht => ?_
  rw [Token.reference?, if_neg]
  exact fun hword => h t ht hword.1

/-! ## Looking up one path -/

namespace Context

variable {c c' : Context} {path : String}

theorem lookup_of_resolve? {v : Value} (h : c.resolve? path = some v) : c.lookup path = .ok v := by
  rw [lookup, h]

theorem lookup_of_strict (hc : c.policy = .strict) (h : c.resolve? path = none) :
    c.lookup path = .error (.unresolvedVariable path) := by
  rw [lookup, h, hc]

theorem lookup_of_lenient (hc : c.policy = .lenient) :
    c.lookup path = .ok ((c.resolve? path).getD .null) := by
  rw [lookup, hc]
  cases c.resolve? path with
  | none => rfl
  | some v => rfl

/-- Looking up asks for the value at the path and for the policy. -/
theorem lookup_congr (hpolicy : c'.policy = c.policy) (h : c'.resolve? path = c.resolve? path) :
    c'.lookup path = c.lookup path := by
  rw [lookup, lookup, h, hpolicy]

end Context

/-- **`FirstMissing c paths path`** — `path` has no value in the context, and all that stand before
it in the list have one. -/
def FirstMissing (c : Context) (paths : List String) (path : String) : Prop :=
  ∃ front back, paths = front ++ path :: back ∧ c.resolve? path = none ∧
    ∀ other ∈ front, c.resolve? other ≠ none

namespace FirstMissing

variable {c : Context} {paths : List String} {path : String}

theorem mem (h : FirstMissing c paths path) : path ∈ paths := by
  obtain ⟨front, back, rfl, -, -⟩ := h
  simp

theorem missing (h : FirstMissing c paths path) : c.resolve? path = none := by
  obtain ⟨_, _, -, hmissing, -⟩ := h
  exact hmissing

theorem append (h : FirstMissing c paths path) (more : List String) :
    FirstMissing c (paths ++ more) path := by
  obtain ⟨front, back, rfl, hmissing, hfront⟩ := h
  exact ⟨front, back ++ more, by simp, hmissing, hfront⟩

theorem behind (h : FirstMissing c paths path) {found : List String}
    (hfound : ∀ other ∈ found, c.resolve? other ≠ none) : FirstMissing c (found ++ paths) path := by
  obtain ⟨front, back, rfl, hmissing, hfront⟩ := h
  exact ⟨found ++ front, back, by simp, hmissing, List.forall_mem_append.mpr ⟨hfound, hfront⟩⟩

end FirstMissing

/-! ## Evaluating an expression -/

namespace Expr

variable {c c' : Context}

/-- Contexts that give the same answer to each reference give the same value. -/
theorem eval_congr {e : Expr} (h : ∀ path ∈ e.references, c'.lookup path = c.lookup path) :
    e.eval c' = e.eval c := by
  induction e with
  | leaf t =>
      rcases t.meaning_cases with ⟨path, href, hmeaning⟩ | ⟨-, v, hmeaning⟩
      · simp only [eval, hmeaning, Meaning.eval]
        exact h path (by simp [href])
      · simp only [eval, hmeaning, Meaning.eval]
  | binary op left right ihl ihr =>
      rw [references_binary] at h
      have hl := ihl fun path hpath => h path (List.mem_append_left _ hpath)
      have hr := ihr fun path hpath => h path (List.mem_append_right _ hpath)
      rw [eval, eval, hl, hr]

/-- Under the lenient policy every expression has a value. -/
theorem exists_eval_of_lenient (hc : c.policy = .lenient) (e : Expr) : ∃ v, e.eval c = .ok v := by
  induction e with
  | leaf t =>
      rcases t.meaning_cases with ⟨path, -, hmeaning⟩ | ⟨-, v, hmeaning⟩
      · refine ⟨(c.resolve? path).getD .null, ?_⟩
        rw [eval, hmeaning, Meaning.eval, Context.lookup_of_lenient hc]
      · exact ⟨v, by rw [eval, hmeaning, Meaning.eval]⟩
  | binary op left right ihl ihr =>
      obtain ⟨v, hv⟩ := ihl
      obtain ⟨w, hw⟩ := ihr
      exact ⟨op.apply v w, by rw [eval, hv, hw]⟩

/-- **Under the strict policy** an expression has a value and all its references have one, or the
first reference without a value is the error. -/
theorem eval_cases_of_strict (hc : c.policy = .strict) (e : Expr) :
    ((∃ v, e.eval c = .ok v) ∧ ∀ path ∈ e.references, c.resolve? path ≠ none) ∨
      ∃ path, FirstMissing c e.references path ∧
        e.eval c = .error (.unresolvedVariable path) := by
  induction e with
  | leaf t =>
      rcases t.meaning_cases with ⟨path, href, hmeaning⟩ | ⟨href, v, hmeaning⟩
      · simp only [eval, references_leaf, href, hmeaning, Meaning.eval, Option.toList_some]
        cases hfound : c.resolve? path with
        | some v =>
            refine .inl ⟨⟨v, Context.lookup_of_resolve? hfound⟩, ?_⟩
            exact List.forall_mem_singleton.mpr (by simp [hfound])
        | none =>
            exact .inr ⟨path, ⟨[], [], rfl, hfound, nofun⟩, Context.lookup_of_strict hc hfound⟩
      · simp only [eval, references_leaf, href, hmeaning, Meaning.eval]
        exact .inl ⟨⟨v, rfl⟩, nofun⟩
  | binary op left right ihl ihr =>
      rw [references_binary]
      rcases ihl with ⟨⟨v, hv⟩, hleft⟩ | ⟨path, hpath, herror⟩
      -- the left operand has a value, and so the right one decides
      · rcases ihr with ⟨⟨w, hw⟩, hright⟩ | ⟨path, hpath, herror⟩
        · exact .inl ⟨⟨op.apply v w, by rw [eval, hv, hw]⟩,
            List.forall_mem_append.mpr ⟨hleft, hright⟩⟩
        · exact .inr ⟨path, hpath.behind hleft, by rw [eval, hv, herror]⟩
      -- the error of the left operand is that of the whole
      · exact .inr ⟨path, hpath.append _, by rw [eval, herror]⟩

/-- What has a value under the strict policy has the same one under any other. -/
theorem eval_withPolicy_of_strict {e : Expr} {v : Value}
    (h : e.eval (c.withPolicy .strict) = .ok v) (policy : UndefinedPolicy) :
    e.eval (c.withPolicy policy) = .ok v := by
  rcases eval_cases_of_strict (c := c.withPolicy .strict) rfl e with ⟨-, hall⟩ | ⟨_, -, herror⟩
  · refine (eval_congr fun path hpath => ?_).trans h
    obtain ⟨w, hw⟩ := Option.ne_none_iff_exists'.mp (hall path hpath)
    exact (Context.lookup_of_resolve? (c := c.withPolicy policy) hw).trans
      (Context.lookup_of_resolve? hw).symm
  · rw [h] at herror
    cases herror

/-- **`e.FollowsPolicy c`** — how the value of the expression depends on the context `c` and on what
the context makes of missing variables. -/
structure FollowsPolicy (e : Expr) (c : Context) : Prop where
  /-- Under the strict policy an expression fails exactly when a reference has no value. -/
  strict_fails_iff : c.policy = .strict →
    ((∃ err, e.eval c = .error err) ↔ ∃ path ∈ e.references, c.resolve? path = none)
  /-- The error names the first such reference. -/
  strict_names_first : c.policy = .strict → ∀ err, e.eval c = .error err →
    ∃ path, FirstMissing c e.references path ∧ err = .unresolvedVariable path
  /-- Under the lenient policy an expression never fails. -/
  lenient_succeeds : c.policy = .lenient → ∃ v, e.eval c = .ok v
  /-- A value under the strict policy is also the value under the lenient one. -/
  lenient_of_strict : ∀ v, e.eval (c.withPolicy .strict) = .ok v →
    e.eval (c.withPolicy .lenient) = .ok v
  /-- Of the context nothing counts but the policy and the values of the references. -/
  reads_references : ∀ c' : Context, c'.policy = c.policy →
    (∀ path ∈ e.references, c'.resolve? path = c.resolve? path) → e.eval c' = e.eval c
  /-- Strings and literal text read nothing at all, not even the policy. -/
  literals_read_nothing : (∀ t ∈ e.leaves, t.kind ≠ .word) →
    ∀ c' : Context, e.eval c' = e.eval c

/-- **Evaluation follows the policy of the context.** -/
theorem followsPolicy (e : Expr) (c : Context) : e.FollowsPolicy c where
  strict_fails_iff hc := by
    rcases eval_cases_of_strict hc e with ⟨⟨v, hv⟩, hall⟩ | ⟨path, hpath, herror⟩
    · constructor
      · rintro ⟨err, herr⟩
        rw [hv] at herr
        cases herr
      · rintro ⟨path, hmem, hmissing⟩
        exact absurd hmissing (hall path hmem)
    · exact ⟨fun _ => ⟨path, hpath.mem, hpath.missing⟩, fun _ => ⟨_, herror⟩⟩
  strict_names_first hc err herr := by
    rcases eval_cases_of_strict hc e with ⟨⟨v, hv⟩, -⟩ | ⟨path, hpath, herror⟩
    · rw [hv] at herr
      cases herr
    · rw [herror] at herr
      cases herr
      exact ⟨path, hpath, rfl⟩
  lenient_succeeds hc := exists_eval_of_lenient hc e
  lenient_of_strict _ h := eval_withPolicy_of_strict h .lenient
  reads_references _ hpolicy h :=
    eval_congr fun path hpath => Context.lookup_congr hpolicy (h path hpath)
  literals_read_nothing h c' := by
    refine eval_congr fun path hpath => ?_
    rw [references_of_no_word h] at hpath
    cases hpath

/-- The expression `price * data.rate > 'free'`, with two references. -/
def rateExpr : Expr :=
  .binary .greater
    (.binary .multiply (.leaf ⟨.word, "price", 0⟩) (.leaf ⟨.word, "data.rate", 0⟩))
    (.leaf ⟨.quoted, "free", 0⟩)

/-- A strict context that has the price and the data, but no rate in them. It also has a variable
named `free`, which the quoted text does not read. -/
def rateContext : Context :=
  (Context.ofPairs [("data", .map []), ("free", .null), ("price", .number 2)]).withPolicy .strict

/-- The price has a value and the rate has none, so the rate is the error; a lenient reader sees
null in its place. -/
theorem rateExpr_followsPolicy :
    rateContext.policy = .strict ∧ rateExpr.references = ["price", "data.rate"] ∧
      (∃ path ∈ rateExpr.references, rateContext.resolve? path = none) ∧
      (∃ err, rateExpr.eval rateContext = .error err) ∧
      ∃ v, rateExpr.eval (rateContext.withPolicy .lenient) = .ok v := by
  have hrefs : rateExpr.references = ["price", "data.rate"] := by decide +kernel
  have hmissing : ∃ path ∈ rateExpr.references, rateContext.resolve? path = none := by
    rw [hrefs]
    exact ⟨"data.rate", by decide, by decide +kernel⟩
  exact ⟨rfl, hrefs, hmissing,
    ((followsPolicy rateExpr rateContext).strict_fails_iff rfl).mpr hmissing,
    (followsPolicy rateExpr (rateContext.withPolicy .lenient)).lenient_succeeds rfl⟩

end Expr

end TemplateLang

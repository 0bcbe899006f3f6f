import TemplateLang.Proofs.NotANumber
import TemplateLang.Proofs.References

/-!
# TemplateLang.Proofs.Coercion — strings as operands, coerced or not

A quoted literal is coerced where it stands, while a variable that is bound to the same string keeps
it: the operators alone ask it for its number. Main statement (`Operator.apply_readsAs`): to an
operator the two are the same, with one exception. A comparison of two strings of which exactly one
is a numeral goes by their texts, and once the numeral has been coerced it is a comparison of a
number with `nan`, which is false.

An operand enters an operator by its number, which coercing does not change (`operand_of_readsAs`),
and, where two strings are compared, by its text. So all that has to be known of a comparison is
whether it goes by numbers (`isGreater_of_comparesNumbers`).
-/

namespace TemplateLang

/-! ## Coerced operands -/

namespace Value

/-- The value that a literal with the text of a string would have; other values as they are. -/
def coerced : Value → Value
  | .string s => ofText s
  | v => v

/-- **`v.ReadsAs w`** — `w` is the value `v`, coerced or as it is. -/
def ReadsAs (v w : Value) : Prop :=
  w = v ∨ w = v.coerced

/-- **`MixedStrings v w`** — both values are strings, and exactly one is a numeral. -/
def MixedStrings (v w : Value) : Prop :=
  ∃ s t, v = .string s ∧ w = .string t ∧
    (Numeral.numberOf? s).isSome ≠ (Numeral.numberOf? t).isSome

theorem MixedStrings.symm {v w : Value} (h : MixedStrings v w) : MixedStrings w v := by
  obtain ⟨s, t, hv, hw, hmixed⟩ := h
  exact ⟨t, s, hw, hv, Ne.symm hmixed⟩

theorem coerced_of_numeral {s : String} {x : Float} (h : Numeral.numberOf? s = some x) :
    (string s).coerced = .number x := by
  rw [coerced, ofText, h]

theorem coerced_of_not_numeral {s : String} (h : Numeral.numberOf? s = none) :
    (string s).coerced = .string s := by
  rw [coerced, ofText, h]

theorem number?_coerced (v : Value) : v.coerced.number? = v.number? := by
  cases v with
  | string s => exact number?_ofText s
  | null => rfl
  | bool b => rfl
  | number x => rfl
  | array items => rfl
  | map entries => rfl

/-- Coercing makes no strings. -/
theorem eq_string_of_coerced {v : Value} {s : String} (h : v.coerced = .string s) :
    v = .string s := by
  cases v with
  | string t =>
      cases hnumber : Numeral.numberOf? t with
      | some x =>
          rw [coerced_of_numeral hnumber] at h
          cases h
      | none => rwa [coerced_of_not_numeral hnumber] at h
  | null => exact h
  | bool b => exact h
  | number x => exact h
  | array items => exact h
  | map entries => exact h

theorem ReadsAs.eq_string {v w : Value} (h : v.ReadsAs w) {s : String} (hw : w = .string s) :
    v = .string s := by
  rcases h with rfl | rfl
  · exact hw
  · exact eq_string_of_coerced hw

end Value

open Value

namespace Operator

variable {a b a' b' : Value}

theorem operand_of_readsAs (h : a.ReadsAs a') : operand a' = operand a := by
  rcases h with rfl | rfl
  · rfl
  · rw [operand, operand, number?_coerced]

theorem operand_of_not_numeral {s : String} (h : Numeral.numberOf? s = none) :
    operand (.string s) = Binary64.nan := by
  simp [operand, number?, h]

/-- A sum or a difference that begins with a string without a number has none. -/
theorem apply_of_not_numeral {op : Operator} (hop : op = add ∨ op = subtract) {s : String}
    (h : Numeral.numberOf? s = none) (v : Value) :
    op.apply (.string s) v = .number Binary64.nan := by
  rcases hop with rfl | rfl
  · rw [apply, operand_of_not_numeral h, Binary64.nan_add]
  · rw [apply, operand_of_not_numeral h, Binary64.nan_sub]

/-! ## Comparing -/

/-- **`ComparesNumbers a b`** — a comparison of the values goes by their numbers: they are not both
strings, or both are numerals. -/
def ComparesNumbers (a b : Value) : Prop :=
  ∀ s t, a = .string s → b = .string t →
    (Numeral.numberOf? s).isSome = true ∧ (Numeral.numberOf? t).isSome = true

theorem isGreater_of_comparesNumbers (h : ComparesNumbers a b) :
    isGreater a b = decide (operand b < operand a) := by
  unfold isGreater
  split
  · next s t =>
      obtain ⟨hs, ht⟩ := h s t rfl rfl
      rw [hs, ht]
      rfl
  · rfl

/-- A number on either side makes it a comparison of numbers. -/
theorem comparesNumbers_number_left (x : Float) (b : Value) : ComparesNumbers (.number x) b := by
  intro s t hs
  cases hs

theorem comparesNumbers_number_right (a : Value) (y : Float) : ComparesNumbers a (.number y) := by
  intro s t _ ht
  cases ht

theorem isGreater_strings {s t : String}
    (h : Numeral.numberOf? s = none ∨ Numeral.numberOf? t = none) :
    isGreater (.string s) (.string t) = Text.before t s := by
  rcases h with h | h <;> simp [isGreater, h]

theorem ComparesNumbers.readsAs (h : ComparesNumbers a b) (ha : a.ReadsAs a')
    (hb : b.ReadsAs b') : ComparesNumbers a' b' := by
  intro s t hs ht
  exact h s t (ha.eq_string hs) (hb.eq_string ht)

/-- Two values that are not mixed strings compare as numbers, or are strings without a number. -/
theorem comparesNumbers_or_strings (h : ¬ MixedStrings a b) :
    ComparesNumbers a b ∨ ∃ s t, a = .string s ∧ b = .string t ∧
      Numeral.numberOf? s = none ∧ Numeral.numberOf? t = none := by
  by_cases hstrings : ∃ s t, a = .string s ∧ b = .string t
  · obtain ⟨s, t, rfl, rfl⟩ := hstrings
    cases hs : Numeral.numberOf? s with
    | none =>
        cases ht : Numeral.numberOf? t with
        | none => exact .inr ⟨s, t, rfl, rfl, hs, ht⟩
        | some y => exact absurd ⟨s, t, rfl, rfl, by simp [hs, ht]⟩ h
    | some x =>
        cases ht : Numeral.numberOf? t with
        | none => exact absurd ⟨s, t, rfl, rfl, by simp [hs, ht]⟩ h
        | some y =>
            left
            intro s' t' hs' ht'
            cases hs'
            cases ht'
            simp [hs, ht]
  · left
    intro s t hs ht
    exact absurd ⟨s, t, hs, ht⟩ hstrings

theorem isGreater_readsAs (h : ¬ MixedStrings a b) (ha : a.ReadsAs a') (hb : b.ReadsAs b') :
    isGreater a' b' = isGreater a b := by
  rcases comparesNumbers_or_strings h with hnumbers | ⟨s, t, rfl, rfl, hs, ht⟩
  · rw [isGreater_of_comparesNumbers hnumbers,
      isGreater_of_comparesNumbers (hnumbers.readsAs ha hb), operand_of_readsAs ha,
      operand_of_readsAs hb]
  · rw [ReadsAs, coerced_of_not_numeral hs, or_self] at ha
    rw [ReadsAs, coerced_of_not_numeral ht, or_self] at hb
    rw [ha, hb]

/-- **The exception**: once the numeral of two mixed strings is coerced, nothing is greater. -/
theorem isGreater_of_mixed (h : MixedStrings a b) (ha : a.ReadsAs a') (hb : b.ReadsAs b') :
    (a' = a ∧ b' = b) ∨ isGreater a' b' = false := by
  obtain ⟨s, t, rfl, rfl, hmixed⟩ := h
  cases hs : Numeral.numberOf? s with
  | some x =>
      have ht : Numeral.numberOf? t = none := by simpa [hs] using hmixed
      rw [ReadsAs, coerced_of_not_numeral ht, or_self] at hb
      subst hb
      rcases ha with rfl | rfl
      · exact .inl ⟨rfl, rfl⟩
      · right
        rw [coerced_of_numeral hs, isGreater_of_comparesNumbers (comparesNumbers_number_left x _),
          operand_of_not_numeral ht]
        exact decide_eq_false (Binary64.not_nan_lt _)
  | none =>
      rw [ReadsAs, coerced_of_not_numeral hs, or_self] at ha
      subst ha
      rcases hb with rfl | rfl
      · exact .inl ⟨rfl, rfl⟩
      · right
        cases ht : Numeral.numberOf? t with
        | none => simp [hs, ht] at hmixed
        | some y =>
            rw [coerced_of_numeral ht,
              isGreater_of_comparesNumbers (comparesNumbers_number_right _ y),
              operand_of_not_numeral hs]
            exact decide_eq_false (Binary64.not_lt_nan _)

/-- **`op.ComparesMixed a b`** — the operator compares two strings of which exactly one is a
numeral. -/
def ComparesMixed (op : Operator) (a b : Value) : Prop :=
  op = .greater ∧ MixedStrings a b

/-- An operator gives the same value to operands that are coerced or not, unless it compares mixed
strings. -/
theorem apply_eq_of_readsAs {op : Operator} (h : ¬ op.ComparesMixed a b) (ha : a.ReadsAs a')
    (hb : b.ReadsAs b') : op.apply a' b' = op.apply a b := by
  have hleft := operand_of_readsAs ha
  have hright := operand_of_readsAs hb
  cases op with
  | greater =>
      have hmixed : ¬ MixedStrings a b := fun hm => h ⟨rfl, hm⟩
      exact congrArg Value.bool (isGreater_readsAs hmixed ha hb)
  | add => rw [apply, apply, hleft, hright]
  | subtract => rw [apply, apply, hleft, hright]
  | multiply => rw [apply, apply, hleft, hright]
  | divide => rw [apply, apply, hleft, hright]

end Operator

/-! ## Literals and variables -/

/-- A quoted literal has the value of its text, coerced. -/
theorem Expr.eval_quoted {q : Token} (hq : q.kind = .quoted) (c : Context) :
    (leaf q).eval c = .ok (Value.string q.text).coerced := by
  rw [eval, Token.meaning, hq]
  rfl

/-- A variable has the value that it is bound to. -/
theorem Expr.eval_reference {w : Token} {path : String} {v : Value} {c : Context}
    (hw : w.reference? = some path) (hpath : c.resolve? path = some v) :
    (leaf w).eval c = .ok v := by
  rcases w.meaning_cases with ⟨found, href, hmeaning⟩ | ⟨hnone, -⟩
  · rw [hw] at href
    cases href
    rw [eval, hmeaning]
    exact Context.lookup_of_resolve? hpath
  · rw [hw] at hnone
    cases hnone

/-- **An operator takes a numeral in a string for the number that it spells**, on either side or on
both, unless it compares two strings of which one is a numeral and the other is not. Those compare
by their texts, and once the numeral is coerced neither is greater. With the same exception it does
not matter whether an operand is a quoted literal or a variable that is bound to its text. -/
theorem Operator.apply_readsAs :
    (∀ (op : Operator) (a b a' b' : Value), a.ReadsAs a' → b.ReadsAs b' →
      ¬ op.ComparesMixed a b → op.apply a' b' = op.apply a b) ∧
    (∀ s t : String, MixedStrings (.string s) (.string t) →
      greater.apply (.string s) (.string t) = .bool (Text.before t s) ∧
      ∀ a' b' : Value, (Value.string s).ReadsAs a' → (Value.string t).ReadsAs b' →
        (a' = .string s ∧ b' = .string t) ∨ greater.apply a' b' = .bool false) ∧
    (∀ (c : Context) (literal word : Token) (path : String), literal.kind = .quoted →
      word.reference? = some path → c.resolve? path = some (.string literal.text) →
      ∀ (op : Operator) (e : Expr),
        (∀ v, e.eval c = .ok v → ¬ op.ComparesMixed (.string literal.text) v) →
          (Expr.binary op (.leaf word) e).eval c = (Expr.binary op (.leaf literal) e).eval c ∧
          (Expr.binary op e (.leaf word)).eval c = (Expr.binary op e (.leaf literal)).eval c) := by
  refine ⟨fun op a b a' b' ha hb h => apply_eq_of_readsAs h ha hb, ?_, ?_⟩
  · intro s t hmixed
    constructor
    · obtain ⟨_, _, ⟨⟩, ⟨⟩, hne⟩ := hmixed
      refine congrArg Value.bool (isGreater_strings ?_)
      cases hs : Numeral.numberOf? s with
      | none => exact .inl rfl
      | some x => exact .inr (by simpa [hs] using hne)
    · intro a' b' ha hb
      exact (isGreater_of_mixed hmixed ha hb).imp_right (congrArg Value.bool)
  · intro c literal word path hliteral hword hpath op e hexcept
    have hcoerced := Expr.eval_quoted hliteral c
    have hbound := Expr.eval_reference hword hpath
    simp only [Expr.eval] at hcoerced hbound ⊢
    rw [hcoerced, hbound]
    cases he : e.eval c with
    | error err => exact ⟨rfl, rfl⟩
    | ok v =>
        have hv := hexcept v he
        have hswapped : ¬ op.ComparesMixed v (.string literal.text) :=
          fun h => hv ⟨h.1, h.2.symm⟩
        have hself : v.ReadsAs v := .inl rfl
        have hread : (Value.string literal.text).ReadsAs (Value.string literal.text).coerced :=
          .inr rfl
        exact ⟨congrArg Except.ok (apply_eq_of_readsAs hv hread hself).symm,
          congrArg Except.ok (apply_eq_of_readsAs hswapped hself hread).symm⟩

/-- A context in which `x` is the string that the quoted literal `'10'` holds. -/
def tenContext : Context :=
  Context.ofPairs [("x", .string "10")]

/-- `'10' > '9'` and `x > '9'` are the same comparison of numbers; of `'5'` and `'!'` the first is
greater as a text, and neither is once the five has become a number. -/
theorem tenContext_readsAs :
    tenContext.resolve? "x" = some (.string "10") ∧
      (Expr.binary .greater (.leaf ⟨.word, "x", 0⟩) (.leaf ⟨.quoted, "9", 0⟩)).eval tenContext =
        (Expr.binary .greater (.leaf ⟨.quoted, "10", 0⟩) (.leaf ⟨.quoted, "9", 0⟩)).eval
          tenContext ∧
      Operator.greater.apply (.string "5") (.string "!") = .bool (Text.before "!" "5") ∧
      Operator.greater.apply (Value.string "5").coerced (.string "!") = .bool false := by
  have hx : tenContext.resolve? "x" = some (.string "10") := rfl
  have hword : Token.reference? ⟨.word, "x", 0⟩ = some "x" := by decide +kernel
  have hnumbers : ∀ v, (Expr.leaf ⟨.quoted, "9", 0⟩).eval tenContext = .ok v →
      ¬ Operator.greater.ComparesMixed (.string "10") v := by
    rintro v hv ⟨-, s, t, -, rfl, -⟩
    cases hv
  have hmixed : MixedStrings (.string "5") (.string "!") := ⟨_, _, rfl, rfl, by decide +kernel⟩
  obtain ⟨-, hexception, hliteral⟩ := Operator.apply_readsAs
  obtain ⟨htexts, hcoerced⟩ := hexception "5" "!" hmixed
  exact ⟨hx, (hliteral tenContext ⟨.quoted, "10", 0⟩ _ "x" rfl hword hx .greater _ hnumbers).1,
    htexts, (hcoerced _ _ (.inr rfl) (.inl rfl)).resolve_left fun h => nomatch h.1⟩

/-- The text `5` is greater than the text `!`, but the number is not, so coercing an operand can
change a comparison. -/
theorem not_every_operator_reads_as :
    ¬ ∀ (op : Operator) (a b a' b' : Value), a.ReadsAs a' → b.ReadsAs b' →
      op.apply a' b' = op.apply a b := by
  intro h
  have hsame := h .greater (.string "5") (.string "!") _ _ (.inr rfl) (.inl rfl)
  have hmixed : MixedStrings (.string "5") (.string "!") := ⟨_, _, rfl, rfl, by decide +kernel⟩
  rcases Operator.isGreater_of_mixed hmixed (.inr rfl) (.inl rfl) with ⟨hkept, -⟩ | hfalse
  · cases hkept
  · rw [Operator.apply, Operator.apply, hfalse] at hsame
    have htexts : Operator.isGreater (.string "5") (.string "!") = true :=
      (Operator.isGreater_strings (.inr (by decide +kernel))).trans (by decide)
    rw [htexts] at hsame
    cases hsame

end TemplateLang

import TemplateLang.Proofs.Depth.Limit
import TemplateLang.Proofs.Tokens

/-!
# TemplateLang.Proofs.Grammar.Phrase — the grammar of expressions

Expressions are read by a loop: a primary, then operators as long as they bind tightly enough, each
with an operand of the next higher precedence. What the loop accepts is said here without it, by a
stratified grammar with one nonterminal for each level of precedence:

    comparison ::= comparison ">" sum | sum
    sum        ::= sum ("+" | "-") product | product
    product    ::= product ("*" | "/") primary | primary
    primary    ::= word | string | text | "(" comparison ")" | output opener, primary

The rules are left-recursive, so operators of one level group to the left; groups and openers leave
no node. Main statement (`sound`): what is read derives the tree that comes of it, and no operator
that could go on with it follows.

The proof is an induction on the levels. A tail carries what has been derived so far together with
the level `m` it was derived from, and the invariant that no operator tighter than `m` comes next.
-/

namespace TemplateLang

theorem Operator.ofSymbol?_eq_some_iff {s : String} {op : Operator} :
    ofSymbol? s = some op ↔ s = op.symbol := by
  constructor
  · intro h
    have hs := List.find?_some h
    exact (beq_iff_eq.mp hs).symm
  · rintro rfl
    exact ofSymbol?_symbol op

namespace Token

/-- A token writes an operator when it is an operator token with the operator's symbol. -/
theorem operator?_eq_some_iff {t : Token} {op : Operator} :
    t.operator? = some op ↔ t.Is .operator op.symbol := by
  unfold operator?
  split
  · next hkind =>
      rw [Operator.ofSymbol?_eq_some_iff]
      exact ⟨fun h => ⟨hkind, h⟩, fun h => h.2⟩
  · next hkind =>
      constructor
      · intro h
        cases h
      · intro h
        exact absurd h.1 hkind

end Token

namespace Expr

open TokenReader

/-! ## The grammar -/

/-- The nonterminals of the expression grammar. -/
inductive Phrase where
  | comparison
  | sum
  | product
  | primary

/-- The nonterminal of the expressions whose operators have this precedence or more. -/
def Phrase.ofPrecedence : Nat → Phrase
  | 0 => .comparison
  | 1 => .sum
  | 2 => .product
  | _ => .primary

/-- The precedence of a nonterminal's own operators; above all of them for a primary. -/
def Phrase.precedence : Phrase → Nat
  | .comparison => 0
  | .sum => 1
  | .product => 2
  | .primary => 3

theorem Phrase.le_precedence_ofPrecedence (p : Nat) :
    p ≤ (ofPrecedence p).precedence ∨ ofPrecedence p = .primary := by
  rcases p with _ | _ | _ | p
  · exact Or.inl (Nat.le_refl 0)
  · exact Or.inl (Nat.le_refl 1)
  · exact Or.inl (Nat.le_refl 2)
  · exact Or.inr rfl

/-- **`Derives phrase tokens e`** — the tokens are derived from the nonterminal, and the derivation
builds the tree `e`. -/
inductive Derives : Phrase → List Token → Expr → Prop
  | greater {ls rs : List Token} {o : Token} {l r : Expr} :
      Derives .comparison ls l → o.Is .operator ">" → Derives .sum rs r →
        Derives .comparison (ls ++ o :: rs) (.binary .greater l r)
  | ofSum {ts : List Token} {e : Expr} : Derives .sum ts e → Derives .comparison ts e
  | add {ls rs : List Token} {o : Token} {l r : Expr} :
      Derives .sum ls l → o.Is .operator "+" → Derives .product rs r →
        Derives .sum (ls ++ o :: rs) (.binary .add l r)
  | subtract {ls rs : List Token} {o : Token} {l r : Expr} :
      Derives .sum ls l → o.Is .operator "-" → Derives .product rs r →
        Derives .sum (ls ++ o :: rs) (.binary .subtract l r)
  | ofProduct {ts : List Token} {e : Expr} : Derives .product ts e → Derives .sum ts e
  | multiply {ls rs : List Token} {o : Token} {l r : Expr} :
      Derives .product ls l → o.Is .operator "*" → Derives .primary rs r →
        Derives .product (ls ++ o :: rs) (.binary .multiply l r)
  | divide {ls rs : List Token} {o : Token} {l r : Expr} :
      Derives .product ls l → o.Is .operator "/" → Derives .primary rs r →
        Derives .product (ls ++ o :: rs) (.binary .divide l r)
  | ofPrimary {ts : List Token} {e : Expr} : Derives .primary ts e → Derives .product ts e
  | leaf {t : Token} (h : t.kind = .word ∨ t.kind = .quoted ∨ t.kind = .text) :
      Derives .primary [t] (.leaf t)
  | group {o c : Token} {ts : List Token} {e : Expr} :
      o.Is .operator "(" → Derives .comparison ts e → c.Is .operator ")" →
        Derives .primary (o :: ts ++ [c]) e
  | opener {o : Token} {ts : List Token} {e : Expr} :
      o.Is .delimiter "\x7b\x7b" → Derives .primary ts e → Derives .primary (o :: ts) e

/-- The rule of an operator, whichever it is. -/
theorem Derives.binary {op : Operator} {ls rs : List Token} {o : Token} {l r : Expr}
    (hl : Derives (.ofPrecedence op.precedence) ls l) (ho : o.Is .operator op.symbol)
    (hr : Derives (.ofPrecedence (op.precedence + 1)) rs r) :
    Derives (.ofPrecedence op.precedence) (ls ++ o :: rs) (.binary op l r) := by
  cases op with
  | greater => exact .greater hl ho hr
  | add => exact .add hl ho hr
  | subtract => exact .subtract hl ho hr
  | multiply => exact .multiply hl ho hr
  | divide => exact .divide hl ho hr

theorem Derives.of_primary {ts : List Token} {e : Expr} (h : Derives .primary ts e) :
    ∀ p, Derives (.ofPrecedence p) ts e
  | 0 => .ofSum (.ofProduct (.ofPrimary h))
  | 1 => .ofProduct (.ofPrimary h)
  | 2 => .ofPrimary h
  | _ + 3 => h

/-- What binds tightly also counts where looser operators are allowed. -/
theorem Derives.loosen {ts : List Token} {e : Expr} {m p : Nat} (hle : p ≤ m)
    (h : Derives (.ofPrecedence m) ts e) : Derives (.ofPrecedence p) ts e := by
  induction hle with
  | refl => exact h
  | @step m hle ih =>
      apply ih
      rcases m with _ | _ | _ | m
      · exact .ofSum h
      · exact .ofProduct h
      · exact .ofPrimary h
      · exact h

/-! ## Where an expression stops -/

/-- **`Stops p rest`** — no operator of precedence `p` or more stands in front. -/
def Stops (p : Nat) (rest : List Token) : Prop :=
  ∀ t ∈ rest.head?, ∀ op : Operator, t.Is .operator op.symbol → op.precedence < p

theorem Stops.mono {p q : Nat} {rest : List Token} (h : Stops p rest) (hle : p ≤ q) :
    Stops q rest :=
  fun t ht op ho => Nat.lt_of_lt_of_le (h t ht op ho) hle

theorem precedence_lt_three (op : Operator) : op.precedence < 3 := by
  cases op <;> decide

/-- Nothing binds tighter than a product. -/
theorem stops_of_three_le {p : Nat} (h : 3 ≤ p) (rest : List Token) : Stops p rest :=
  fun _ _ op _ => Nat.lt_of_lt_of_le (precedence_lt_three op) h

/-- Two operators with one symbol are one operator. -/
theorem operator_unique {t : Token} {op op' : Operator} (h : t.Is .operator op.symbol)
    (h' : t.Is .operator op'.symbol) : op = op' := by
  have heq := (Token.operator?_eq_some_iff.mpr h).symm.trans (Token.operator?_eq_some_iff.mpr h')
  exact Option.some.inj heq

theorem stops_cons_iff {t : Token} {op : Operator} {p : Nat} {rest : List Token}
    (h : t.Is .operator op.symbol) : Stops p (t :: rest) ↔ op.precedence < p := by
  constructor
  · intro hs
    exact hs t rfl op h
  · intro hlt t' ht' op' h'
    obtain rfl : t = t' := by simpa using ht'
    rw [← operator_unique h h']
    exact hlt

/-- A token with another text than the symbols stops every expression. -/
theorem stops_of_ne_symbol {t : Token} {kind : TokenKind} {text : String} (h : t.Is kind text)
    (hne : kind ≠ .operator ∨ ∀ op : Operator, op ∈ Operator.all → text ≠ op.symbol) {p : Nat}
    {rest : List Token} : Stops p (t :: rest) := by
  intro t' ht' op ho
  obtain rfl : t = t' := by simpa using ht'
  rcases hne with hkind | htext
  · exact absurd (h.1.symm.trans ho.1) hkind
  · refine absurd (h.2.symm.trans ho.2) (htext op ?_)
    cases op <;> decide

/-- The next token is taken exactly if it is an operator that binds tightly enough. -/
theorem takeOperator?_cases (p : Nat) (tokens : List Token) :
    (Stops p tokens ∧ takeOperator? p tokens = .accepted none tokens) ∨
      ∃ op t rest, tokens = t :: rest ∧ t.Is .operator op.symbol ∧ p ≤ op.precedence ∧
        takeOperator? p tokens = .accepted (some (op, t)) rest := by
  cases tokens with
  | nil => exact Or.inl ⟨fun t ht => by simp at ht, rfl⟩
  | cons t rest =>
      cases ho : t.operator? with
      | none =>
          refine Or.inl ⟨?_, by simp only [takeOperator?, ho]⟩
          intro t' ht' op h'
          obtain rfl : t = t' := by simpa using ht'
          rw [Token.operator?_eq_some_iff.mpr h'] at ho
          cases ho
      | some op =>
          have hop := Token.operator?_eq_some_iff.mp ho
          by_cases hp : op.precedence < p
          · refine Or.inl ⟨(stops_cons_iff hop).mpr hp, ?_⟩
            simp only [takeOperator?, ho, if_pos hp]
          · refine Or.inr ⟨op, t, rest, rfl, hop, Nat.le_of_not_lt hp, ?_⟩
            simp only [takeOperator?, ho, if_neg hp]

theorem readTail_of_stops {levels p : Nat} {left : Expr} {tokens : List Token}
    (h : Stops p tokens) : readTail levels p left tokens = .accepted left tokens := by
  rw [readTail_apply]
  rcases takeOperator?_cases p tokens with ⟨_, ht⟩ | ⟨op, t, rest, rfl, hop, hp, _⟩
  · rw [ht]
    rfl
  · exact absurd ((stops_cons_iff hop).mp h) (Nat.not_lt.mpr hp)

/-- A tail that begins with an operator takes a level, reads the right operand and goes on. -/
theorem readTail_operator {levels p : Nat} {left : Expr} {t : Token} {rest : List Token}
    {op : Operator} (hop : t.Is .operator op.symbol) (hp : p ≤ op.precedence) :
    readTail levels p left (t :: rest) =
      match levels with
      | 0 => .refused (.tooDeep t) rest
      | inner + 1 =>
          (read inner (op.precedence + 1) rest).andThen fun right more =>
            readTail inner p (.binary op left right) more := by
  have ht : takeOperator? p (t :: rest) = .accepted (some (op, t)) rest := by
    simp only [takeOperator?, Token.operator?_eq_some_iff.mpr hop, if_neg (Nat.not_lt.mpr hp)]
  rw [readTail_apply, ht]
  rfl

/-! ## What a primary begins with

A primary is decided by its first token, in a fixed order. The rules of the grammar exclude one
another, so for each of them only its own branch is left. -/

theorem readPrimary_leaf {t : Token} (h : t.kind = .word ∨ t.kind = .quoted ∨ t.kind = .text)
    (levels : Nat) (rest : List Token) :
    readPrimary levels (t :: rest) = .accepted (.leaf t) rest := by
  have hcloser : ¬ t.isCloser = true := by
    rw [Token.isCloser_iff]
    rintro (⟨hk, _⟩ | ⟨hk, _⟩) <;> simp [hk] at h
  have hopener : ¬ t.isDelimiter (Delimiter.opening .output).text = true := by
    rw [Token.isDelimiter_iff]
    rintro ⟨hk, _⟩
    simp [hk] at h
  have hgroup : ¬ t.isExactly .operator "(" = true := by
    rw [Token.isExactly_iff]
    rintro ⟨hk, _⟩
    simp [hk] at h
  rw [readPrimary_cons, if_neg hcloser, if_neg hopener, if_neg hgroup,
    if_pos (Token.isOperand_iff.mpr h)]

theorem readPrimary_opener {o : Token} (h : o.Is .delimiter "\x7b\x7b") (levels : Nat)
    (rest : List Token) :
    readPrimary levels (o :: rest) =
      match levels with
      | 0 => .refused (.tooDeep o) rest
      | inner + 1 => readPrimary inner rest := by
  have hcloser : ¬ o.isCloser = true := by
    rw [Token.isCloser_iff]
    rintro (⟨_, ht⟩ | ⟨_, ht⟩) <;> simp [h.2] at ht
  have hopener : o.isDelimiter (Delimiter.opening .output).text = true :=
    Token.isDelimiter_iff.mpr h
  rewrite [readPrimary_cons, if_neg hcloser, if_pos hopener]
  cases levels <;> rfl

theorem readPrimary_group {o : Token} (h : o.Is .operator "(") (levels : Nat)
    (rest : List Token) :
    readPrimary levels (o :: rest) =
      match levels with
      | 0 => .refused (.tooDeep o) rest
      | inner + 1 =>
          (read inner 0 rest).andThen fun grouped left =>
            (expectGroupEnd left).andThen fun _ left => .accepted grouped left := by
  have hcloser : ¬ o.isCloser = true := by
    rw [Token.isCloser_iff]
    rintro (⟨hk, _⟩ | ⟨hk, _⟩) <;> simp [h.1] at hk
  have hopener : ¬ o.isDelimiter (Delimiter.opening .output).text = true := by
    rw [Token.isDelimiter_iff]
    rintro ⟨hk, _⟩
    simp [h.1] at hk
  rewrite [readPrimary_cons, if_neg hcloser, if_neg hopener, if_pos (Token.isExactly_iff.mpr h)]
  cases levels <;> rfl

/-! ## What is read is derived -/

/-- The parenthesis that closes a group is taken and nothing else is. -/
theorem expectGroupEnd_eq_accepted {tokens rest : List Token}
    (h : expectGroupEnd tokens = .accepted () rest) :
    ∃ c, c.Is .operator ")" ∧ tokens = c :: rest := by
  cases tokens with
  | nil => cases h
  | cons c left =>
      unfold expectGroupEnd at h
      simp only [bind_apply, next?_cons, Outcome.andThen_accepted] at h
      split at h
      · next hc =>
          cases h
          exact ⟨c, Token.isExactly_iff.mp hc, rfl⟩
      · cases h

theorem expectGroupEnd_cons {c : Token} (h : c.Is .operator ")") (rest : List Token) :
    expectGroupEnd (c :: rest) = .accepted () rest := by
  unfold expectGroupEnd
  simp only [bind_apply, next?_cons, Outcome.andThen_accepted, Token.isExactly_iff.mpr h, if_true,
    pure_apply]

/-- What the readers of a primary and of a tail accept at some number of levels. The tokens that a
tail starts behind derive its left operand from the nonterminal of `m`, and nothing tighter than `m`
comes next; so the operator it takes first, and every later one, may stand above that operand. -/
structure Sound (levels : Nat) : Prop where
  primary : ∀ {tokens e rest}, readPrimary levels tokens = .accepted e rest →
    ∃ used, tokens = used ++ rest ∧ Derives .primary used e
  tail : ∀ {p m left begun tokens e rest}, p ≤ m → Derives (.ofPrecedence m) begun left →
    Stops (m + 1) tokens → readTail levels p left tokens = .accepted e rest →
      ∃ used, tokens = used ++ rest ∧ Derives (.ofPrecedence p) (begun ++ used) e ∧ Stops p rest

theorem Sound.read {levels p : Nat} {tokens rest : List Token} {e : Expr} (hs : Sound levels)
    (h : read levels p tokens = .accepted e rest) :
    ∃ used, tokens = used ++ rest ∧ Derives (.ofPrecedence p) used e ∧ Stops p rest := by
  obtain ⟨first, left, hfirst, htail⟩ := Outcome.andThen_eq_accepted_iff.mp h
  obtain ⟨begun, rfl, hbegun⟩ := hs.primary hfirst
  -- a primary counts as derived from every level, so take one above all operators
  have hm : p ≤ max p 3 := Nat.le_max_left p 3
  obtain ⟨used, rfl, hused, hstops⟩ := hs.tail hm (hbegun.of_primary _)
    (stops_of_three_le (by omega) left) htail
  exact ⟨begun ++ used, (List.append_assoc _ _ _).symm, hused, hstops⟩

theorem sound_primary_of_inner {levels : Nat} (ih : ∀ inner, levels = inner + 1 → Sound inner)
    {tokens rest : List Token} {e : Expr} (h : readPrimary levels tokens = .accepted e rest) :
    ∃ used, tokens = used ++ rest ∧ Derives .primary used e := by
  cases tokens with
  | nil =>
      rw [readPrimary_nil] at h
      cases h
  | cons t left =>
      rw [readPrimary_cons] at h
      split at h
      · cases h
      · split at h
        -- an output opener
        · next hopen =>
            cases levels with
            | zero => cases h
            | succ inner =>
                obtain ⟨used, rfl, hused⟩ := (ih inner rfl).primary h
                exact ⟨t :: used, rfl, .opener (Token.isDelimiter_iff.mp hopen) hused⟩
        · split at h
          -- a group
          · next hopen =>
              cases levels with
              | zero => cases h
              | succ inner =>
                  obtain ⟨grouped, more, hread, hclose⟩ := Outcome.andThen_eq_accepted_iff.mp h
                  obtain ⟨_, _, hend, hacc⟩ := Outcome.andThen_eq_accepted_iff.mp hclose
                  cases hacc
                  obtain ⟨used, rfl, hused, _⟩ := (ih inner rfl).read hread
                  obtain ⟨c, hc, rfl⟩ := expectGroupEnd_eq_accepted hend
                  refine ⟨t :: used ++ [c], by simp, ?_⟩
                  exact .group (Token.isExactly_iff.mp hopen) hused hc
          · split at h
            · next hoperand =>
                cases h
                exact ⟨[t], rfl, .leaf (Token.isOperand_iff.mp hoperand)⟩
            · cases h

theorem sound_tail_of_inner {levels : Nat} (ih : ∀ inner, levels = inner + 1 → Sound inner)
    {p m : Nat} {left : Expr} {begun tokens rest : List Token} {e : Expr} (hpm : p ≤ m)
    (hbegun : Derives (.ofPrecedence m) begun left) (hstops : Stops (m + 1) tokens)
    (h : readTail levels p left tokens = .accepted e rest) :
    ∃ used, tokens = used ++ rest ∧ Derives (.ofPrecedence p) (begun ++ used) e ∧
      Stops p rest := by
  rcases takeOperator?_cases p tokens with ⟨hp, _⟩ | ⟨op, t, more, rfl, hop, hp, _⟩
  · rw [readTail_of_stops hp] at h
    cases h
    exact ⟨[], rfl, by simpa using hbegun.loosen hpm, hp⟩
  · have hopm : op.precedence < m + 1 := (stops_cons_iff hop).mp hstops
    rw [readTail_operator hop hp] at h
    cases levels with
    | zero => cases h
    | succ inner =>
        obtain ⟨right, after, hright, htail⟩ := Outcome.andThen_eq_accepted_iff.mp h
        obtain ⟨operand, rfl, hoperand, hafter⟩ := (ih inner rfl).read hright
        have hnode : Derives (.ofPrecedence op.precedence) (begun ++ t :: operand)
            (.binary op left right) :=
          (hbegun.loosen (Nat.le_of_lt_succ hopm)).binary hop hoperand
        obtain ⟨used, rfl, hused, hrest⟩ := (ih inner rfl).tail hp hnode hafter htail
        exact ⟨t :: operand ++ used, by simp, by simpa using hused, hrest⟩

/-- Whatever the levels, what is accepted is derived. -/
theorem sound (levels : Nat) : Sound levels := by
  induction levels with
  | zero =>
      have ih : ∀ inner, 0 = inner + 1 → Sound inner := nofun
      exact ⟨sound_primary_of_inner ih, sound_tail_of_inner ih⟩
  | succ inner hinner =>
      have ih : ∀ i, inner + 1 = i + 1 → Sound i := by
        intro i hi
        cases hi
        exact hinner
      exact ⟨sound_primary_of_inner ih, sound_tail_of_inner ih⟩

end Expr

end TemplateLang

import TemplateLang.Proofs.Grammar.Expression
import TemplateLang.Proofs.Printing

/-!
# TemplateLang.Proofs.Grammar.Parentheses — parentheses only where they are needed

Operators group to the left and bind by precedence, so most operands need no parentheses of their
own: a left operand needs them if its top operator binds looser than the one above it, a right
operand also if it binds equally. `Expr.tokens` writes an expression in this way. Main statement
(`derivesAnywhere_tokens`): the tokens derive the expression from the nonterminal of its top
operator, wherever they are placed.

The grammar takes an output opener for a part of the primary behind it, and an expression in a block
begins with its leftmost leaf or parenthesis. So the opener of a block belongs to the expression
that it opens, however the expression goes on (`Derives.behind_opener`).
-/

namespace TemplateLang

namespace Expr

/-! ## The tokens of an expression -/

/-- How tightly the top of an expression binds; nothing takes a leaf apart. -/
def precedence : Expr → Nat
  | .leaf _ => Phrase.primary.precedence
  | .binary op _ _ => op.precedence

/-- The tokens of an operand, in parentheses if it needs them. -/
def grouped (needed : Bool) (tokens : List Token) : List Token :=
  if needed then ⟨.operator, "(", 0⟩ :: tokens ++ [⟨.operator, ")", 0⟩] else tokens

/-- The tokens that write an expression with parentheses only where they are needed. -/
def tokens : Expr → List Token
  | .leaf t => [t]
  | .binary op left right =>
      grouped (decide (left.precedence < op.precedence)) left.tokens ++
        ⟨.operator, op.symbol, 0⟩ ::
          grouped (decide (right.precedence ≤ op.precedence)) right.tokens

theorem tokens_ne_nil : ∀ e : Expr, e.tokens ≠ []
  | .leaf _ => nofun
  | .binary _ _ _ => List.append_ne_nil_of_right_ne_nil _ nofun

/-- What holds of the leaves, of the operators and of the parentheses holds of all tokens. -/
theorem forall_mem_tokens {P : Token → Prop} (hsign : ∀ op : Operator, P ⟨.operator, op.symbol, 0⟩)
    (hopened : P ⟨.operator, "(", 0⟩) (hclosed : P ⟨.operator, ")", 0⟩) {e : Expr}
    (hleaf : ∀ t, (leaf t).Printable → P t) (he : e.Printable) : ∀ t ∈ e.tokens, P t := by
  have hgrouped : ∀ (needed : Bool) (tokens : List Token), (∀ t ∈ tokens, P t) →
      ∀ t ∈ grouped needed tokens, P t := by
    intro needed tokens htokens
    cases needed with
    | false => exact htokens
    | true =>
        intro t ht
        simp only [grouped, if_true, List.cons_append, List.mem_cons, List.mem_append,
          List.not_mem_nil, or_false] at ht
        rcases ht with rfl | ht | rfl
        · exact hopened
        · exact htokens t ht
        · exact hclosed
  induction e with
  | leaf t => exact List.forall_mem_singleton.mpr (hleaf t he)
  | binary op left right ihl ihr =>
      refine List.forall_mem_append.mpr ⟨?_, List.forall_mem_cons.mpr ⟨hsign op, ?_⟩⟩
      · exact hgrouped _ _ (ihl he.1)
      · exact hgrouped _ _ (ihr he.2)

/-! ## Tokens at other places -/

end Expr

theorem Token.is_of_unplaced_eq {t u : Token} (h : t.unplaced = u.unplaced) :
    t.Is u.kind u.text := by
  obtain ⟨hkind, htext, _⟩ := Token.mk.inj h
  exact ⟨hkind, htext⟩

/-- Tokens that are tokens around a middle one, but for their places, can be split there. -/
theorem exists_split_of_unplaced_eq (ls : List Token) (o : Token) (rs : List Token)
    {placed : List Token}
    (h : placed.map Token.unplaced = (ls ++ o :: rs).map Token.unplaced) :
    ∃ ls' o' rs', placed = ls' ++ o' :: rs' ∧ ls'.map Token.unplaced = ls.map Token.unplaced ∧
      o'.Is o.kind o.text ∧ rs'.map Token.unplaced = rs.map Token.unplaced := by
  rw [List.map_append, List.map_cons] at h
  obtain ⟨ls', more, rfl, hls, hmore⟩ := List.map_eq_append_iff.mp h
  obtain ⟨o', rs', rfl, ho, hrs⟩ := List.map_eq_cons_iff.mp hmore
  exact ⟨ls', o', rs', rfl, hls, Token.is_of_unplaced_eq ho, hrs⟩

namespace Expr

/-- **`DerivesAnywhere p ts e`** — wherever the tokens are placed, they derive the expression from
the nonterminal of `p`, up to the places of its tokens. -/
def DerivesAnywhere (p : Nat) (ts : List Token) (e : Expr) : Prop :=
  ∀ placed : List Token, placed.map Token.unplaced = ts.map Token.unplaced →
    ∃ e', Derives (.ofPrecedence p) placed e' ∧ e'.unplaced = e.unplaced

theorem DerivesAnywhere.loosen {p m : Nat} {ts : List Token} {e : Expr}
    (h : DerivesAnywhere m ts e) (hle : p ≤ m) : DerivesAnywhere p ts e := by
  intro placed hplaced
  obtain ⟨e', he', hsame⟩ := h placed hplaced
  exact ⟨e', he'.loosen hle, hsame⟩

theorem DerivesAnywhere.leaf {t : Token} (h : t.kind = .word ∨ t.kind = .quoted ∨ t.kind = .text)
    (p : Nat) : DerivesAnywhere p [t] (leaf t) := by
  intro placed hplaced
  obtain ⟨t', rfl, ht'⟩ := List.map_eq_singleton_iff.mp hplaced
  have hkind : t'.kind = t.kind := (Token.is_of_unplaced_eq ht').1
  refine ⟨.leaf t', (Derives.leaf (hkind ▸ h)).of_primary p, ?_⟩
  rw [unplaced_leaf, unplaced_leaf, ht']

/-- An operand in parentheses may stand anywhere; one without them, where it binds tightly
enough. -/
theorem DerivesAnywhere.grouped {m p : Nat} {ts : List Token} {e : Expr}
    (h : DerivesAnywhere m ts e) {needed : Bool} (hneeded : needed = false → p ≤ m) :
    DerivesAnywhere p (grouped needed ts) e := by
  cases needed with
  | false => exact h.loosen (hneeded rfl)
  | true =>
      intro placed hplaced
      obtain ⟨front, opened, more, rfl, hfront, hopened, hmore⟩ :=
        exists_split_of_unplaced_eq [] _ _ hplaced
      obtain ⟨inner, closed, back, rfl, hinner, hclosed, hback⟩ :=
        exists_split_of_unplaced_eq _ _ [] hmore
      obtain rfl : front = [] := List.map_eq_nil_iff.mp hfront
      obtain rfl : back = [] := List.map_eq_nil_iff.mp hback
      obtain ⟨e', he', hsame⟩ := h inner hinner
      exact ⟨e', (Derives.group hopened (he'.loosen (Nat.zero_le m)) hclosed).of_primary p, hsame⟩

theorem DerivesAnywhere.binary {op : Operator} {ls rs : List Token} {l r : Expr}
    (hl : DerivesAnywhere op.precedence ls l) (hr : DerivesAnywhere (op.precedence + 1) rs r) :
    DerivesAnywhere op.precedence (ls ++ ⟨.operator, op.symbol, 0⟩ :: rs) (.binary op l r) := by
  intro placed hplaced
  obtain ⟨ls', o, rs', rfl, hls, ho, hrs⟩ := exists_split_of_unplaced_eq _ _ _ hplaced
  obtain ⟨l', hl', hlsame⟩ := hl ls' hls
  obtain ⟨r', hr', hrsame⟩ := hr rs' hrs
  refine ⟨.binary op l' r', hl'.binary ho hr', ?_⟩
  rw [unplaced_binary, unplaced_binary, hlsame, hrsame]

/-- **What an expression is written as derives it.** -/
theorem derivesAnywhere_tokens {e : Expr} (h : e.Printable) :
    DerivesAnywhere e.precedence e.tokens e := by
  induction e with
  | leaf t => exact .leaf (h.imp And.left fun hquoted => .inl hquoted.1) _
  | binary op left right ihl ihr =>
      have hleft : DerivesAnywhere op.precedence
          (grouped (decide (left.precedence < op.precedence)) left.tokens) left :=
        (ihl h.1).grouped fun hneeded => Nat.le_of_not_lt (of_decide_eq_false hneeded)
      have hright : DerivesAnywhere (op.precedence + 1)
          (grouped (decide (right.precedence ≤ op.precedence)) right.tokens) right :=
        (ihr h.2).grouped fun hneeded => Nat.lt_of_not_le (of_decide_eq_false hneeded)
      exact hleft.binary hright

/-- Differences group to the left, so of the two groupings one is written in parentheses. -/
example :
    (tokens (.binary .subtract (.leaf ⟨.word, "a", 0⟩)
      (.binary .subtract (.leaf ⟨.word, "b", 0⟩) (.leaf ⟨.word, "c", 0⟩)))).map Token.text =
        ["a", "-", "(", "b", "-", "c", ")"] ∧
    (tokens (.binary .subtract
      (.binary .subtract (.leaf ⟨.word, "a", 0⟩) (.leaf ⟨.word, "b", 0⟩))
        (.leaf ⟨.word, "c", 0⟩))).map Token.text = ["a", "-", "b", "-", "c"] := by
  decide

/-! ## The opener of a block -/

/-- An output opener goes to the first primary of what it opens. -/
theorem Derives.behind_opener {o : Token} (ho : o.Is .delimiter "\x7b\x7b") {phrase : Phrase}
    {ts : List Token} {e : Expr} (h : Derives phrase ts e) : Derives phrase (o :: ts) e := by
  induction h with
  | greater _ hop hr ih _ => exact .greater ih hop hr
  | add _ hop hr ih _ => exact .add ih hop hr
  | subtract _ hop hr ih _ => exact .subtract ih hop hr
  | multiply _ hop hr ih _ => exact .multiply ih hop hr
  | divide _ hop hr ih _ => exact .divide ih hop hr
  | ofSum _ ih => exact .ofSum ih
  | ofProduct _ ih => exact .ofProduct ih
  | ofPrimary _ ih => exact .ofPrimary ih
  | leaf ht => exact .opener ho (.leaf ht)
  | group hopened he hclosed => exact .opener ho (.group hopened he hclosed)
  | opener hinner he => exact .opener ho (.opener hinner he)

end Expr

end TemplateLang

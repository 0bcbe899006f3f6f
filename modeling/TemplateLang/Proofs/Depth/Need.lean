import TemplateLang.Proofs.Grammar.Phrase

/-!
# TemplateLang.Proofs.Depth.Need — how many levels an expression needs

A level is taken in three places, and not given back alike. A group and an output opener hold theirs
while they are read. An operator holds its own until the whole expression is over, so the operators
on the left edge of a tree add up: behind `k` of them a right operand is read with `k` levels less,
and the `k`-th of them asks for one itself. `need` counts this on a derivation, and `spine` the
operators on its left edge.

Main statement (`Derivation.decided_read`): the tokens of a derivation are read as its tree exactly
if there are as many levels as it needs, and otherwise reading refuses for want of one. Every
derived text has a derivation (`nonempty_derivation_iff`), so what is accepted is known to the
level (`read_eq_accepted_iff_need`).
-/

namespace TemplateLang

open TokenReader

namespace Expr

/-! ## Derivations and what they need -/

/-- **`Derivation p tokens e`** — a derivation of the tokens from the nonterminal of the expressions
whose operators have precedence `p` or more, which builds the tree `e`. The rules that lead from one
nonterminal to a tighter one leave no trace in it. -/
inductive Derivation : Nat → List Token → Expr → Type
  | leaf {p : Nat} {t : Token} (ht : t.kind = .word ∨ t.kind = .quoted ∨ t.kind = .text) :
      Derivation p [t] (.leaf t)
  | group {p : Nat} {o c : Token} {ts : List Token} {e : Expr} (ho : o.Is .operator "(")
      (inner : Derivation 0 ts e) (hc : c.Is .operator ")") : Derivation p (o :: ts ++ [c]) e
  | opener {p : Nat} {o : Token} {ts : List Token} {e : Expr} (ho : o.Is .delimiter "\x7b\x7b")
      (inner : Derivation Phrase.primary.precedence ts e) : Derivation p (o :: ts) e
  | binary {p : Nat} {op : Operator} {ls rs : List Token} {o : Token} {l r : Expr}
      (hp : p ≤ op.precedence) (left : Derivation op.precedence ls l)
      (ho : o.Is .operator op.symbol) (right : Derivation (op.precedence + 1) rs r) :
      Derivation p (ls ++ o :: rs) (.binary op l r)

namespace Derivation

variable {p : Nat} {ts : List Token} {e : Expr}

/-- The number of operators down the left edge, outside parentheses. -/
def spine {p : Nat} {ts : List Token} {e : Expr} : Derivation p ts e → Nat
  | .leaf _ => 0
  | .group _ _ _ => 0
  | .opener _ _ => 0
  | .binary _ left _ _ => left.spine + 1

/-- The number of levels that reading needs. -/
def need {p : Nat} {ts : List Token} {e : Expr} : Derivation p ts e → Nat
  | .leaf _ => 0
  | .group _ inner _ => 1 + inner.need
  | .opener _ inner => 1 + inner.need
  | .binary _ left _ right => max left.need (left.spine + 1 + right.need)

/-- Each operator on the left edge holds a level of its own. -/
theorem spine_le_need (d : Derivation p ts e) : d.spine ≤ d.need := by
  cases d with
  | leaf _ => exact Nat.le_refl 0
  | group _ _ _ => exact Nat.zero_le _
  | opener _ _ => exact Nat.zero_le _
  | binary _ left _ right =>
      show left.spine + 1 ≤ max left.need (left.spine + 1 + right.need)
      omega

/-- A derivation needs fewer levels than it has tokens: an operator stands between two operands. -/
theorem need_lt_length (d : Derivation p ts e) : d.need < ts.length := by
  induction d with
  | leaf _ => exact Nat.one_pos
  | @group p o c ts e _ inner _ ih =>
      show 1 + inner.need < (o :: ts ++ [c]).length
      rw [List.length_append, List.length_cons, List.length_singleton]
      omega
  | @opener p o ts e _ inner ih =>
      show 1 + inner.need < (o :: ts).length
      rw [List.length_cons]
      omega
  | @binary p op ls rs o l r _ left _ right ihl ihr =>
      have hspine := left.spine_le_need
      show max left.need (left.spine + 1 + right.need) < (ls ++ o :: rs).length
      rw [List.length_append, List.length_cons]
      omega

/-! ### Derivations and the grammar -/

theorem derives (d : Derivation p ts e) : Derives (.ofPrecedence p) ts e := by
  induction d with
  | leaf ht => exact (Derives.leaf ht).of_primary _
  | group ho _ hc ih => exact (Derives.group ho ih hc).of_primary _
  | opener ho _ ih => exact (Derives.opener ho ih).of_primary _
  | binary hp _ ho _ ihl ihr => exact (ihl.binary ho ihr).loosen hp

/-- What binds tightly also counts where looser operators are allowed. -/
def loosen {p m : Nat} {ts : List Token} {e : Expr} (d : Derivation m ts e) (h : p ≤ m) :
    Derivation p ts e :=
  match d with
  | .leaf ht => .leaf ht
  | .group ho inner hc => .group ho inner hc
  | .opener ho inner => .opener ho inner
  | .binary hm left ho right => .binary (Nat.le_trans h hm) left ho right

@[simp] theorem need_loosen {m : Nat} (d : Derivation m ts e) (h : p ≤ m) :
    (d.loosen h).need = d.need := by
  cases d <;> rfl

/-- A primary may stand anywhere. -/
def ofPrimary {p : Nat} {ts : List Token} {e : Expr}
    (d : Derivation Phrase.primary.precedence ts e) : Derivation p ts e :=
  match d with
  | .leaf ht => .leaf ht
  | .group ho inner hc => .group ho inner hc
  | .opener ho inner => .opener ho inner
  | .binary hm _ _ _ => absurd (precedence_lt_three _) (Nat.not_lt.mpr hm)

end Derivation

/-- Every phrase has a derivation from its nonterminal. -/
theorem Derives.nonempty_derivation {phrase : Phrase} {ts : List Token} {e : Expr}
    (h : Derives phrase ts e) : Nonempty (Derivation phrase.precedence ts e) := by
  have hbinary (op : Operator) {ls rs : List Token} {o : Token} {l r : Expr}
      (ho : o.Is .operator op.symbol) :
      Nonempty (Derivation op.precedence ls l) → Nonempty (Derivation (op.precedence + 1) rs r) →
        Nonempty (Derivation op.precedence (ls ++ o :: rs) (.binary op l r)) := by
    rintro ⟨left⟩ ⟨right⟩
    exact ⟨.binary (Nat.le_refl _) left ho right⟩
  induction h with
  | greater _ ho _ ihl ihr => exact hbinary .greater ho ihl ihr
  | add _ ho _ ihl ihr => exact hbinary .add ho ihl ihr
  | subtract _ ho _ ihl ihr => exact hbinary .subtract ho ihl ihr
  | multiply _ ho _ ihl ihr => exact hbinary .multiply ho ihl ihr
  | divide _ ho _ ihl ihr => exact hbinary .divide ho ihl ihr
  | ofSum _ ih => exact ih.elim fun d => ⟨d.loosen (by decide)⟩
  | ofProduct _ ih => exact ih.elim fun d => ⟨d.loosen (by decide)⟩
  | ofPrimary _ ih => exact ih.elim fun d => ⟨d.loosen (by decide)⟩
  | leaf ht => exact ⟨.leaf ht⟩
  | group ho _ hc ih => exact ih.elim fun d => ⟨.group ho d hc⟩
  | opener ho _ ih => exact ih.elim fun d => ⟨.opener ho d⟩

/-- **Derivations are what the grammar derives.** -/
theorem nonempty_derivation_iff {p : Nat} {ts : List Token} {e : Expr} :
    Nonempty (Derivation p ts e) ↔ Derives (.ofPrecedence p) ts e := by
  constructor
  · rintro ⟨d⟩
    exact d.derives
  · intro h
    rcases Phrase.le_precedence_ofPrecedence p with hle | hprimary
    · exact h.nonempty_derivation.elim fun d => ⟨d.loosen hle⟩
    · rw [hprimary] at h
      exact h.nonempty_derivation.elim fun d => ⟨d.ofPrimary⟩

/-! ## Reading with just as many levels -/

section Reading

variable {levels p : Nat} {used rest : List Token} {e : Expr}

/-- Nothing binds tighter than a primary, so it is all that is read at its precedence. -/
theorem read_of_three_le (h : 3 ≤ p) (tokens : List Token) :
    read levels p tokens = readPrimary levels tokens := by
  show (readPrimary levels tokens).andThen (readTail levels p) = _
  cases readPrimary levels tokens with
  | refused fault rest => rfl
  | accepted first rest => exact readTail_of_stops (stops_of_three_le h rest)

/-- A primary is the left operand of the tail behind it, and gives back all levels that it takes. -/
theorem decided_read_of_primary {enough : Prop}
    (h : (readPrimary levels (used ++ rest)).Decided enough (.accepted e rest)) :
    (read levels p (used ++ rest)).Decided enough (readTail levels p e rest) :=
  h.andThen (readTail levels p)

/-- A group needs a level for itself, beside those of what it holds. -/
theorem decided_readPrimary_group {need : Nat} {o c : Token} (ho : o.Is .operator "(")
    (hc : c.Is .operator ")")
    (h : ∀ inner, (read inner 0 (used ++ c :: rest)).Decided (need ≤ inner)
      (.accepted e (c :: rest))) :
    (readPrimary levels (o :: used ++ [c] ++ rest)).Decided (1 + need ≤ levels)
      (.accepted e rest) := by
  have hsplit : o :: used ++ [c] ++ rest = o :: (used ++ c :: rest) := by simp
  rw [hsplit, readPrimary_group ho]
  cases levels with
  | zero => exact Outcome.decided_tooDeep (by omega) ⟨o, _, rfl⟩ _
  | succ inner =>
      refine Outcome.Decided.congr ((h inner).followed ?_) (by omega)
      rw [expectGroupEnd_cons hc, Outcome.andThen_accepted]

/-- An output opener needs a level for itself, beside those of the primary behind it. -/
theorem decided_readPrimary_opener {need : Nat} {o : Token} (ho : o.Is .delimiter "\x7b\x7b")
    (h : ∀ inner, (readPrimary inner (used ++ rest)).Decided (need ≤ inner) (.accepted e rest)) :
    (readPrimary levels (o :: used ++ rest)).Decided (1 + need ≤ levels) (.accepted e rest) := by
  rw [List.cons_append, readPrimary_opener ho]
  cases levels with
  | zero => exact Outcome.decided_tooDeep (by omega) ⟨o, _, rfl⟩ _
  | succ inner => exact (h inner).congr (by omega)

/-- **An operator** takes the level behind those of the spine to its left, for its right operand and
for the rest of the tail. -/
theorem decided_read_binary {op : Operator} {spine needLeft needRight : Nat} {ls rs : List Token}
    {o : Token} {l r : Expr} (hp : p ≤ op.precedence) (hspine : spine ≤ needLeft)
    (ho : o.Is .operator op.symbol)
    (hleft : (read levels p (ls ++ o :: (rs ++ rest))).Decided (needLeft ≤ levels)
      (readTail (levels - spine) p l (o :: (rs ++ rest))))
    (hright : ∀ inner, (read inner (op.precedence + 1) (rs ++ rest)).Decided (needRight ≤ inner)
      (.accepted r rest)) :
    (read levels p (ls ++ o :: rs ++ rest)).Decided
      (max needLeft (spine + 1 + needRight) ≤ levels)
      (readTail (levels - (spine + 1)) p (.binary op l r) rest) := by
  have hsplit : ls ++ o :: rs ++ rest = ls ++ o :: (rs ++ rest) := by simp
  rw [hsplit]
  by_cases hl : needLeft ≤ levels
  · rw [hleft.eq_of_enough hl, readTail_operator ho hp]
    cases hlevels : levels - spine with
    | zero => exact Outcome.decided_tooDeep (by omega) ⟨o, _, rfl⟩ _
    | succ inner =>
        have hinner := (hright inner).andThen fun right more =>
          readTail inner p (.binary op l right) more
        rw [show levels - (spine + 1) = inner by omega]
        exact hinner.congr (by omega)
  · exact Outcome.decided_tooDeep (by omega) (hleft.tooDeep_of_not hl) _

end Reading

/-- What the levels decide about the tokens of a derivation: in front of anything that does not go
on with it more tightly, they are read as the left operand of a tail, which is left without the
levels of the spine; and a primary is read by the reader of primaries. -/
structure Derivation.ReadsWithNeed {p : Nat} {used : List Token} {e : Expr}
    (d : Derivation p used e) : Prop where
  read : ∀ levels least rest, least ≤ p → Stops (p + 1) rest →
    (Expr.read levels least (used ++ rest)).Decided (d.need ≤ levels)
      (readTail (levels - d.spine) least e rest)
  primary : 3 ≤ p → ∀ levels rest,
    (readPrimary levels (used ++ rest)).Decided (d.need ≤ levels) (.accepted e rest)

theorem Derivation.readsWithNeed_of_primary {p : Nat} {used : List Token} {e : Expr}
    {d : Derivation p used e} (hspine : d.spine = 0)
    (h : ∀ levels rest,
      (readPrimary levels (used ++ rest)).Decided (d.need ≤ levels) (.accepted e rest)) :
    d.ReadsWithNeed := by
  refine ⟨fun levels least rest _ _ => ?_, fun _ => h⟩
  rw [hspine]
  exact decided_read_of_primary (h levels rest)

/-- **A derivation is read with the levels that it needs**, and with no fewer. -/
theorem Derivation.readsWithNeed {p : Nat} {used : List Token} {e : Expr}
    (d : Derivation p used e) : d.ReadsWithNeed := by
  induction d with
  | leaf ht =>
      refine readsWithNeed_of_primary rfl fun levels rest => ?_
      show (readPrimary levels (_ :: rest)).Decided _ _
      rw [readPrimary_leaf ht]
      exact Outcome.decided_self (Nat.zero_le levels) _
  | @group p o c ts e ho inner hc ih =>
      refine readsWithNeed_of_primary rfl fun levels rest => ?_
      apply decided_readPrimary_group ho hc
      intro inner
      have hstops (q : Nat) : Stops q (c :: rest) := stops_of_ne_symbol hc (by decide)
      have hinner := ih.read inner 0 (c :: rest) (Nat.le_refl 0) (hstops _)
      rwa [readTail_of_stops (hstops 0)] at hinner
  | opener ho inner ih =>
      refine readsWithNeed_of_primary rfl fun levels rest => ?_
      exact decided_readPrimary_opener ho fun inner => ih.primary (Nat.le_refl 3) inner rest
  | @binary p op ls rs o l r hp left ho right ihl ihr =>
      refine ⟨fun levels least rest hleast hstops => ?_, fun hprimary => ?_⟩
      · have habove : Stops (op.precedence + 1) rest := hstops.mono (Nat.succ_le_succ hp)
        have hbefore : Stops (op.precedence + 1) (o :: (rs ++ rest)) :=
          (stops_cons_iff ho).mpr (Nat.lt_succ_self _)
        have hop : least ≤ op.precedence := Nat.le_trans hleast hp
        refine decided_read_binary hop left.spine_le_need ho
          (ihl.read levels least _ hop hbefore) fun inner => ?_
        have hright := ihr.read inner (op.precedence + 1) rest (Nat.le_refl _)
          (habove.mono (Nat.le_succ _))
        rwa [readTail_of_stops habove] at hright
      · exact absurd (precedence_lt_three op) (Nat.not_lt.mpr (Nat.le_trans hprimary hp))

section Exactly

variable {levels p : Nat} {used rest : List Token} {e : Expr}

/-- **The levels decide** whether the tokens of a derivation are read as its tree, where no operator
can go on with it. -/
theorem Derivation.decided_read (d : Derivation p used e) (hstops : Stops p rest)
    (levels : Nat) :
    (Expr.read levels p (used ++ rest)).Decided (d.need ≤ levels) (.accepted e rest) := by
  have hread := d.readsWithNeed.read levels p rest (Nat.le_refl p) (hstops.mono (Nat.le_succ p))
  rwa [readTail_of_stops hstops] at hread

/-- **What is accepted, to the level**: what a derivation with need of no more than the levels
derives, where no operator can go on with it. -/
theorem read_eq_accepted_iff_need {tokens : List Token} :
    read levels p tokens = .accepted e rest ↔
      ∃ used, tokens = used ++ rest ∧ (∃ d : Derivation p used e, d.need ≤ levels) ∧
        Stops p rest := by
  constructor
  · intro h
    obtain ⟨used, rfl, hused, hstops⟩ := (sound levels).read h
    obtain ⟨d⟩ := nonempty_derivation_iff.mpr hused
    exact ⟨used, rfl, ⟨d, (d.decided_read hstops levels).enough_of_accepted h⟩, hstops⟩
  · rintro ⟨used, rfl, ⟨d, hneed⟩, hstops⟩
    exact (d.decided_read hstops levels).eq_of_enough hneed

end Exactly

end Expr

end TemplateLang

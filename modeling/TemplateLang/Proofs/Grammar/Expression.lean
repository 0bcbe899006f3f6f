import TemplateLang.Proofs.Depth.Need

/-!
# TemplateLang.Proofs.Grammar.Expression — the grammar that climbing reads

Main statement (`readExpr_ok_iff_derives`): short of the depth limit, reading with the least
precedence `p` gives the tree `e` and stops at a token exactly when the tokens up to there derive
`e` from the nonterminal of `p`, and no operator of precedence `p` or more follows.

One direction is soundness. For the other, the levels decide whether the tokens of a derivation are
read as its tree, and it needs fewer of them than it has tokens; so a level for every token but one
is enough, whatever stands behind the phrase (`read_of_derives`).
-/

namespace TemplateLang

namespace Expr

open TokenReader

/-! ## What is derived is read -/

/-- **A level for every token but one is enough** to read what the tokens derive, where no operator
can go on with it. -/
theorem read_of_derives {p levels : Nat} {used rest : List Token} {e : Expr}
    (h : Derives (.ofPrecedence p) used e) (hstops : Stops p rest)
    (hlevels : used.length ≤ levels + 1) :
    read levels p (used ++ rest) = .accepted e rest := by
  obtain ⟨d⟩ := nonempty_derivation_iff.mpr h
  have hneed := d.need_lt_length
  exact (d.decided_read hstops levels).eq_of_enough (by omega)

/-- With fewer levels what derives an expression is read as it, unless they run out. -/
theorem approximates_read_of_derives {p : Nat} {used rest : List Token} {e : Expr}
    (h : Derives (.ofPrecedence p) used e) (hstops : Stops p rest) (levels : Nat) :
    (read levels p (used ++ rest)).Approximates (.accepted e rest) := by
  obtain ⟨d⟩ := nonempty_derivation_iff.mpr h
  exact (d.decided_read hstops levels).approximates

/-- **Reading is deriving.** Short of the levels, an expression is accepted exactly when the tokens
used derive it and no operator can go on with it. -/
theorem read_eq_accepted_iff {levels p : Nat} {tokens rest : List Token} {e : Expr}
    (hdeep : ¬ (read levels p tokens).TooDeep) :
    read levels p tokens = .accepted e rest ↔
      ∃ used, tokens = used ++ rest ∧ Derives (.ofPrecedence p) used e ∧ Stops p rest := by
  constructor
  · exact (sound levels).read
  · rintro ⟨used, rfl, hused, hstops⟩
    exact (approximates_read_of_derives hused hstops levels).eq_of_not_tooDeep hdeep

end Expr

/-! ## Streams -/

namespace TokenStream

/-- The tokens from the cursor up to the position `j`. -/
def upTo (s : TokenStream) (j : Nat) : List Token :=
  s.remaining.take (j - s.position)

theorem length_remaining (s : TokenStream) :
    s.remaining.length = s.tokens.length - s.position :=
  List.length_drop

theorem remaining_eq_upTo_append {s : TokenStream} {j : Nat} (h : s.position ≤ j) :
    s.remaining = s.upTo j ++ s.tokens.drop j := by
  have hdrop : s.remaining.drop (j - s.position) = s.tokens.drop j := by
    rw [remaining, List.drop_drop]
    congr 1
    omega
  rw [upTo, ← hdrop, List.take_append_drop]

/-- The reading of a stream succeeds with the cursor at `j` exactly when the reader accepts and
leaves the tokens from `j` on. -/
theorem read_ok_iff {α : Type} {options : Options} {reader : Nat → TokenReader α}
    (hsuffix : TokenReader.LeavesSuffix (reader options.maxDepth)) {s : TokenStream} {value : α}
    {j : Nat} :
    ((s.read options reader).1 = .ok value ∧ (s.read options reader).2.position = j) ↔
      s.position ≤ j ∧ j ≤ s.size ∧
        reader options.maxDepth s.remaining = .accepted value (s.tokens.drop j) := by
  have hposition := s.position_le
  have hs := hsuffix s.remaining
  unfold read
  cases ho : reader options.maxDepth s.remaining with
  | refused fault rest => simp
  | accepted found rest =>
      rw [ho] at hs
      obtain ⟨used, hused⟩ := hs
      have hlen : used.length + rest.length = s.tokens.length - s.position := by
        rw [← length_remaining, ← hused, List.length_append]
        rfl
      have hrest : rest = s.tokens.drop (s.tokens.length - rest.length) := by
        have hdrop : s.remaining.drop used.length = rest := by
          rw [← hused]
          exact List.drop_left
        rw [← hdrop, remaining, List.drop_drop, List.length_drop]
        congr 1
        omega
      constructor
      · rintro ⟨hvalue, rfl⟩
        cases hvalue
        refine ⟨?_, Nat.sub_le _ _, congrArg _ hrest⟩
        show s.position ≤ s.tokens.length - rest.length
        omega
      · rintro ⟨hj, hjs, hacc⟩
        obtain ⟨rfl, hrest'⟩ : found = value ∧ rest = s.tokens.drop j := by
          injection hacc with h1 h2
          exact ⟨h1, h2⟩
        refine ⟨rfl, ?_⟩
        show s.tokens.length - rest.length = j
        rw [hrest', List.length_drop]
        unfold size at hjs
        omega

/-- **Climbing reads the stratified grammar.** Unless the nesting exceeds the limit, an expression
of least precedence `p` is read as the tree `e` up to the position `j` exactly when the tokens up to
`j` derive `e` and the token at `j`, if there is one, is no operator of precedence `p` or more. -/
theorem readExpr_ok_iff_derives (options : Options) (p : Nat) (s : TokenStream) (e : Expr) (j : Nat)
    (hlimit : ¬ ReportsTooDeep (s.readExpr options p).1) :
    ((s.readExpr options p).1 = .ok e ∧ (s.readExpr options p).2.position = j) ↔
      s.position ≤ j ∧ j ≤ s.size ∧ Expr.Derives (.ofPrecedence p) (s.upTo j) e ∧
        ∀ next, s.tokens[j]? = some next →
          ¬ ∃ op : Operator, next.Is .operator op.symbol ∧ p ≤ op.precedence := by
  have hdeep : ¬ (Expr.read options.maxDepth p s.remaining).TooDeep := by
    rwa [readExpr, reportsTooDeep_read_iff] at hlimit
  have hstops : Expr.Stops p (s.tokens.drop j) ↔ ∀ next, s.tokens[j]? = some next →
      ¬ ∃ op : Operator, next.Is .operator op.symbol ∧ p ≤ op.precedence := by
    unfold Expr.Stops
    rw [List.head?_drop]
    constructor
    · rintro h next hnext ⟨op, hop, hp⟩
      exact absurd (h next hnext op hop) (Nat.not_lt.mpr hp)
    · intro h next hnext op hop
      exact Nat.lt_of_not_le fun hp => h next hnext ⟨op, hop, hp⟩
  rw [readExpr, read_ok_iff (Expr.leavesSuffix_read options.maxDepth p), ← hstops]
  refine and_congr_right fun hj => and_congr_right fun _ => ?_
  rw [Expr.read_eq_accepted_iff hdeep]
  constructor
  · rintro ⟨used, hused, hderives, hrest⟩
    have heq : used = s.upTo j := by
      rw [remaining_eq_upTo_append hj] at hused
      exact (List.append_cancel_right hused).symm
    exact ⟨heq ▸ hderives, hrest⟩
  · rintro ⟨hderives, hrest⟩
    exact ⟨s.upTo j, remaining_eq_upTo_append hj, hderives, hrest⟩

/-- The tokens of `{{ a - b - c > d }}` with the cursor behind the opener. -/
def chainStream : TokenStream where
  source := ⟨"template", "\x7b\x7b a - b - c > d \x7d\x7d"⟩
  tokens :=
    [⟨.delimiter, "\x7b\x7b", 0⟩, ⟨.word, "a", 3⟩, ⟨.operator, "-", 5⟩, ⟨.word, "b", 7⟩,
      ⟨.operator, "-", 9⟩, ⟨.word, "c", 11⟩, ⟨.operator, ">", 13⟩, ⟨.word, "d", 15⟩,
      ⟨.delimiter, "\x7d\x7d", 17⟩]
  position := 1
  tokens_ne_nil := by decide
  position_le := by decide

/-- The tree of `a - b - c > d`: the differences group to the left, below the comparison. -/
def chainTree : Expr :=
  .binary .greater
    (.binary .subtract
      (.binary .subtract (.leaf ⟨.word, "a", 3⟩) (.leaf ⟨.word, "b", 7⟩))
      (.leaf ⟨.word, "c", 11⟩))
    (.leaf ⟨.word, "d", 15⟩)

/-- Three levels are enough to read the chain, so its tokens derive its tree. -/
theorem chainStream_derives :
    ¬ ReportsTooDeep (chainStream.readExpr ⟨3, "template"⟩ 0).1 ∧
      Expr.Derives .comparison (chainStream.upTo 8) chainTree := by
  have hread : (chainStream.readExpr ⟨3, "template"⟩ 0).1 = .ok chainTree := by cbv
  have hposition : (chainStream.readExpr ⟨3, "template"⟩ 0).2.position = 8 := by decide +kernel
  have hlimit : ¬ ReportsTooDeep (chainStream.readExpr ⟨3, "template"⟩ 0).1 := by
    rintro ⟨limit, span, source, h⟩
    rw [hread] at h
    cases h
  obtain ⟨_, _, hderives, _⟩ :=
    (readExpr_ok_iff_derives ⟨3, "template"⟩ 0 chainStream chainTree 8 hlimit).mp
      ⟨hread, hposition⟩
  exact ⟨hlimit, hderives⟩

end TokenStream

end TemplateLang

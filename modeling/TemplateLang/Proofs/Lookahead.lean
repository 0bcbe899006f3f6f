import TemplateLang.Expr.Reading

/-!
# TemplateLang.Proofs.Lookahead — expressions are read with one token of lookahead

A reader of expressions stops in front of a token that it has seen but not used, and it has seen
nothing beyond that token. `LooksOneAhead` says so without an account of what is looked at: where
reading stops at a token, the outcome stays the same, value or fault, whatever stands behind that
token instead. Main statement (`Expr.looksOneAhead_read`): reading an expression is so, at every
number of levels.

The property is closed under sequencing. If the second reader stops at the token without taking
anything, the first one has stopped there already; otherwise the first has stopped at a token that
the second used, and everything up to the stop is the same for it.
-/

namespace TemplateLang

/-- The outcome with other tokens left. -/
def Outcome.leaving {α : Type} (o : Outcome α) (rest : List Token) : Outcome α :=
  match o with
  | .accepted value _ => .accepted value rest
  | .refused fault _ => .refused fault rest

@[simp] theorem Outcome.rest_leaving {α : Type} (o : Outcome α) (rest : List Token) :
    (o.leaving rest).rest = rest := by
  cases o <;> rfl

namespace TokenReader

variable {α β : Type}

/-- **`LooksOneAhead reader`** — the reader leaves a suffix of its tokens, and where it stops at a
token it does the same with anything else behind that token. -/
structure LooksOneAhead (reader : TokenReader α) : Prop where
  leavesSuffix : LeavesSuffix reader
  same : ∀ (used : List Token) (next : Token) (behind other : List Token),
    (reader (used ++ next :: behind)).rest = next :: behind →
      reader (used ++ next :: other) =
        (reader (used ++ next :: behind)).leaving (next :: other)

theorem looksOneAhead_pure (value : α) : LooksOneAhead (pure value : TokenReader α) where
  leavesSuffix := leavesSuffix_pure value
  same used next behind other h := by
    obtain rfl := List.append_left_eq_self.mp h
    rfl

theorem looksOneAhead_refuse (fault : Fault) :
    LooksOneAhead (refuse fault : TokenReader α) where
  leavesSuffix := leavesSuffix_refuse fault
  same used next behind other h := by
    obtain rfl := List.append_left_eq_self.mp h
    rfl

theorem looksOneAhead_next? : LooksOneAhead next? where
  leavesSuffix := leavesSuffix_next?
  same used next behind other h := by
    cases used with
    | nil => exact absurd h List.ne_cons_self
    | cons first used =>
        obtain rfl := List.append_left_eq_self.mp h
        rfl

/-- **Sequencing keeps the lookahead.** -/
theorem LooksOneAhead.bind {reader : TokenReader α} {further : α → TokenReader β}
    (h : LooksOneAhead reader) (hfurther : ∀ value, LooksOneAhead (further value)) :
    LooksOneAhead (reader >>= further) where
  leavesSuffix := h.leavesSuffix.bind fun value => (hfurther value).leavesSuffix
  same used next behind other hstop := by
    have hleft := h.leavesSuffix (used ++ next :: behind)
    rw [bind_apply] at hstop ⊢
    rw [bind_apply]
    cases ho : reader (used ++ next :: behind) with
    | refused fault rest =>
        rw [ho] at hstop
        have hsame := h.same used next behind other (by rw [ho]; exact hstop)
        rw [ho] at hsame
        rw [hsame]
        rfl
    | accepted value rest =>
        rw [ho] at hstop hleft
        rw [Outcome.andThen_accepted] at hstop ⊢
        -- the second reader starts somewhere before the token at which it stops
        obtain ⟨mid, rfl⟩ : ∃ mid, mid ++ next :: behind = rest := by
          rw [← hstop]
          exact (hfurther value).leavesSuffix rest
        obtain ⟨begun, hbegun⟩ := hleft
        obtain rfl : begun ++ mid = used := by
          have hall : begun ++ mid ++ next :: behind = used ++ next :: behind := by
            rw [List.append_assoc]
            exact hbegun
          exact List.append_cancel_right hall
        have hfirst : reader (begun ++ mid ++ next :: other) =
            .accepted value (mid ++ next :: other) := by
          cases mid with
          | nil =>
              have hsame := h.same (begun ++ []) next behind other (by rw [ho]; rfl)
              rw [ho] at hsame
              exact hsame
          | cons m mid =>
              have hsplit (tail : List Token) :
                  begun ++ m :: mid ++ tail = begun ++ m :: (mid ++ tail) := by simp
              have hsame := h.same begun m (mid ++ next :: behind) (mid ++ next :: other)
                (by rw [← hsplit, ho]; rfl)
              rw [← hsplit, ← hsplit, ho] at hsame
              exact hsame
        rw [hfirst, Outcome.andThen_accepted]
        exact (hfurther value).same mid next behind other hstop

end TokenReader

open TokenReader

namespace Expr

theorem looksOneAhead_takeOperator? (minPrecedence : Nat) :
    LooksOneAhead (takeOperator? minPrecedence) where
  leavesSuffix := leavesSuffix_takeOperator? minPrecedence
  same used next behind other h := by
    cases used with
    | nil =>
        simp only [List.nil_append, takeOperator?] at h ⊢
        cases hop : next.operator? with
        | none => rfl
        | some op =>
            simp only [hop] at h ⊢
            by_cases hp : op.precedence < minPrecedence
            · simp only [if_pos hp]
              rfl
            · rw [if_neg hp] at h
              exact absurd h List.ne_cons_self
    | cons first used =>
        simp only [List.cons_append, takeOperator?] at h ⊢
        cases hop : first.operator? with
        | none =>
            rw [hop] at h
            exact absurd (List.append_left_eq_self.mp h) (List.cons_ne_nil first used)
        | some op =>
            simp only [hop] at h ⊢
            by_cases hp : op.precedence < minPrecedence
            · rw [if_pos hp] at h
              exact absurd (List.append_left_eq_self.mp h) (List.cons_ne_nil first used)
            · rw [if_neg hp] at h
              obtain rfl := List.append_left_eq_self.mp h
              simp only [if_neg hp]
              rfl

theorem looksOneAhead_expectGroupEnd : LooksOneAhead expectGroupEnd := by
  refine looksOneAhead_next?.bind fun found => ?_
  cases found with
  | none => exact looksOneAhead_refuse _
  | some t =>
      dsimp only
      split
      · exact looksOneAhead_pure _
      · exact looksOneAhead_refuse _

/-- Primaries and tails look one token ahead, at every level. -/
theorem looksOneAhead_readPrimary_and_readTail (levels : Nat) :
    LooksOneAhead (readPrimary levels) ∧
      ∀ minPrecedence left, LooksOneAhead (readTail levels minPrecedence left) := by
  induction levels with
  | zero =>
      constructor
      · rw [readPrimary]
        refine looksOneAhead_next?.bind fun found => ?_
        cases found with
        | none => exact looksOneAhead_refuse _
        | some t =>
            dsimp only
            split
            · exact looksOneAhead_refuse _
            · split
              · exact looksOneAhead_refuse _
              · split
                · exact looksOneAhead_refuse _
                · split
                  · exact looksOneAhead_pure _
                  · exact looksOneAhead_refuse _
      · intro minPrecedence left
        rw [readTail]
        refine (looksOneAhead_takeOperator? minPrecedence).bind fun taken => ?_
        cases taken with
        | none => exact looksOneAhead_pure _
        | some found => exact looksOneAhead_refuse _
  | succ inner ih =>
      obtain ⟨hprimary, htail⟩ := ih
      constructor
      · rw [readPrimary]
        refine looksOneAhead_next?.bind fun found => ?_
        cases found with
        | none => exact looksOneAhead_refuse _
        | some t =>
            dsimp only
            split
            -- a closer
            · exact looksOneAhead_refuse _
            · split
              -- an output opener
              · exact hprimary
              · split
                -- a group
                · exact hprimary.bind fun first =>
                    (htail 0 first).bind fun grouped =>
                      looksOneAhead_expectGroupEnd.bind fun _ => looksOneAhead_pure grouped
                · split
                  · exact looksOneAhead_pure _
                  · exact looksOneAhead_refuse _
      · intro minPrecedence left
        rw [readTail]
        refine (looksOneAhead_takeOperator? minPrecedence).bind fun taken => ?_
        cases taken with
        | none => exact looksOneAhead_pure _
        | some found =>
            exact hprimary.bind fun first =>
              (htail (found.1.precedence + 1) first).bind fun right =>
                htail minPrecedence (.binary found.1 left right)

/-- **An expression is read with one token of lookahead.** -/
theorem looksOneAhead_read (levels minPrecedence : Nat) :
    LooksOneAhead (read levels minPrecedence) := by
  obtain ⟨hprimary, htail⟩ := looksOneAhead_readPrimary_and_readTail levels
  exact hprimary.bind fun first => htail minPrecedence first

/-- An expression in front of a token is read to it, whatever stands behind that token. -/
theorem read_eq_accepted_of_next {levels minPrecedence : Nat} {used behind : List Token}
    {next : Token} {e : Expr}
    (h : read levels minPrecedence (used ++ next :: behind) = .accepted e (next :: behind))
    (other : List Token) :
    read levels minPrecedence (used ++ next :: other) = .accepted e (next :: other) := by
  have hsame := (looksOneAhead_read levels minPrecedence).same used next behind other
    (by rw [h]; rfl)
  rw [hsame, h]
  rfl

/-- An expression that stops at a token is read so in front of more tokens. -/
theorem read_append {levels minPrecedence : Nat} {tokens left : List Token} {next : Token}
    {e : Expr} (h : read levels minPrecedence tokens = .accepted e (next :: left))
    (more : List Token) :
    read levels minPrecedence (tokens ++ more) = .accepted e (next :: (left ++ more)) := by
  obtain ⟨used, rfl⟩ : next :: left <:+ tokens := by
    have hsuffix := leavesSuffix_read levels minPrecedence tokens
    rwa [h] at hsuffix
  rw [List.append_assoc, List.cons_append]
  exact read_eq_accepted_of_next h (left ++ more)

end Expr

end TemplateLang

import TemplateLang.Expr.Basic
import TemplateLang.Token.Reader

/-!
# TemplateLang.Expr.Reading — expressions from tokens

An expression is a primary with a tail of operators. A **primary** is a word, a string, a piece of
text, a group in parentheses, or an output opener before another primary, which the opener leaves
as it is. The **tail** goes on as long as the next token is an operator that binds at least as
tightly as the precedence asked for. The right operand is an expression of the next higher
precedence, so operators of one level group to the left.

Reading spends **levels**. A group and an output opener take a level for what they enclose. A
binary operator takes one for its right operand and for the rest of the tail as well, so each
operator of a chain leaves the next one level less; the levels come back when the expression ends.
Where a level is due and none is left, reading refuses at the token that asked for it. The levels
are what the recursion runs on, so reading ends however many tokens there are.
-/

namespace TemplateLang

open TokenReader

namespace Expr

/-- Reads an operator that binds at least as tightly as `minPrecedence`, if the next token is
one. -/
def takeOperator? (minPrecedence : Nat) : TokenReader (Option (Operator × Token))
  | [] => .accepted none []
  | t :: rest =>
      match t.operator? with
      | some op =>
          if op.precedence < minPrecedence then .accepted none (t :: rest)
          else .accepted (some (op, t)) rest
      | none => .accepted none (t :: rest)

/-- Reads the parenthesis that closes a group. -/
def expectGroupEnd : TokenReader Unit := do
  match ← next? with
  | none => refuse .endsEarly
  | some t =>
      if t.isExactly .operator ")" then pure ()
      else refuse (.unexpected .groupEnd t)

mutual

/-- Reads a primary. -/
def readPrimary (levels : Nat) : TokenReader Expr := do
  match ← next? with
  | none => refuse .endsEarly
  | some t =>
      if t.isCloser then refuse (.missingOperand t)
      else if t.isDelimiter (Delimiter.opening .output).text then
        match levels with
        | 0 => refuse (.tooDeep t)
        | inner + 1 => readPrimary inner
      else if t.isExactly .operator "(" then
        match levels with
        | 0 => refuse (.tooDeep t)
        | inner + 1 => do
            let first ← readPrimary inner
            let grouped ← readTail inner 0 first
            expectGroupEnd
            pure grouped
      else if t.isOperand then pure (.leaf t)
      else refuse (.unexpected .operand t)
termination_by structural levels

/-- Reads the operators that bind at least as tightly as `minPrecedence`, with their right
operands, behind the expression `left`. -/
def readTail (levels minPrecedence : Nat) (left : Expr) : TokenReader Expr := do
  match ← takeOperator? minPrecedence with
  | none => pure left
  | some (op, t) =>
      match levels with
      | 0 => refuse (.tooDeep t)
      | inner + 1 => do
          let first ← readPrimary inner
          let right ← readTail inner (op.precedence + 1) first
          readTail inner minPrecedence (.binary op left right)
termination_by structural levels

end

/-- Reads an expression whose operators bind at least as tightly as `minPrecedence`. It ends
before the first token that does not belong to it. -/
def read (levels minPrecedence : Nat) : TokenReader Expr := do
  let first ← readPrimary levels
  readTail levels minPrecedence first

/-! ## Equations -/

theorem readPrimary_nil (levels : Nat) : readPrimary levels [] = .refused .endsEarly [] := by
  unfold readPrimary
  rfl

/-- What a primary is, by its first token. -/
theorem readPrimary_cons (levels : Nat) (t : Token) (rest : List Token) :
    readPrimary levels (t :: rest) =
      if t.isCloser then .refused (.missingOperand t) rest
      else if t.isDelimiter (Delimiter.opening .output).text then
        match levels with
        | 0 => .refused (.tooDeep t) rest
        | inner + 1 => readPrimary inner rest
      else if t.isExactly .operator "(" then
        match levels with
        | 0 => .refused (.tooDeep t) rest
        | inner + 1 =>
            (read inner 0 rest).andThen fun grouped left =>
              (expectGroupEnd left).andThen fun _ left => .accepted grouped left
      else if t.isOperand then .accepted (.leaf t) rest
      else .refused (.unexpected .operand t) rest := by
  rw [readPrimary]
  simp only [bind_apply, next?_cons, Outcome.andThen_accepted]
  split
  · rfl
  · split
    · cases levels <;> rfl
    · split
      · cases levels with
        | zero => rfl
        | succ inner =>
            simp only [bind_apply, read]
            cases readPrimary inner rest <;> rfl
      · split <;> rfl

/-- How a tail goes on, by the operator that it begins with. -/
theorem readTail_apply (levels minPrecedence : Nat) (left : Expr) (tokens : List Token) :
    readTail levels minPrecedence left tokens =
      (takeOperator? minPrecedence tokens).andThen fun taken rest =>
        match taken with
        | none => .accepted left rest
        | some (op, t) =>
            match levels with
            | 0 => .refused (.tooDeep t) rest
            | inner + 1 =>
                (read inner (op.precedence + 1) rest).andThen fun right more =>
                  readTail inner minPrecedence (.binary op left right) more := by
  rw [readTail]
  simp only [bind_apply]
  cases takeOperator? minPrecedence tokens with
  | refused fault rest => rfl
  | accepted taken rest =>
      simp only [Outcome.andThen_accepted]
      cases taken with
      | none => rfl
      | some found =>
          obtain ⟨op, t⟩ := found
          cases levels with
          | zero => rfl
          | succ inner =>
              simp only [bind_apply, read]
              cases readPrimary inner rest <;> rfl

/-! ## What reading leaves -/

theorem leavesSuffix_takeOperator? (minPrecedence : Nat) :
    LeavesSuffix (takeOperator? minPrecedence)
  | [] => List.suffix_refl []
  | t :: rest => by
      simp only [takeOperator?]
      split
      · split
        · exact List.suffix_refl _
        · exact List.suffix_cons t rest
      · exact List.suffix_refl _

theorem leavesSuffix_expectGroupEnd : LeavesSuffix expectGroupEnd := by
  refine leavesSuffix_next?.bind fun found => ?_
  cases found with
  | none => exact leavesSuffix_refuse _
  | some t =>
      dsimp only
      split
      · exact leavesSuffix_pure _
      · exact leavesSuffix_refuse _

/-- Primaries and tails leave a suffix of their tokens, at every level. -/
theorem leavesSuffix_readPrimary_and_readTail (levels : Nat) :
    LeavesSuffix (readPrimary levels) ∧
      ∀ minPrecedence left, LeavesSuffix (readTail levels minPrecedence left) := by
  induction levels with
  | zero =>
      constructor
      · rw [readPrimary]
        refine leavesSuffix_next?.bind fun found => ?_
        cases found with
        | none => exact leavesSuffix_refuse _
        | some t =>
            dsimp only
            split
            · exact leavesSuffix_refuse _
            · split
              · exact leavesSuffix_refuse _
              · split
                · exact leavesSuffix_refuse _
                · split
                  · exact leavesSuffix_pure _
                  · exact leavesSuffix_refuse _
      · intro minPrecedence left
        rw [readTail]
        refine (leavesSuffix_takeOperator? minPrecedence).bind fun taken => ?_
        cases taken with
        | none => exact leavesSuffix_pure _
        | some found => exact leavesSuffix_refuse _
  | succ inner ih =>
      obtain ⟨hprimary, htail⟩ := ih
      constructor
      · rw [readPrimary]
        refine leavesSuffix_next?.bind fun found => ?_
        cases found with
        | none => exact leavesSuffix_refuse _
        | some t =>
            dsimp only
            split
            -- a closer
            · exact leavesSuffix_refuse _
            · split
              -- an output opener
              · exact hprimary
              · split
                -- a group
                · exact hprimary.bind fun first =>
                    (htail 0 first).bind fun grouped =>
                      leavesSuffix_expectGroupEnd.bind fun _ => leavesSuffix_pure grouped
                · split
                  · exact leavesSuffix_pure _
                  · exact leavesSuffix_refuse _
      · intro minPrecedence left
        rw [readTail]
        refine (leavesSuffix_takeOperator? minPrecedence).bind fun taken => ?_
        cases taken with
        | none => exact leavesSuffix_pure _
        | some found =>
            exact hprimary.bind fun first =>
              (htail (found.1.precedence + 1) first).bind fun right =>
                htail minPrecedence (.binary found.1 left right)

/-- What reading an expression leaves is the end of its tokens. -/
theorem leavesSuffix_read (levels minPrecedence : Nat) :
    LeavesSuffix (read levels minPrecedence) := by
  obtain ⟨hprimary, htail⟩ := leavesSuffix_readPrimary_and_readTail levels
  exact hprimary.bind fun first => htail minPrecedence first

end Expr

end TemplateLang

import TemplateLang.Diagnostic.CompileError
import TemplateLang.Token.Basic

/-!
# TemplateLang.Token.Reader — reading a list of tokens, with faults that keep their place

A token reader takes tokens from the front of a list. It either accepts, with a value and the
tokens that it left, or refuses, with a fault and the tokens behind the last one it read; so a
refusal shows how far the reader came. Readers know neither the source nor the depth limit that
was set. Their faults name tokens, and `Fault.toError` turns them into errors once both are known.
-/

namespace TemplateLang

/-- Why a reader refused its tokens. -/
inductive Fault where
  /-- The tokens ran out where one was due. -/
  | endsEarly
  /-- A block closes where an operand is due. -/
  | missingOperand (closer : Token)
  /-- Something else stands in place of what was expected. -/
  | unexpected (expected : Expectation) (found : Token)
  /-- A statement block is not one of the statements. -/
  | malformed (fault : BlockFault) (place : Token)
  /-- No level is left for what begins here. -/
  | tooDeep (place : Token)
deriving DecidableEq

/-- The error that a fault is, in its source and under the limit that was set. -/
def Fault.toError (source : Source) (limit : Nat) : Fault → CompileError
  | .endsEarly => .located .missingOperand source.endSpan source
  | .missingOperand closer => .located .missingOperand closer.span source
  | .unexpected expected found =>
      .located (.unexpectedToken expected found.text) found.span source
  | .malformed fault place => .located (.malformedBlock fault) place.span source
  | .tooDeep place => .located (.nestingTooDeep limit) place.span source

/-- What came of reading. -/
inductive Outcome (α : Type) where
  /-- A value, and the tokens left. -/
  | accepted (value : α) (rest : List Token)
  /-- A fault, and the tokens behind the last one read. -/
  | refused (fault : Fault) (rest : List Token)

namespace Outcome

variable {α β : Type}

/-- The tokens that were not read. -/
def rest : Outcome α → List Token
  | .accepted _ rest => rest
  | .refused _ rest => rest

/-- Goes on with the value and the tokens left, if there is a value. -/
def andThen (o : Outcome α) (next : α → List Token → Outcome β) : Outcome β :=
  match o with
  | .accepted value rest => next value rest
  | .refused fault rest => .refused fault rest

@[simp] theorem andThen_accepted (value : α) (rest : List Token)
    (next : α → List Token → Outcome β) : (accepted value rest).andThen next = next value rest :=
  rfl

@[simp] theorem andThen_refused (fault : Fault) (rest : List Token)
    (next : α → List Token → Outcome β) :
    (refused fault rest : Outcome α).andThen next = refused fault rest := rfl

/-- An outcome is accepted behind another exactly when both are. -/
theorem andThen_eq_accepted_iff {o : Outcome α} {next : α → List Token → Outcome β} {value : β}
    {rest : List Token} :
    o.andThen next = accepted value rest ↔
      ∃ first left, o = accepted first left ∧ next first left = accepted value rest := by
  cases o with
  | refused fault left => simp
  | accepted first left =>
      constructor
      · intro h
        exact ⟨first, left, rfl, h⟩
      · rintro ⟨_, _, h, hnext⟩
        cases h
        exact hnext

end Outcome

/-- A reader of tokens. -/
def TokenReader (α : Type) := List Token → Outcome α

namespace TokenReader

variable {α β : Type}

instance : Monad TokenReader where
  pure value := fun tokens => .accepted value tokens
  bind reader next := fun tokens => (reader tokens).andThen fun value rest => next value rest

/-- Refuses without reading. -/
def refuse (fault : Fault) : TokenReader α := fun tokens => .refused fault tokens

/-- Reads one token, or notices that there is none. -/
def next? : TokenReader (Option Token)
  | [] => .accepted none []
  | t :: rest => .accepted (some t) rest

@[simp] theorem pure_apply (value : α) (tokens : List Token) :
    (pure value : TokenReader α) tokens = .accepted value tokens := rfl

@[simp] theorem bind_apply (reader : TokenReader α) (next : α → TokenReader β)
    (tokens : List Token) :
    (reader >>= next) tokens = (reader tokens).andThen fun value rest => next value rest := rfl

@[simp] theorem refuse_apply (fault : Fault) (tokens : List Token) :
    (refuse fault : TokenReader α) tokens = .refused fault tokens := rfl

@[simp] theorem next?_nil : next? [] = .accepted none [] := rfl

@[simp] theorem next?_cons (t : Token) (rest : List Token) :
    next? (t :: rest) = .accepted (some t) rest := rfl

/-- Reads the delimiter that closes a block of the given kind. -/
def expectBlockEnd (kind : BlockKind) : TokenReader Unit := do
  match ← next? with
  | none => refuse .endsEarly
  | some t =>
      if t.isDelimiter (Delimiter.closing kind).text then pure ()
      else refuse (.unexpected (.blockEnd kind) t)

/-! ## What reading leaves -/

/-- What the reader leaves is the end of what it was given, whether it accepts or refuses. -/
def LeavesSuffix (reader : TokenReader α) : Prop :=
  ∀ tokens, (reader tokens).rest <:+ tokens

theorem leavesSuffix_pure (value : α) : LeavesSuffix (pure value : TokenReader α) :=
  fun tokens => List.suffix_refl tokens

theorem leavesSuffix_refuse (fault : Fault) : LeavesSuffix (refuse fault : TokenReader α) :=
  fun tokens => List.suffix_refl tokens

theorem leavesSuffix_next? : LeavesSuffix next?
  | [] => List.suffix_refl []
  | t :: rest => List.suffix_cons t rest

theorem LeavesSuffix.bind {reader : TokenReader α} {next : α → TokenReader β}
    (h : LeavesSuffix reader) (hnext : ∀ value, LeavesSuffix (next value)) :
    LeavesSuffix (reader >>= next) := by
  intro tokens
  have hr := h tokens
  rw [bind_apply]
  cases ho : reader tokens with
  | refused fault rest =>
      rw [ho] at hr
      exact hr
  | accepted value rest =>
      rw [ho] at hr
      exact (hnext value rest).trans hr

theorem leavesSuffix_expectBlockEnd (kind : BlockKind) : LeavesSuffix (expectBlockEnd kind) := by
  refine leavesSuffix_next?.bind fun found => ?_
  cases found with
  | none => exact leavesSuffix_refuse _
  | some t =>
      dsimp only
      split
      · exact leavesSuffix_pure _
      · exact leavesSuffix_refuse _

end TokenReader

end TemplateLang

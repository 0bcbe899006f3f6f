import TemplateLang.Proofs.Depth.Limit
import TemplateLang.Proofs.Places

/-!
# TemplateLang.Proofs.Relocation — readers do not ask where their tokens stand

What a reader does depends on the kinds and the texts of its tokens. The places of the tokens only
come out again: in the leaves of a tree, in a fault, in the tokens left. So reading tokens whose
places have been changed is reading them as they were and changing the places in what came of it,
value or fault (`Follows`). Main statement (`Template.follows_read`): reading a template is so, at
every number of levels, and with it every reader that it is made of.

`Follows` is closed under sequencing. What a reader tests has to be the same before and behind the
change, which is what the equations of `Relocates` say.
-/

namespace TemplateLang

/-! ## Changes of place -/

/-- **`Relocates f`** — the change keeps the kind and the text of every token. -/
structure Relocates (f : Token → Token) : Prop where
  kind : ∀ t, (f t).kind = t.kind
  text : ∀ t, (f t).text = t.text

section Tests

variable {f : Token → Token} (hf : Relocates f) (t : Token)

include hf

theorem Relocates.isExactly (kind : TokenKind) (text : String) :
    (f t).isExactly kind text = t.isExactly kind text := by
  rw [Token.isExactly, Token.isExactly, hf.kind, hf.text]

theorem Relocates.isDelimiter (text : String) : (f t).isDelimiter text = t.isDelimiter text :=
  hf.isExactly t .delimiter text

theorem Relocates.isCloser : (f t).isCloser = t.isCloser := by
  rw [Token.isCloser, Token.isCloser, hf.isDelimiter, hf.isDelimiter]

theorem Relocates.isOperand : (f t).isOperand = t.isOperand := by
  rw [Token.isOperand, Token.isOperand, hf.kind]

theorem Relocates.operator? : (f t).operator? = t.operator? := by
  rw [Token.operator?, Token.operator?, hf.kind, hf.text]

end Tests

/-- The fault with every token changed. -/
def Fault.mapTokens (f : Token → Token) : Fault → Fault
  | .endsEarly => .endsEarly
  | .missingOperand closer => .missingOperand (f closer)
  | .unexpected expected found => .unexpected expected (f found)
  | .malformed fault place => .malformed fault (f place)
  | .tooDeep place => .tooDeep (f place)

/-- The outcome with every token changed, those in the value by `g`. -/
def Outcome.relocate {α β : Type} (f : Token → Token) (g : α → β) : Outcome α → Outcome β
  | .accepted value rest => .accepted (g value) (rest.map f)
  | .refused fault rest => .refused (fault.mapTokens f) (rest.map f)

namespace TokenReader

variable {α β γ δ : Type} {f : Token → Token} {g : α → β} {k : γ → δ}

/-- **`Follows f g reader moved`** — on tokens changed by `f` the reader `moved` comes to what
`reader` comes to on the tokens as they were, changed by `f`, with values changed by `g`. -/
def Follows (f : Token → Token) (g : α → β) (reader : TokenReader α) (moved : TokenReader β) :
    Prop :=
  ∀ tokens, moved (tokens.map f) = (reader tokens).relocate f g

theorem follows_pure {value : α} {moved : β} (h : g value = moved) :
    Follows f g (pure value) (pure moved) := by
  rintro tokens
  rw [← h]
  rfl

theorem follows_refuse {fault moved : Fault} (h : fault.mapTokens f = moved) :
    Follows f g (refuse fault) (refuse moved) := by
  rintro tokens
  rw [← h]
  rfl

theorem follows_next? : Follows f (Option.map f) next? next?
  | [] => rfl
  | _ :: _ => rfl

/-- **Sequencing keeps it.** -/
theorem Follows.bind {reader : TokenReader α} {moved : TokenReader β}
    {further : α → TokenReader γ} {movedFurther : β → TokenReader δ}
    (h : Follows f g reader moved)
    (hfurther : ∀ value, Follows f k (further value) (movedFurther (g value))) :
    Follows f k (reader >>= further) (moved >>= movedFurther) := by
  intro tokens
  rw [bind_apply, bind_apply, h tokens]
  cases reader tokens with
  | refused fault rest => rfl
  | accepted value rest => exact hfurther value rest

/-- A reader that looks at one token first. -/
theorem follows_next?_bind {further : Option Token → TokenReader γ}
    {movedFurther : Option Token → TokenReader δ} (hnone : Follows f k (further none)
      (movedFurther none))
    (hsome : ∀ t, Follows f k (further (some t)) (movedFurther (some (f t)))) :
    Follows f k (next? >>= further) (next? >>= movedFurther) := by
  refine follows_next?.bind fun found => ?_
  cases found with
  | none => exact hnone
  | some t => exact hsome t

section Readers

variable (hf : Relocates f)

include hf

theorem follows_expectBlockEnd (kind : BlockKind) :
    Follows f id (expectBlockEnd kind) (expectBlockEnd kind) := by
  refine follows_next?_bind (follows_refuse rfl) fun t => ?_
  dsimp only
  rw [hf.isDelimiter]
  split
  · exact follows_pure rfl
  · exact follows_refuse rfl

end Readers

end TokenReader

open TokenReader

/-! ## Expressions -/

namespace Expr

variable {f : Token → Token} (hf : Relocates f)

include hf

theorem follows_takeOperator? (minPrecedence : Nat) :
    Follows f (Option.map fun found => (found.1, f found.2)) (takeOperator? minPrecedence)
      (takeOperator? minPrecedence)
  | [] => rfl
  | t :: rest => by
      simp only [List.map_cons, takeOperator?, hf.operator?]
      cases t.operator? with
      | none => rfl
      | some op =>
          dsimp only
          split
          · rfl
          · rfl

theorem follows_expectGroupEnd : Follows f id expectGroupEnd expectGroupEnd := by
  refine follows_next?_bind (follows_refuse rfl) fun t => ?_
  dsimp only
  rw [hf.isExactly]
  split
  · exact follows_pure rfl
  · exact follows_refuse rfl

/-- Primaries and tails do not ask for places, at every level. -/
theorem follows_readPrimary_and_readTail (levels : Nat) :
    Follows f (mapTokens f) (readPrimary levels) (readPrimary levels) ∧
      ∀ minPrecedence left, Follows f (mapTokens f) (readTail levels minPrecedence left)
        (readTail levels minPrecedence (left.mapTokens f)) := by
  induction levels with
  | zero =>
      constructor
      · rw [readPrimary]
        refine follows_next?_bind (follows_refuse rfl) fun t => ?_
        dsimp only
        rw [hf.isCloser, hf.isDelimiter, hf.isExactly, hf.isOperand]
        split
        · exact follows_refuse rfl
        · split
          · exact follows_refuse rfl
          · split
            · exact follows_refuse rfl
            · split
              · exact follows_pure rfl
              · exact follows_refuse rfl
      · intro minPrecedence left
        rw [readTail, readTail]
        refine (follows_takeOperator? hf minPrecedence).bind fun taken => ?_
        cases taken with
        | none => exact follows_pure rfl
        | some found => exact follows_refuse rfl
  | succ inner ih =>
      obtain ⟨hprimary, htail⟩ := ih
      constructor
      · rw [readPrimary]
        refine follows_next?_bind (follows_refuse rfl) fun t => ?_
        dsimp only
        rw [hf.isCloser, hf.isDelimiter, hf.isExactly, hf.isOperand]
        split
        -- a closer
        · exact follows_refuse rfl
        · split
          -- an output opener
          · exact hprimary
          · split
            -- a group
            · exact hprimary.bind fun first =>
                (htail 0 first).bind fun grouped =>
                  (follows_expectGroupEnd hf).bind fun _ => follows_pure rfl
            · split
              · exact follows_pure rfl
              · exact follows_refuse rfl
      · intro minPrecedence left
        rw [readTail, readTail]
        refine (follows_takeOperator? hf minPrecedence).bind fun taken => ?_
        cases taken with
        | none => exact follows_pure rfl
        | some found =>
            exact hprimary.bind fun first =>
              (htail (found.1.precedence + 1) first).bind fun right =>
                htail minPrecedence (.binary found.1 left right)

/-- **Reading an expression does not ask for places.** -/
theorem follows_read (levels minPrecedence : Nat) :
    Follows f (mapTokens f) (read levels minPrecedence) (read levels minPrecedence) := by
  obtain ⟨hprimary, htail⟩ := follows_readPrimary_and_readTail hf levels
  exact hprimary.bind fun first => htail minPrecedence first

end Expr

/-! ## Templates -/

namespace Template

/-- The section with every token changed. -/
def Section.mapTokens (f : Token → Token) (s : Section) : Section :=
  ⟨Template.mapTokens f s.nodes, s.endTag.map f⟩

/-- The item with every token changed. -/
def Item.mapTokens (f : Token → Token) : Item → Item
  | .skip => .skip
  | .node n => .node (n.mapTokens f)
  | .endTag keyword => .endTag (f keyword)

section Readers

variable {f : Token → Token} (hf : Relocates f)

include hf

theorem follows_readPart {part : StatementPart} {accepts : Token → Bool}
    (haccepts : ∀ t, accepts (f t) = accepts t) (opener : Token) :
    Follows f f (readPart part opener accepts) (readPart part (f opener) accepts) := by
  refine follows_next?_bind (follows_refuse rfl) fun t => ?_
  dsimp only
  rw [haccepts, hf.text]
  split
  · exact follows_pure rfl
  · exact follows_refuse rfl

theorem follows_readWord (part : StatementPart) (opener : Token) :
    Follows f f (readWord part opener) (readWord part (f opener)) :=
  follows_readPart hf (fun t => by rw [hf.kind]) opener

theorem follows_readBlockEnd (levels : Nat) :
    Follows f (Expr.mapTokens f) (readBlockEnd levels) (readBlockEnd levels) :=
  (Expr.follows_read hf levels 0).bind fun _ =>
    (follows_expectBlockEnd hf .statement).bind fun _ => follows_pure rfl

theorem follows_readBody {body movedBody : TokenReader Section}
    (h : Follows f (Section.mapTokens f) body movedBody) (opener keyword : Token) :
    Follows f (mapTokens f) (readBody body opener keyword)
      (readBody movedBody (f opener) (f keyword)) := by
  refine h.bind fun inner => ?_
  obtain ⟨nodes, endTag⟩ := inner
  rw [hf.text]
  cases endTag with
  | none => exact follows_refuse rfl
  | some tag => exact follows_pure rfl

theorem follows_readAssignment (levels : Nat) (opener : Token) :
    Follows f (Node.mapTokens f) (readAssignment levels opener)
      (readAssignment levels (f opener)) := by
  refine (follows_readWord hf .variableName opener).bind fun name => ?_
  rw [hf.text]
  refine (follows_readPart hf (fun t => by rw [hf.kind]) opener).bind fun sign => ?_
  rw [hf.text]
  exact (follows_readBlockEnd hf levels).bind fun _ => follows_pure rfl

section Bodies

variable {body movedBody : TokenReader Section} (hbody : Follows f (Section.mapTokens f) body
  movedBody) (levels : Nat) (opener : Token)

include hbody

theorem follows_readConditional (keyword : Token) :
    Follows f (Node.mapTokens f) (readConditional levels body opener keyword)
      (readConditional levels movedBody (f opener) (f keyword)) :=
  (follows_readBlockEnd hf levels).bind fun _ =>
    (follows_readBody hf hbody opener keyword).bind fun _ => follows_pure rfl

theorem follows_readLoop (keyword : Token) :
    Follows f (Node.mapTokens f) (readLoop levels body opener keyword)
      (readLoop levels movedBody (f opener) (f keyword)) := by
  refine (follows_readWord hf .loopVariable opener).bind fun name => ?_
  rw [hf.text]
  exact (follows_readPart hf (fun t => hf.isExactly t .word "in") opener).bind fun _ =>
    (follows_readBlockEnd hf levels).bind fun _ =>
      (follows_readBody hf hbody opener keyword).bind fun _ => follows_pure rfl

theorem follows_readStatement :
    Follows f (Item.mapTokens f) (readStatement levels body opener)
      (readStatement levels movedBody (f opener)) := by
  refine (follows_readWord hf .keyword opener).bind fun keyword => ?_
  rw [hf.text]
  split
  -- an assignment
  · exact (follows_readAssignment hf levels opener).bind fun _ => follows_pure rfl
  · split
    -- a conditional
    · exact (follows_readConditional hf hbody levels opener keyword).bind fun _ =>
        follows_pure rfl
    · split
      -- a loop
      · exact (follows_readLoop hf hbody levels opener keyword).bind fun _ => follows_pure rfl
      · split
        -- an end tag
        · exact (follows_expectBlockEnd hf .statement).bind fun _ => follows_pure rfl
        · exact follows_refuse rfl

end Bodies

theorem follows_readItem {body movedBody : Token → TokenReader Section}
    (hbody : ∀ opener, Follows f (Section.mapTokens f) (body opener) (movedBody (f opener)))
    (levels : Nat) (t : Token) :
    Follows f (Item.mapTokens f) (readItem levels body t) (readItem levels movedBody (f t)) := by
  unfold readItem
  rw [hf.isDelimiter, hf.isDelimiter, hf.kind, hf.text]
  split
  · exact follows_readStatement hf (hbody t) levels t
  · split
    · exact (Expr.follows_read hf levels 0).bind fun _ =>
        (follows_expectBlockEnd hf .output).bind fun _ => follows_pure rfl
    · split
      · exact follows_pure rfl
      · exact follows_pure rfl

omit hf in
theorem follows_readItems {item movedItem : Token → TokenReader Item}
    (h : ∀ t, Follows f (Item.mapTokens f) (item t) (movedItem (f t))) (count : Nat) :
    Follows f (Section.mapTokens f) (readItems item count) (readItems movedItem count) := by
  induction count with
  | zero => exact follows_pure rfl
  | succ count ih =>
      refine follows_next?_bind (follows_pure rfl) fun t => ?_
      refine (h t).bind fun led => ?_
      cases led with
      | skip => exact ih
      | endTag keyword => exact follows_pure rfl
      | node n => exact ih.bind fun more => follows_pure rfl

theorem follows_readSection {body movedBody : Token → TokenReader Section}
    (hbody : ∀ opener, Follows f (Section.mapTokens f) (body opener) (movedBody (f opener)))
    (levels : Nat) :
    Follows f (Section.mapTokens f) (readSection levels body) (readSection levels movedBody) := by
  intro tokens
  rw [readSection, readSection, List.length_map]
  exact follows_readItems (follows_readItem hf hbody levels) tokens.length tokens

/-- Nodes are read without asking for places, at every level. -/
theorem follows_readNodes (levels : Nat) :
    Follows f (Section.mapTokens f) (readNodes levels) (readNodes levels) := by
  induction levels with
  | zero => exact follows_readSection hf (fun _ => follows_refuse rfl) 0
  | succ levels ih => exact follows_readSection hf (fun _ => ih) (levels + 1)

/-- **Reading a template does not ask for places.** -/
theorem follows_read (levels : Nat) :
    Follows f (mapTokens f) (read levels) (read levels) := by
  refine (follows_readNodes hf levels).bind fun whole => ?_
  obtain ⟨nodes, endTag⟩ := whole
  cases endTag with
  | none => exact follows_pure rfl
  | some keyword =>
      refine follows_refuse ?_
      rw [hf.text]
      rfl

end Readers

end Template

end TemplateLang

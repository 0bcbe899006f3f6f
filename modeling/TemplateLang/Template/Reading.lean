import TemplateLang.Expr.Reading
import TemplateLang.Template.Basic

/-!
# TemplateLang.Template.Reading — templates from tokens

A template is read node by node. Outside blocks every token that is not a delimiter is literal
text, and a closer that closes nothing is passed over. An output block holds one expression. A
statement block begins with a keyword: `set` assigns, `if` and `for` begin a body, and every
keyword that starts with `end` closes the innermost body, whichever statement began it.

A body takes one level of the depth limit, asked for at the opener of its statement once the whole
block has been read; what stands in the body has one level less. So the reader of a body is the
reader of nodes with one level less, and `readNodes` recurses on the levels. Within one level the
nodes follow one another, each of at least one token, and `readItems` counts the tokens down.
-/

namespace TemplateLang

open TokenReader

namespace Template

/-- The nodes up to an end tag or to the end of the tokens, with the end tag if there was one. -/
structure Section where
  nodes : List Node
  endTag : Option Token

/-- What one token outside blocks leads to. -/
inductive Item where
  /-- Nothing. -/
  | skip
  /-- A node. -/
  | node (n : Node)
  /-- The end tag with this keyword. -/
  | endTag (keyword : Token)

/-! ## Parts of statements -/

/-- Reads the next token as the given part if it is of that kind and `accepts` it. When the tokens
end instead, the fault is placed at the opener of the block. -/
def readPart (part : StatementPart) (opener : Token) (accepts : Token → Bool) :
    TokenReader Token := do
  match ← next? with
  | none => refuse (.malformed (.missing part) opener)
  | some t =>
      if accepts t then pure t
      else refuse (.malformed (.misplaced part t.text) t)

/-- Reads one token as a word. -/
def readWord (part : StatementPart) (opener : Token) : TokenReader Token :=
  readPart part opener fun t => t.kind == .word

/-- Reads an expression and the closer of its statement block. -/
def readBlockEnd (levels : Nat) : TokenReader Expr := do
  let value ← Expr.read levels 0
  expectBlockEnd .statement
  pure value

/-- Reads the body that `keyword` began, through its end tag. -/
def readBody (body : TokenReader Section) (opener keyword : Token) :
    TokenReader (List Node) := do
  let inner ← body
  match inner.endTag with
  | some _ => pure inner.nodes
  | none => refuse (.malformed (.neverClosed keyword.text) opener)

/-! ## Statements -/

/-- Reads what follows the keyword `set`. -/
def readAssignment (levels : Nat) (opener : Token) : TokenReader Node := do
  let name ← readWord .variableName opener
  let sign ← readPart (.assignmentSign name.text) opener fun t => t.kind == .operator
  let value ← readBlockEnd levels
  pure (.assign name.text sign.text value)

/-- Reads what follows the keyword `if`. -/
def readConditional (levels : Nat) (body : TokenReader Section) (opener keyword : Token) :
    TokenReader Node := do
  let condition ← readBlockEnd levels
  let nodes ← readBody body opener keyword
  pure (.conditional condition nodes)

/-- Reads what follows the keyword `for`. -/
def readLoop (levels : Nat) (body : TokenReader Section) (opener keyword : Token) :
    TokenReader Node := do
  let name ← readWord .loopVariable opener
  let _ ← readPart (.loopIn name.text) opener fun t => t.isExactly .word "in"
  let items ← readBlockEnd levels
  let nodes ← readBody body opener keyword
  pure (.loop name.text items nodes)

/-- Whether a keyword is that of an end tag. -/
def isEndKeyword (keyword : String) : Bool :=
  "end".toList.isPrefixOf keyword.toList

/-- Reads a statement behind its opener. -/
def readStatement (levels : Nat) (body : TokenReader Section) (opener : Token) :
    TokenReader Item := do
  let keyword ← readWord .keyword opener
  if keyword.text == "set" then
    let n ← readAssignment levels opener
    pure (.node n)
  else if keyword.text == "if" then
    let n ← readConditional levels body opener keyword
    pure (.node n)
  else if keyword.text == "for" then
    let n ← readLoop levels body opener keyword
    pure (.node n)
  else if isEndKeyword keyword.text then
    expectBlockEnd .statement
    pure (.endTag keyword)
  else refuse (.malformed (.unknownStatement keyword.text) keyword)

/-- Reads what the token `t` leads to. -/
def readItem (levels : Nat) (body : Token → TokenReader Section) (t : Token) :
    TokenReader Item := do
  if t.isDelimiter (Delimiter.opening .statement).text then
    readStatement levels (body t) t
  else if t.isDelimiter (Delimiter.opening .output).text then
    let value ← Expr.read levels 0
    expectBlockEnd .output
    pure (.node (.output value))
  else if t.kind == .delimiter then pure .skip
  else pure (.node (.literal t.text))

/-! ## Nodes -/

/-- Reads nodes, at most `count` items, with `item` as the reader behind each first token. -/
def readItems (item : Token → TokenReader Item) : Nat → TokenReader Section
  | 0 => pure ⟨[], none⟩
  | count + 1 => do
      match ← next? with
      | none => pure ⟨[], none⟩
      | some t =>
          match ← item t with
          | .endTag keyword => pure ⟨[], some keyword⟩
          | .skip => readItems item count
          | .node n =>
              let more ← readItems item count
              pure ⟨n :: more.nodes, more.endTag⟩

/-- Reads nodes up to an end tag or to the end of the tokens; `body` reads what a statement
encloses, given the opener of its block. There are no more items than tokens. -/
def readSection (levels : Nat) (body : Token → TokenReader Section) : TokenReader Section :=
  fun tokens => readItems (readItem levels body) tokens.length tokens

/-- Reads nodes, with bodies as long as there are levels for them. -/
def readNodes : Nat → TokenReader Section
  | 0 => readSection 0 fun opener => refuse (.tooDeep opener)
  | levels + 1 => readSection (levels + 1) fun _ => readNodes levels

/-- Reads a template. Every token has to be used up: an end tag outside every body is a fault. -/
def read (levels : Nat) : TokenReader Template := do
  let whole ← readNodes levels
  match whole.endTag with
  | some keyword => refuse (.malformed (.strayEnd keyword.text) keyword)
  | none => pure whole.nodes

/-! ## Equations -/

@[simp] theorem readItems_nil (item : Token → TokenReader Item) (count : Nat) :
    readItems item count [] = .accepted ⟨[], none⟩ [] := by
  cases count <;> rfl

/-- How nodes go on, by what the first token leads to. -/
theorem readItems_cons (item : Token → TokenReader Item) (count : Nat) (t : Token)
    (rest : List Token) :
    readItems item (count + 1) (t :: rest) =
      (item t rest).andThen fun found left =>
        match found with
        | .endTag keyword => .accepted ⟨[], some keyword⟩ left
        | .skip => readItems item count left
        | .node n =>
            (readItems item count left).andThen fun more left =>
              .accepted ⟨n :: more.nodes, more.endTag⟩ left := by
  rw [readItems]
  simp only [bind_apply, next?_cons, Outcome.andThen_accepted]
  cases item t rest with
  | refused fault left => rfl
  | accepted found left => cases found <;> rfl

/-! ## What reading leaves

A reader of items that leaves a suffix cannot be called more often than there are tokens, so any
count from the number of tokens on gives the same section, and the bound in `readSection` cuts
nothing off. -/

theorem leavesSuffix_readItems {item : Token → TokenReader Item}
    (h : ∀ t, LeavesSuffix (item t)) (count : Nat) : LeavesSuffix (readItems item count) := by
  induction count with
  | zero => exact leavesSuffix_pure _
  | succ count ih =>
      refine leavesSuffix_next?.bind fun found => ?_
      cases found with
      | none => exact leavesSuffix_pure _
      | some t =>
          refine (h t).bind fun led => ?_
          cases led with
          | skip => exact ih
          | endTag keyword => exact leavesSuffix_pure _
          | node n => exact ih.bind fun more => leavesSuffix_pure _

/-- Every count that is at least the number of tokens gives the same section. -/
theorem readItems_eq_of_length_le {item : Token → TokenReader Item}
    (h : ∀ t, LeavesSuffix (item t)) {count other : Nat} {tokens : List Token}
    (hc : tokens.length ≤ count) (ho : tokens.length ≤ other) :
    readItems item count tokens = readItems item other tokens := by
  induction count generalizing other tokens with
  | zero =>
      cases tokens with
      | nil => simp
      | cons t rest => simp at hc
  | succ count ih =>
      cases tokens with
      | nil => simp
      | cons t rest =>
          cases other with
          | zero => simp at ho
          | succ other =>
              rw [readItems_cons, readItems_cons]
              have hs := h t rest
              cases hi : item t rest with
              | refused fault left => rfl
              | accepted found left =>
                  rw [hi] at hs
                  have hl : left.length ≤ rest.length := hs.length_le
                  simp only [List.length_cons] at hc ho
                  have hrest : readItems item count left = readItems item other left :=
                    ih (by omega) (by omega)
                  cases found with
                  | endTag keyword => rfl
                  | skip => exact hrest
                  | node n => simp only [Outcome.andThen_accepted, hrest]

theorem leavesSuffix_readPart (part : StatementPart) (opener : Token) (accepts : Token → Bool) :
    LeavesSuffix (readPart part opener accepts) := by
  refine leavesSuffix_next?.bind fun found => ?_
  cases found with
  | none => exact leavesSuffix_refuse _
  | some t =>
      dsimp only
      split
      · exact leavesSuffix_pure _
      · exact leavesSuffix_refuse _

theorem leavesSuffix_readBlockEnd (levels : Nat) : LeavesSuffix (readBlockEnd levels) :=
  (Expr.leavesSuffix_read levels 0).bind fun value =>
    (leavesSuffix_expectBlockEnd .statement).bind fun _ => leavesSuffix_pure value

theorem leavesSuffix_readBody {body : TokenReader Section} (h : LeavesSuffix body)
    (opener keyword : Token) : LeavesSuffix (readBody body opener keyword) := by
  refine h.bind fun inner => ?_
  split
  · exact leavesSuffix_pure _
  · exact leavesSuffix_refuse _

theorem leavesSuffix_readStatement (levels : Nat) {body : TokenReader Section}
    (h : LeavesSuffix body) (opener : Token) :
    LeavesSuffix (readStatement levels body opener) := by
  refine (leavesSuffix_readPart .keyword opener _).bind fun keyword => ?_
  have hbody := leavesSuffix_readBody h opener keyword
  split
  -- an assignment
  · exact ((leavesSuffix_readPart _ opener _).bind fun name =>
      (leavesSuffix_readPart _ opener _).bind fun sign =>
        (leavesSuffix_readBlockEnd levels).bind fun value => leavesSuffix_pure _).bind
          fun n => leavesSuffix_pure _
  · split
    -- a conditional
    · exact ((leavesSuffix_readBlockEnd levels).bind fun condition =>
        hbody.bind fun nodes => leavesSuffix_pure _).bind fun n => leavesSuffix_pure _
    · split
      -- a loop
      · exact ((leavesSuffix_readPart _ opener _).bind fun name =>
          (leavesSuffix_readPart _ opener _).bind fun _ =>
            (leavesSuffix_readBlockEnd levels).bind fun items =>
              hbody.bind fun nodes => leavesSuffix_pure _).bind fun n => leavesSuffix_pure _
      · split
        -- an end tag
        · exact (leavesSuffix_expectBlockEnd .statement).bind fun _ => leavesSuffix_pure _
        · exact leavesSuffix_refuse _

theorem leavesSuffix_readItem (levels : Nat) {body : Token → TokenReader Section}
    (h : ∀ opener, LeavesSuffix (body opener)) (t : Token) :
    LeavesSuffix (readItem levels body t) := by
  unfold readItem
  split
  · exact leavesSuffix_readStatement levels (h t) t
  · split
    · exact (Expr.leavesSuffix_read levels 0).bind fun value =>
        (leavesSuffix_expectBlockEnd .output).bind fun _ => leavesSuffix_pure _
    · split
      · exact leavesSuffix_pure _
      · exact leavesSuffix_pure _

theorem leavesSuffix_readSection (levels : Nat) {body : Token → TokenReader Section}
    (h : ∀ opener, LeavesSuffix (body opener)) : LeavesSuffix (readSection levels body) :=
  fun tokens =>
    leavesSuffix_readItems (fun t => leavesSuffix_readItem levels h t) tokens.length tokens

/-- What reading nodes leaves is the end of their tokens, at every level. -/
theorem leavesSuffix_readNodes (levels : Nat) : LeavesSuffix (readNodes levels) := by
  induction levels with
  | zero => exact leavesSuffix_readSection 0 fun opener => leavesSuffix_refuse _
  | succ levels ih => exact leavesSuffix_readSection (levels + 1) fun _ => ih

end Template

end TemplateLang

import TemplateLang.Proofs.Depth.Limit

/-!
# TemplateLang.Proofs.Depth.Counter — reading by calls, with a counter of levels

The readers of expressions and nodes are given the levels that are left and recurse on them. This
module does the same reading in the way of a machine: by calls, with a counter of the levels in use
beside the tokens. A group, an output opener and a body count one up and, once they are read or
refused, one down (`enclosed`); an operator only counts one up, and an expression sets the counter
back to where it stood when it began (`restoring`). Beside its outcome a reader shows the counter
behind it and every value that the counter was given on the way.

What the counter is stays open (`LevelCounter`). It can be a number, which has no upper end, or a
word of 64 bits, from whose largest value there is no counting up; below zero neither goes. Where
the counter has no next value reading breaks off, which is no outcome of reading.

`Call.steps` says what a call does by means of further calls, and `Call.perform` lets calls make
calls, as many inside one another as allowed. The calls that others make read nodes, an expression or
a primary; the blocks and bodies among nodes are read on the spot. Nothing here relates the counter to
the levels that are left: a call that gave no level back, gave back one that it never took, or took
none for the calls that it makes could be written just as well.
-/

namespace TemplateLang

open TokenReader

/-! ## Counters -/

/-- Why reading by calls breaks off. -/
inductive Breach where
  /-- More calls would be active at once than allowed. -/
  | outOfCalls
  /-- The counter would pass its largest value. -/
  | overflow
  /-- The counter would fall below zero. -/
  | underflow
deriving DecidableEq

/-- A counter of levels. Counting up has a result where a larger value exists, and is undone by
counting down. -/
class LevelCounter (ν : Type) where
  /-- The number of levels that the counter shows. -/
  toNat : ν → Nat
  up : ν → Except Breach ν
  down : ν → Except Breach ν
  exists_up_of_lt {depth limit : ν} : toNat depth < toNat limit → ∃ next, up depth = .ok next
  toNat_of_up {depth next : ν} : up depth = .ok next → toNat next = toNat depth + 1
  down_of_up {depth next : ν} : up depth = .ok next → down next = .ok depth

namespace LevelCounter

/-- A number, which can always be counted up. -/
instance : LevelCounter Nat where
  toNat := id
  up depth := .ok (depth + 1)
  down
    | 0 => .error .underflow
    | depth + 1 => .ok depth
  exists_up_of_lt := by
    intro depth _ _
    exact ⟨depth + 1, rfl⟩
  toNat_of_up := by
    rintro depth _ ⟨⟩
    rfl
  down_of_up := by
    rintro depth _ ⟨⟩
    rfl

/-- Counts a machine word up, which must not wrap around. -/
def upWord (depth : UInt64) : Except Breach UInt64 :=
  if depth.toNat + 1 < UInt64.size then .ok (depth + 1) else .error .overflow

/-- Counts a machine word down, which must not wrap around either. -/
def downWord (depth : UInt64) : Except Breach UInt64 :=
  if depth = 0 then .error .underflow else .ok (depth - 1)

theorem eq_add_one_of_upWord {depth next : UInt64} (h : upWord depth = .ok next) :
    next = depth + 1 ∧ next.toNat = depth.toNat + 1 := by
  unfold upWord at h
  split at h
  · rename_i hroom
    cases h
    refine ⟨rfl, ?_⟩
    rw [UInt64.toNat_add, UInt64.toNat_one]
    exact Nat.mod_eq_of_lt hroom
  · cases h

theorem downWord_of_upWord {depth next : UInt64} (h : upWord depth = .ok next) :
    downWord next = .ok depth := by
  obtain ⟨rfl, hnat⟩ := eq_add_one_of_upWord h
  have hpos : depth + 1 ≠ 0 := by
    intro hzero
    rw [hzero] at hnat
    cases hnat
  rw [downWord, if_neg hpos, UInt64.add_sub_cancel]

instance : LevelCounter UInt64 where
  toNat := UInt64.toNat
  up := upWord
  down := downWord
  exists_up_of_lt := by
    intro depth limit hlt
    have hlimit : limit.toNat < UInt64.size := limit.toNat_lt
    exact ⟨depth + 1, if_pos (by omega)⟩
  toNat_of_up := by
    intro depth next hup
    exact (eq_add_one_of_upWord hup).2
  down_of_up := downWord_of_upWord

end LevelCounter

open LevelCounter (toNat up down)

/-! ## Counted readers -/

/-- What came of reading with a counter. -/
structure Course (ν α : Type) where
  outcome : Outcome α
  /-- The levels in use behind it. -/
  depth : ν
  /-- The values that the counter was given on the way, in order. -/
  taken : List ν

/-- A reader with a counter: from the levels in use and the tokens to what comes of reading, unless
reading breaks off. -/
def CountedReader (ν α : Type) := ν → List Token → Except Breach (Course ν α)

namespace CountedReader

variable {ν α β : Type}

instance : Monad (CountedReader ν) where
  pure value := fun depth tokens => .ok ⟨.accepted value tokens, depth, []⟩
  bind reader next := fun depth tokens =>
    match reader depth tokens with
    | .error breach => .error breach
    | .ok ⟨.refused fault rest, after, taken⟩ => .ok ⟨.refused fault rest, after, taken⟩
    | .ok ⟨.accepted value rest, after, taken⟩ =>
        match next value after rest with
        | .error breach => .error breach
        | .ok course => .ok { course with taken := taken ++ course.taken }

/-- Breaks off. -/
def broken (breach : Breach) : CountedReader ν α := fun _ _ => .error breach

/-- Reads without regard to the counter. -/
def lift (reader : TokenReader α) : CountedReader ν α := fun depth tokens =>
  .ok ⟨reader tokens, depth, []⟩

section Bind

variable {depth : ν} {tokens rest : List Token}

theorem bind_of_error {reader : CountedReader ν α} {breach : Breach}
    (h : reader depth tokens = .error breach) (next : α → CountedReader ν β) :
    (reader >>= next) depth tokens = .error breach := by
  simp only [bind, h]

theorem lift_bind_of_accepted {reader : TokenReader α} {value : α}
    (h : reader tokens = .accepted value rest) (next : α → CountedReader ν β) :
    (lift reader >>= next) depth tokens = next value depth rest := by
  simp only [bind, lift, h, List.nil_append]
  cases next value depth rest <;> rfl

end Bind

/-- Sets the counter back behind the reader, whether it accepts or refuses. -/
def restoring (reader : CountedReader ν α) : CountedReader ν α := fun depth tokens =>
  match reader depth tokens with
  | .error breach => .error breach
  | .ok ⟨outcome, _, taken⟩ => .ok ⟨outcome, depth, taken ++ [depth]⟩

section Levels

variable [LevelCounter ν] {limit depth above : ν}

/-- Counts a level up on behalf of the token, or refuses at it if the limit is reached. -/
def enter (limit : ν) (t : Token) : CountedReader ν Unit := fun depth tokens =>
  if toNat limit ≤ toNat depth then .ok ⟨.refused (.tooDeep t) tokens, depth, []⟩
  else
    match up depth with
    | .error breach => .error breach
    | .ok next => .ok ⟨.accepted () tokens, next, [next]⟩

theorem enter_of_lt (hfree : toNat depth < toNat limit) (hup : up depth = .ok above) (t : Token)
    (tokens : List Token) :
    enter limit t depth tokens = .ok ⟨.accepted () tokens, above, [above]⟩ := by
  rw [enter, if_neg (Nat.not_le.mpr hfree), hup]

theorem enter_of_le (hfull : toNat limit ≤ toNat depth) (t : Token) (tokens : List Token) :
    enter limit t depth tokens = .ok ⟨.refused (.tooDeep t) tokens, depth, []⟩ := by
  rw [enter, if_pos hfull]

/-- Counts a level down behind the reader, whether it accepts or refuses. -/
def thenLeave (reader : CountedReader ν α) : CountedReader ν α := fun depth tokens =>
  match reader depth tokens with
  | .error breach => .error breach
  | .ok ⟨outcome, after, taken⟩ =>
      match down after with
      | .error breach => .error breach
      | .ok next => .ok ⟨outcome, next, taken ++ [next]⟩

/-- Reads with a level in use that the token asks for. -/
def enclosed (limit : ν) (t : Token) (reader : CountedReader ν α) : CountedReader ν α := do
  enter limit t
  thenLeave reader

end Levels

end CountedReader

open CountedReader Template

/-! ## Calls -/

/-- A call that reads what it is named for. -/
inductive Call : Type → Type where
  | expression (minPrecedence : Nat) : Call Expr
  | primary : Call Expr
  /-- The body of the statement with the keyword. -/
  | body (opener keyword : Token) : Call (List Node)
  /-- The statement block behind its opener. -/
  | block (opener : Token) : Call Item
  /-- Nodes up to an end tag or to the end of the tokens. -/
  | nodes : Call Section
  | template : Call Template

namespace Call

variable {ν α : Type} [LevelCounter ν]

/-- Reads operators with their right operands, at most `turns` of them. Every operator keeps the
level that it asks for. -/
def climb (limit : ν) (operand : Nat → CountedReader ν Expr) (minPrecedence : Nat) :
    Nat → Expr → CountedReader ν Expr
  | 0, left => pure left
  | turns + 1, left => do
      match ← lift (Expr.takeOperator? minPrecedence) with
      | none => pure left
      | some (op, t) =>
          enter limit t
          let right ← operand (op.precedence + 1)
          climb limit operand minPrecedence turns (.binary op left right)

/-- A primary with its operators, of which there are no more than tokens. -/
def expressionSteps (limit : ν) (primary : CountedReader ν Expr)
    (operand : Nat → CountedReader ν Expr) (minPrecedence : Nat) : CountedReader ν Expr :=
  restoring do
    let first ← primary
    fun depth tokens => climb limit operand minPrecedence tokens.length first depth tokens

def primarySteps (limit : ν) (primary group : CountedReader ν Expr) : CountedReader ν Expr := do
  match ← lift next? with
  | none => lift (refuse .endsEarly)
  | some t =>
      if t.isCloser then lift (refuse (.missingOperand t))
      else if t.isDelimiter (Delimiter.opening .output).text then enclosed limit t primary
      else if t.isExactly .operator "(" then do
        let grouped ← enclosed limit t group
        lift Expr.expectGroupEnd
        pure grouped
      else if t.isOperand then pure (.leaf t)
      else lift (refuse (.unexpected .operand t))

def bodySteps (limit : ν) (nodes : CountedReader ν Section) (opener keyword : Token) :
    CountedReader ν (List Node) := do
  let inner ← enclosed limit opener nodes
  match inner.endTag with
  | some _ => pure inner.nodes
  | none => lift (refuse (.malformed (.neverClosed keyword.text) opener))

def blockSteps (limit : ν) (expr : CountedReader ν Expr) (nodes : CountedReader ν Section)
    (opener : Token) : CountedReader ν Item := do
  let keyword ← lift (readWord .keyword opener)
  if keyword.text == "set" then
    let name ← lift (readWord .variableName opener)
    let sign ← lift (readPart (.assignmentSign name.text) opener fun t => t.kind == .operator)
    let value ← expr
    lift (expectBlockEnd .statement)
    pure (.node (.assign name.text sign.text value))
  else if keyword.text == "if" then
    let condition ← expr
    lift (expectBlockEnd .statement)
    let inner ← bodySteps limit nodes opener keyword
    pure (.node (.conditional condition inner))
  else if keyword.text == "for" then
    let name ← lift (readWord .loopVariable opener)
    let _ ← lift (readPart (.loopIn name.text) opener fun t => t.isExactly .word "in")
    let items ← expr
    lift (expectBlockEnd .statement)
    let inner ← bodySteps limit nodes opener keyword
    pure (.node (.loop name.text items inner))
  else if isEndKeyword keyword.text then
    lift (expectBlockEnd .statement)
    pure (.endTag keyword)
  else lift (refuse (.malformed (.unknownStatement keyword.text) keyword))

/-- What the token `t` leads to outside blocks. -/
def itemSteps (limit : ν) (expr : CountedReader ν Expr) (nodes : CountedReader ν Section)
    (t : Token) : CountedReader ν Item := do
  if t.isDelimiter (Delimiter.opening .statement).text then blockSteps limit expr nodes t
  else if t.isDelimiter (Delimiter.opening .output).text then
    let value ← expr
    lift (expectBlockEnd .output)
    pure (.node (.output value))
  else if t.kind == .delimiter then pure .skip
  else pure (.node (.literal t.text))

/-- Reads nodes, at most `count` items. -/
def itemsSteps (item : Token → CountedReader ν Item) : Nat → CountedReader ν Section
  | 0 => pure ⟨[], none⟩
  | count + 1 => do
      match ← lift next? with
      | none => pure ⟨[], none⟩
      | some t =>
          match ← item t with
          | .endTag keyword => pure ⟨[], some keyword⟩
          | .skip => itemsSteps item count
          | .node n =>
              let more ← itemsSteps item count
              pure ⟨n :: more.nodes, more.endTag⟩

/-- Nodes, of which there are no more than tokens. -/
def nodesSteps (limit : ν) (expr : CountedReader ν Expr) (nodes : CountedReader ν Section) :
    CountedReader ν Section := fun depth tokens =>
  itemsSteps (itemSteps limit expr nodes) tokens.length depth tokens

def templateSteps (nodes : CountedReader ν Section) : CountedReader ν Template := do
  let whole ← nodes
  match whole.endTag with
  | some keyword => lift (refuse (.malformed (.strayEnd keyword.text) keyword))
  | none => pure whole.nodes

/-- **What a call does**, given how the calls that it makes are done. -/
def steps (limit : ν) (further : {β : Type} → Call β → CountedReader ν β) :
    Call α → CountedReader ν α
  | .expression minPrecedence =>
      expressionSteps limit (further .primary) (fun p => further (.expression p)) minPrecedence
  | .primary => primarySteps limit (further .primary) (further (.expression 0))
  | .body opener keyword => bodySteps limit (further .nodes) opener keyword
  | .block opener => blockSteps limit (further (.expression 0)) (further .nodes) opener
  | .nodes => nodesSteps limit (further (.expression 0)) (further .nodes)
  | .template => templateSteps (further .nodes)

/-- Does a call, as one of at most `calls` that are active. -/
def perform (limit : ν) : Nat → {α : Type} → Call α → CountedReader ν α
  | 0, _, _ => broken .outOfCalls
  | calls + 1, _, call => call.steps limit (perform limit calls)

/-- The reader that a call stands for, with the given number of levels left. -/
def plain (levels : Nat) : Call α → TokenReader α
  | .expression minPrecedence => Expr.read levels minPrecedence
  | .primary => Expr.readPrimary levels
  | .body opener keyword => readBody (readEnclosed levels opener) opener keyword
  | .block opener => readStatement levels (readEnclosed levels opener) opener
  | .nodes => readNodes levels
  | .template => Template.read levels

/-- At most so many calls are active inside one another, the call itself included, when no level is
left. -/
def rank : Call α → Nat
  | .primary => 1
  | .expression _ => 2
  | .body _ _ => 2
  | .block _ => 3
  | .nodes => 3
  | .template => 4

end Call

/-! ## Streams -/

namespace TokenStream

/-- The result of an outcome, and the stream with the cursor where the outcome leaves it. -/
def conclude {α : Type} (options : Options) (s : TokenStream) :
    Outcome α → Except CompileError α × TokenStream
  | .accepted value rest => (.ok value, s.leaving rest.length)
  | .refused fault rest =>
      (.error (fault.toError s.source options.maxDepth), s.leaving rest.length)

theorem read_eq_conclude {α : Type} (options : Options) (reader : Nat → TokenReader α)
    (s : TokenStream) :
    s.read options reader = s.conclude options (reader options.maxDepth s.remaining) := by
  unfold read conclude
  split <;> simp_all

/-- Reads from the cursor on, with no level in use at first. -/
def readCounted {α : Type} (options : Options) (reader : CountedReader Nat α) (s : TokenStream) :
    Except Breach (Except CompileError α × TokenStream) :=
  match reader 0 s.remaining with
  | .error breach => .error breach
  | .ok course => .ok (s.conclude options course.outcome)

/-- Reads an expression by at most `calls` calls that are active at once. -/
def readExprWithin (options : Options) (calls minPrecedence : Nat) (s : TokenStream) :
    Except Breach (Except CompileError Expr × TokenStream) :=
  s.readCounted options ((Call.expression minPrecedence).perform options.maxDepth calls)

/-- Reads the rest of the stream as a template, its nodes by at most `calls` calls that are active at
once. -/
def readTemplateWithin (options : Options) (calls : Nat) (s : TokenStream) :
    Except Breach (Except CompileError Template × TokenStream) :=
  s.readCounted options (Call.templateSteps (Call.nodes.perform options.maxDepth calls))

end TokenStream

end TemplateLang

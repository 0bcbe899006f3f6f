import TemplateLang.Proofs.Depth.Limit
import TemplateLang.Proofs.Scan.Segmentation
import TemplateLang.Proofs.Tokens

/-!
# TemplateLang.Proofs.Diagnostic.Anchor — the faults of a tokenized source are about its tokens

A reader that finds no more tokens has a fault for that too: an operand, a parenthesis, a closing
delimiter or a part of a statement is missing at the end. The tokens of a source never lead there. A
source tokenizes only if its text ends outside every block, so whoever reads inside a block has its
closing delimiter ahead, and stops at it at the latest. `Settled` is this property of the tokens
ahead, together with the fact that operators stand inside blocks only, and `Anchored` lists the
faults that are left, each about a token.

The invariant is carried through the readers by `Keeps`: a reader that begins inside a block, or
outside, either ends with tokens ahead that are settled again, or refuses with an anchored fault.
It is closed under sequencing, so that the proofs follow the definitions of the readers.
-/

namespace TemplateLang

/-! ## Tokens ahead -/

/-- **`Settled inside tokens`** — the tokens ahead, inside a block or outside, are such as a scan
leaves them: operators stand inside blocks, and the last block is closed. -/
inductive Settled : Bool → List Token → Prop
  | nil : Settled false []
  | cons {inside : Bool} {t : Token} {ts : List Token}
      (hoperator : t.kind = .operator → inside = true) :
      Settled (t.insideBehind inside) ts → Settled inside (t :: ts)

/-- A scan that ends outside every block and string leaves settled tokens. -/
theorem Settled.of_runs {mode : Mode} {offset : Nat} {cs : List Char} {s : Scan}
    (h : Scan.Runs mode offset cs s) (hend : s.ending = .complete) :
    Settled mode.isBlock s.tokens := by
  induction h with
  | done mode offset =>
      cases mode with
      | literal => exact .nil
      | block kind start => cases hend
  | delimiter d _ ih =>
      refine .cons nofun ?_
      rw [Token.insideBehind_delimiter]
      exact ih hend
  | blank _ _ _ ih => exact ih hend
  | operator hmode _ _ _ _ _ ih =>
      refine .cons (fun _ => hmode) ?_
      rw [Token.insideBehind_of_kind (by simp)]
      exact ih hend
  | quoted _ _ _ ih =>
      refine .cons nofun ?_
      rw [Token.insideBehind_of_kind (by simp)]
      exact ih hend
  | unclosed => cases hend
  | @plain mode offset plain rest s _ _ _ ih =>
      have hkind : mode.plainKind ≠ .operator ∧ mode.plainKind ≠ .delimiter := by
        cases mode <;> exact ⟨nofun, nofun⟩
      refine .cons (fun h => absurd h hkind.1) ?_
      rw [Token.insideBehind_of_kind hkind.2]
      exact ih hend

/-- **`Ahead all inside tokens`** — the tokens ahead are settled, and all of them are among
`all`. -/
structure Ahead (all : List Token) (inside : Bool) (tokens : List Token) : Prop where
  settled : Settled inside tokens
  mem : ∀ t ∈ tokens, t ∈ all

namespace Ahead

variable {all rest : List Token} {inside : Bool} {t : Token}

/-- Inside a block there is always a token ahead. -/
theorem not_nil_inside : ¬ Ahead all true [] := by
  rintro ⟨hsettled, -⟩
  cases hsettled

theorem head (h : Ahead all inside (t :: rest)) : t ∈ all :=
  h.mem t List.mem_cons_self

theorem tail (h : Ahead all inside (t :: rest)) : Ahead all (t.insideBehind inside) rest := by
  obtain ⟨hsettled, hmem⟩ := h
  cases hsettled with
  | cons _ hrest => exact ⟨hrest, fun u hu => hmem u (List.mem_cons_of_mem t hu)⟩

theorem inside_of_operator (h : Ahead all inside (t :: rest)) (ht : t.kind = .operator) :
    inside = true := by
  obtain ⟨hsettled, -⟩ := h
  cases hsettled with
  | cons hoperator _ => exact hoperator ht

end Ahead

/-! ## Faults about tokens -/

/-- **`fault.Anchored all`** — the fault is about one of the tokens, and tells its text where it
tells a text. Left out are the faults of reading past the last token. -/
inductive Fault.Anchored (all : List Token) : Fault → Prop
  | missingOperand {closer : Token} (h : closer ∈ all) (hcloser : closer.isCloser = true) :
      Anchored all (.missingOperand closer)
  | unexpected (expected : Expectation) {found : Token} (h : found ∈ all) :
      Anchored all (.unexpected expected found)
  | misplaced (part : StatementPart) {found : Token} (h : found ∈ all) :
      Anchored all (.malformed (.misplaced part found.text) found)
  | unknownStatement {keyword : Token} (h : keyword ∈ all) :
      Anchored all (.malformed (.unknownStatement keyword.text) keyword)
  | neverClosed (keyword : String) {opener : Token} (h : opener ∈ all) :
      Anchored all (.malformed (.neverClosed keyword) opener)
  | strayEnd {keyword : Token} (h : keyword ∈ all) :
      Anchored all (.malformed (.strayEnd keyword.text) keyword)
  | tooDeep {place : Token} (h : place ∈ all) : Anchored all (.tooDeep place)

/-- **`o.Lands all after P`** — a value has the property, and the tokens left are ahead, inside a
block or outside; a fault is anchored. -/
def Outcome.Lands {α : Type} (all : List Token) (after : Bool) (P : α → Prop) : Outcome α → Prop
  | .accepted value rest => P value ∧ Ahead all after rest
  | .refused fault _ => fault.Anchored all

namespace TokenReader

/-- **`Keeps all before after P reader`** — from tokens ahead inside a block or outside (`before`),
the reader comes to tokens ahead (`after`) and a value with the property, or to an anchored
fault. -/
def Keeps {α : Type} (all : List Token) (before after : Bool) (P : α → Prop)
    (reader : TokenReader α) : Prop :=
  ∀ tokens, Ahead all before tokens → (reader tokens).Lands all after P

variable {α β : Type} {all : List Token} {before mid after : Bool} {P : α → Prop} {Q : β → Prop}

theorem keeps_pure {value : α} (h : P value) : Keeps all after after P (pure value) :=
  fun _ hahead => ⟨h, hahead⟩

theorem keeps_refuse {fault : Fault} (h : fault.Anchored all) :
    Keeps all before after P (refuse fault) :=
  fun _ _ => h

theorem Keeps.bind {reader : TokenReader α} {next : α → TokenReader β}
    (h : Keeps all before mid P reader)
    (hnext : ∀ value, P value → Keeps all mid after Q (next value)) :
    Keeps all before after Q (reader >>= next) := by
  intro tokens hahead
  have hfirst := h tokens hahead
  rw [bind_apply]
  cases ho : reader tokens with
  | refused fault rest =>
      rw [ho] at hfirst
      exact hfirst
  | accepted value rest =>
      rw [ho] at hfirst
      exact hnext value hfirst.1 rest hfirst.2

/-- Inside a block the next token is there, and it says whether what follows is still inside. -/
theorem keeps_next?_bind {next : Option Token → TokenReader α}
    (hnone : before = false → Keeps all before after P (next none))
    (hsome : ∀ t ∈ all, Keeps all (t.insideBehind before) after P (next (some t))) :
    Keeps all before after P (next? >>= next) := by
  intro tokens hahead
  cases tokens with
  | nil =>
      cases before with
      | true => exact absurd hahead Ahead.not_nil_inside
      | false => exact hnone rfl [] hahead
  | cons t rest => exact hsome t hahead.head rest hahead.tail

/-- Inside a block there is a next token. -/
theorem keeps_next?_bind_inside {next : Option Token → TokenReader α}
    (hsome : ∀ t ∈ all, Keeps all (t.insideBehind true) after P (next (some t))) :
    Keeps all true after P (next? >>= next) :=
  keeps_next?_bind (fun h => absurd h (by decide)) hsome

theorem keeps_expectBlockEnd (kind : BlockKind) :
    Keeps all true false (fun _ => True) (expectBlockEnd kind) := by
  refine keeps_next?_bind_inside fun t ht => ?_
  dsimp only
  split
  · next hcloser =>
      rw [Token.insideBehind_of_isCloser (Token.isCloser_of_isDelimiter hcloser)]
      exact keeps_pure trivial
  · exact keeps_refuse (.unexpected _ ht)

end TokenReader

open TokenReader

variable {all : List Token}

/-! ## Expressions -/

namespace Expr

theorem keeps_expectGroupEnd : Keeps all true true (fun _ => True) expectGroupEnd := by
  refine keeps_next?_bind_inside fun t ht => ?_
  dsimp only
  split
  · next hclose =>
      have hkind : t.kind ≠ .delimiter := by
        rw [(Token.isExactly_iff.mp hclose).1]
        decide
      rw [Token.insideBehind_of_kind hkind]
      exact keeps_pure trivial
  · exact keeps_refuse (.unexpected _ ht)

/-- An operator is only taken inside a block, and leaves the place inside. -/
theorem keeps_takeOperator?_bind {α : Type} {P : α → Prop} {inside after : Bool}
    {minPrecedence : Nat} {next : Option (Operator × Token) → TokenReader α}
    (hnone : Keeps all inside after P (next none))
    (hsome : ∀ found : Operator × Token, inside = true → found.2 ∈ all →
      Keeps all true after P (next (some found))) :
    Keeps all inside after P (takeOperator? minPrecedence >>= next) := by
  intro tokens hahead
  rw [bind_apply]
  cases tokens with
  | nil => exact hnone [] hahead
  | cons t rest =>
      simp only [takeOperator?]
      split
      · next op hop =>
          split
          · exact hnone (t :: rest) hahead
          · have hkind : t.kind = .operator := by
              unfold Token.operator? at hop
              split at hop
              · assumption
              · cases hop
            have hinside := hahead.inside_of_operator hkind
            have hrest := hahead.tail
            rw [Token.insideBehind_of_kind (by rw [hkind]; decide), hinside] at hrest
            exact hsome (op, t) hinside hahead.head rest hrest
      · exact hnone (t :: rest) hahead

/-- What the readers of a primary and of a tail keep at some number of levels: inside a block a
primary is read to a place inside, and a tail stays where it is. -/
structure KeepsPlace (all : List Token) (levels : Nat) : Prop where
  primary : Keeps all true true (fun _ => True) (readPrimary levels)
  tail : ∀ inside minPrecedence left,
    Keeps all inside inside (fun _ => True) (readTail levels minPrecedence left)

theorem KeepsPlace.read {levels : Nat} (h : KeepsPlace all levels) (minPrecedence : Nat) :
    Keeps all true true (fun _ => True) (read levels minPrecedence) :=
  h.primary.bind fun first _ => h.tail true minPrecedence first

theorem keeps_readPrimary_of_inner {levels : Nat}
    (ih : ∀ inner, levels = inner + 1 → KeepsPlace all inner) :
    Keeps all true true (fun _ => True) (readPrimary levels) := by
  rw [readPrimary]
  refine keeps_next?_bind_inside fun t ht => ?_
  dsimp only
  split
  · next hcloser => exact keeps_refuse (.missingOperand ht hcloser)
  · split
    -- an output opener
    · next hopener =>
        rw [Token.insideBehind_of_isOpener (Token.isOpener_of_isDelimiter hopener)]
        cases levels with
        | zero => exact keeps_refuse (.tooDeep ht)
        | succ inner => exact (ih inner rfl).primary
    · split
      -- a group
      · next hopen =>
          rw [Token.insideBehind_of_kind (by rw [(Token.isExactly_iff.mp hopen).1]; decide)]
          cases levels with
          | zero => exact keeps_refuse (.tooDeep ht)
          | succ inner =>
              have hinner := ih inner rfl
              exact hinner.primary.bind fun first _ =>
                (hinner.tail true 0 first).bind fun grouped _ =>
                  keeps_expectGroupEnd.bind fun _ _ => keeps_pure trivial
      · split
        · next hoperand =>
            have hkind : t.kind ≠ .delimiter := by
              rcases Token.isOperand_iff.mp hoperand with h | h | h <;> rw [h] <;> decide
            rw [Token.insideBehind_of_kind hkind]
            exact keeps_pure trivial
        · exact keeps_refuse (.unexpected _ ht)

theorem keeps_readTail_of_inner {levels : Nat}
    (ih : ∀ inner, levels = inner + 1 → KeepsPlace all inner) (inside : Bool)
    (minPrecedence : Nat) (left : Expr) :
    Keeps all inside inside (fun _ => True) (readTail levels minPrecedence left) := by
  rw [readTail]
  refine keeps_takeOperator?_bind (keeps_pure trivial) fun found hinside hmem => ?_
  subst hinside
  cases levels with
  | zero => exact keeps_refuse (.tooDeep hmem)
  | succ inner =>
      have hinner := ih inner rfl
      exact hinner.primary.bind fun first _ =>
        (hinner.tail true (found.1.precedence + 1) first).bind fun right _ =>
          hinner.tail true minPrecedence (.binary found.1 left right)

theorem keepsPlace (all : List Token) (levels : Nat) : KeepsPlace all levels := by
  induction levels with
  | zero => exact ⟨keeps_readPrimary_of_inner nofun, keeps_readTail_of_inner nofun⟩
  | succ inner hinner =>
      have ih : ∀ i, inner + 1 = i + 1 → KeepsPlace all i := by
        intro i hi
        cases hi
        exact hinner
      exact ⟨keeps_readPrimary_of_inner ih, keeps_readTail_of_inner ih⟩

theorem keeps_read (levels minPrecedence : Nat) :
    Keeps all true true (fun _ => True) (read levels minPrecedence) :=
  (keepsPlace all levels).read minPrecedence

/-- Outside every block a primary is a token, or it begins with an output opener, behind which it
is read inside. -/
theorem lands_readPrimary_outside (levels : Nat) {t : Token} {rest : List Token}
    (hahead : Ahead all false (t :: rest)) :
    ∃ after, (readPrimary levels (t :: rest)).Lands all after fun _ => True := by
  have ht := hahead.head
  rw [readPrimary_cons]
  split
  · next hcloser => exact ⟨true, .missingOperand ht hcloser⟩
  · split
    -- an output opener
    · next hopener =>
        have hinside := hahead.tail
        rw [Token.insideBehind_of_isOpener (Token.isOpener_of_isDelimiter hopener)] at hinside
        cases levels with
        | zero => exact ⟨true, .tooDeep ht⟩
        | succ inner => exact ⟨true, (keepsPlace all inner).primary rest hinside⟩
    · split
      -- a group cannot begin here
      · next hopen =>
          have hinside := hahead.inside_of_operator (Token.isExactly_iff.mp hopen).1
          cases hinside
      · split
        · exact ⟨t.insideBehind false, trivial, hahead.tail⟩
        · exact ⟨true, .unexpected _ ht⟩

/-- The expression that a source begins with has anchored faults, although it begins outside every
block. -/
theorem lands_read_outside {levels minPrecedence : Nat} {tokens : List Token}
    (hahead : Ahead all false tokens) (hne : tokens ≠ []) :
    ∃ after, (read levels minPrecedence tokens).Lands all after fun _ => True := by
  cases tokens with
  | nil => exact absurd rfl hne
  | cons t rest =>
      obtain ⟨after, hfirst⟩ := lands_readPrimary_outside levels hahead
      refine ⟨after, ?_⟩
      unfold read
      rw [bind_apply]
      cases ho : readPrimary levels (t :: rest) with
      | refused fault left =>
          rw [ho] at hfirst
          exact hfirst
      | accepted first left =>
          rw [ho] at hfirst
          exact (keepsPlace all levels).tail after minPrecedence first left hfirst.2

end Expr

/-! ## Templates -/

namespace Template

section Statements

variable {levels : Nat} {body : TokenReader Section} {opener keyword : Token}

theorem keeps_readPart (part : StatementPart) (kind : TokenKind) {accepts : Token → Bool}
    (hkind : kind ≠ .delimiter) (haccepts : ∀ t, accepts t = true → t.kind = kind)
    (opener : Token) :
    Keeps all true true (fun t => t ∈ all) (readPart part opener accepts) := by
  refine keeps_next?_bind_inside fun t ht => ?_
  dsimp only
  split
  · next hacc =>
      rw [Token.insideBehind_of_kind (by rw [haccepts t hacc]; exact hkind)]
      exact keeps_pure ht
  · exact keeps_refuse (.misplaced part ht)

theorem keeps_readWord (part : StatementPart) (opener : Token) :
    Keeps all true true (fun t => t ∈ all) (readWord part opener) :=
  keeps_readPart part .word (by decide) (fun _ h => beq_iff_eq.mp h) opener

theorem keeps_readBlockEnd (levels : Nat) :
    Keeps all true false (fun _ => True) (readBlockEnd levels) :=
  (Expr.keeps_read levels 0).bind fun _ _ =>
    (keeps_expectBlockEnd .statement).bind fun _ _ => keeps_pure trivial

/-- **`EndsIn all s`** — the end tag of the section, if there is one, has its keyword in `all`. -/
def EndsIn (all : List Token) (s : Section) : Prop :=
  ∀ keyword, s.endTag = some keyword → keyword ∈ all

theorem keeps_readBody (hbody : Keeps all false false (EndsIn all) body) (hopener : opener ∈ all)
    (keyword : Token) :
    Keeps all false false (fun _ => True) (readBody body opener keyword) := by
  refine hbody.bind fun inner _ => ?_
  split
  · exact keeps_pure trivial
  · exact keeps_refuse (.neverClosed _ hopener)

/-- **`LeadsIn all item`** — an end tag has its keyword in `all`. -/
def LeadsIn (all : List Token) : Item → Prop
  | .endTag keyword => keyword ∈ all
  | _ => True

/-- A statement is read from inside its block to the place behind it, with its body if it has
one. -/
theorem keeps_readStatement (hbody : Keeps all false false (EndsIn all) body)
    (hopener : opener ∈ all) (levels : Nat) :
    Keeps all true false (LeadsIn all) (readStatement levels body opener) := by
  refine (keeps_readWord .keyword opener).bind fun keyword hkeyword => ?_
  have hinner := keeps_readBody hbody hopener keyword
  split
  -- an assignment
  · refine Keeps.bind (P := fun _ => True) ?_ fun _ _ => keeps_pure trivial
    exact (keeps_readWord .variableName opener).bind fun name _ =>
      (keeps_readPart _ .operator (by decide) (fun _ h => beq_iff_eq.mp h) opener).bind
        fun sign _ => (keeps_readBlockEnd levels).bind fun _ _ => keeps_pure trivial
  · split
    -- a conditional
    · refine Keeps.bind (P := fun _ => True) ?_ fun _ _ => keeps_pure trivial
      exact (keeps_readBlockEnd levels).bind fun _ _ => hinner.bind fun _ _ => keeps_pure trivial
    · split
      -- a loop
      · refine Keeps.bind (P := fun _ => True) ?_ fun _ _ => keeps_pure trivial
        exact (keeps_readWord .loopVariable opener).bind fun name _ =>
          (keeps_readPart _ .word (by decide)
            (fun _ h => (Token.isExactly_iff.mp h).1) opener).bind fun _ _ =>
              (keeps_readBlockEnd levels).bind fun _ _ =>
                hinner.bind fun _ _ => keeps_pure trivial
      · split
        -- an end tag
        · exact (keeps_expectBlockEnd .statement).bind fun _ _ => keeps_pure hkeyword
        · exact keeps_refuse (.unknownStatement hkeyword)

end Statements

theorem keeps_readItem {body : Token → TokenReader Section}
    (hbody : ∀ opener ∈ all, Keeps all false false (EndsIn all) (body opener)) (levels : Nat)
    {t : Token} (ht : t ∈ all) :
    Keeps all (t.insideBehind false) false (LeadsIn all) (readItem levels body t) := by
  unfold readItem
  split
  · next hstatement =>
      rw [Token.insideBehind_of_isOpener (Token.isOpener_of_isDelimiter hstatement)]
      exact keeps_readStatement (hbody t ht) ht levels
  · next hstatement =>
      split
      · next houtput =>
          rw [Token.insideBehind_of_isOpener (Token.isOpener_of_isDelimiter houtput)]
          exact (Expr.keeps_read levels 0).bind fun _ _ =>
            (keeps_expectBlockEnd .output).bind fun _ _ => keeps_pure trivial
      · next houtput =>
          have hopener : ¬ t.isOpener = true := by
            rw [Token.isOpener, Bool.or_eq_true]
            rintro (h | h)
            · exact houtput h
            · exact hstatement h
          rw [Token.insideBehind_false_of_not_isOpener hopener]
          split
          · exact keeps_pure trivial
          · exact keeps_pure trivial

theorem keeps_readItems {item : Token → TokenReader Item}
    (hitem : ∀ t ∈ all, Keeps all (t.insideBehind false) false (LeadsIn all) (item t))
    (count : Nat) : Keeps all false false (EndsIn all) (readItems item count) := by
  induction count with
  | zero => exact keeps_pure nofun
  | succ count ih =>
      refine keeps_next?_bind (fun _ => keeps_pure nofun) fun t ht => ?_
      refine (hitem t ht).bind fun led hled => ?_
      cases led with
      | skip => exact ih
      | endTag keyword =>
          refine keeps_pure ?_
          rintro _ ⟨⟩
          exact hled
      | node n => exact ih.bind fun more hmore => keeps_pure hmore

/-- Nodes are read from outside every block to outside every block, at every level. -/
theorem keeps_readNodes (levels : Nat) : Keeps all false false (EndsIn all) (readNodes levels) := by
  induction levels with
  | zero =>
      intro tokens
      refine keeps_readItems (fun t ht => keeps_readItem ?_ 0 ht) tokens.length tokens
      exact fun opener hopener => keeps_refuse (.tooDeep hopener)
  | succ levels ih =>
      intro tokens
      exact keeps_readItems (fun t ht => keeps_readItem (fun _ _ => ih) (levels + 1) ht)
        tokens.length tokens

theorem keeps_read (levels : Nat) : Keeps all false false (fun _ => True) (read levels) := by
  refine (keeps_readNodes levels).bind fun whole hwhole => ?_
  split
  · next keyword hkeyword => exact keeps_refuse (.strayEnd (hwhole keyword hkeyword))
  · exact keeps_pure trivial

end Template

end TemplateLang

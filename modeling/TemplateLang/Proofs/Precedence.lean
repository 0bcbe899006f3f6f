import TemplateLang.Proofs.Entry
import TemplateLang.Proofs.Evaluation
import TemplateLang.Proofs.Grammar.Parentheses
import TemplateLang.Proofs.Scan.Spacing

/-!
# TemplateLang.Proofs.Precedence — the law of precedence, from source text to value

An expression is written in an output block with parentheses only where they are needed, and with
any blanks between its tokens; what stands behind the block does not matter as long as the whole
text can be tokenized. Main statement (`compileExpr_respects_precedence`): compiling gives the
expression back, up to the places of its tokens, if there is a level for each of them, and its value
in a context is what its operators give from the bottom up, left operands first.

The proof passes through every stage: the block scans to its tokens (`OutputBlock.run`), these
derive the expression with the opener taken for a part of it (`derivesAnywhere_tokens`,
`behind_opener`), a derived phrase is read within its tokens (`read_of_derives`) and stops at the
closer, and evaluation follows the steps of the tree (`calculate_steps`).
-/

namespace TemplateLang

namespace Expr

/-- All tokens of a printable expression can be written. -/
theorem writable_tokens {e : Expr} (h : e.Printable) : ∀ t ∈ e.tokens, t.Writable := by
  refine forall_mem_tokens (P := Token.Writable) ?_ ?_ ?_ ?_ h
  · intro op
    refine ⟨isSign_symbol op, ?_⟩
    cases op <;> decide
  · exact ⟨by decide, by decide⟩
  · exact ⟨by decide, by decide⟩
  · rintro ⟨kind, text, offset⟩ (⟨rfl, hname⟩ | ⟨rfl, hquotable⟩)
    · exact hname
    · exact hquotable

/-- A reader that gets the tokens of an output block, wherever they are placed, reads the expression
and stops at the closer. -/
theorem read_outputBlock {e : Expr} (h : e.Printable) {opened closed : Token}
    {placed : List Token} (hopened : opened.Is .delimiter "\x7b\x7b")
    (hplaced : placed.map Token.unplaced = e.tokens.map Token.unplaced)
    (hclosed : closed.Is .delimiter "\x7d\x7d") {levels : Nat} (hlevels : e.tokens.length ≤ levels)
    (more : List Token) :
    ∃ e', read levels 0 (opened :: placed ++ closed :: more) = .accepted e' (closed :: more) ∧
      e'.unplaced = e.unplaced := by
  have hlength : placed.length = e.tokens.length := by
    simpa using congrArg List.length hplaced
  obtain ⟨e', he', hsame⟩ := (derivesAnywhere_tokens h).loosen (Nat.zero_le _) placed hplaced
  have hstops : Stops 0 (closed :: more) := stops_of_ne_symbol hclosed (by decide)
  refine ⟨e', read_of_derives (he'.behind_opener hopened) hstops ?_, hsame⟩
  rw [List.length_cons, hlength]
  exact Nat.succ_le_succ hlevels

end Expr

/-- The text of an output block alone can be tokenized. -/
theorem OutputBlock.exists_stream {tokens : List Token} {text : String}
    (h : OutputBlock tokens text.toList) (hw : ∀ t ∈ tokens, t.Writable) (name : String) :
    ∃ stream, TokenStream.ofSource ⟨name, text⟩ = .ok stream := by
  obtain ⟨opened, placed, closed, _, _, _, hscan⟩ := h.ofText_eq hw
  exact ⟨_, TokenStream.ofSource_of_scan hscan (List.cons_ne_nil _ _)⟩

/-- **Precedence and grouping are those of the tree.** A printable expression can be written in an
output block. Whatever text begins with such a block, if the whole of it can be tokenized and there
is a level for every token of the expression, it compiles to the expression, up to the places of its
tokens; and in every context the value of what was compiled is what the operators come to, bottom up
and left operands first. -/
theorem compileExpr_respects_precedence {e : Expr} (h : e.Printable) :
    (∃ text : String, OutputBlock e.tokens text.toList ∧
      ∀ name, ∃ stream, TokenStream.ofSource ⟨name, text⟩ = .ok stream) ∧
    ∀ (text : String) (options : Options) (block tail : List Char),
      OutputBlock e.tokens block → text.toList = block ++ tail →
      (∃ stream, TokenStream.ofSource ⟨options.name, text⟩ = .ok stream) →
      e.tokens.length ≤ options.maxDepth →
        ∃ compiled, compileExpr text options = .ok compiled ∧ compiled.unplaced = e.unplaced ∧
          ∀ c, (compiled.eval c).map (fun v => [v]) = calculate c e.steps [] := by
  have hw := Expr.writable_tokens h
  constructor
  · obtain ⟨cs, hcs⟩ := exists_outputBlock e.tokens_ne_nil hw
    rw [← String.toList_ofList (l := cs)] at hcs
    exact ⟨_, hcs, hcs.exists_stream hw⟩
  · rintro text options block tail hblock htext ⟨stream, hstream⟩ hlevels
    obtain ⟨opened, placed, closed, hopened, hplaced, hclosed, hrun⟩ := hblock.run hw 0 tail
    obtain ⟨compiled, hread, hsame⟩ := Expr.read_outputBlock h hopened hplaced hclosed hlevels
      (Scan.run .literal (0 + Text.byteLength block) tail).tokens
    have hremaining : stream.remaining = opened :: placed ++ closed ::
        (Scan.run .literal (0 + Text.byteLength block) tail).tokens := by
      rw [(TokenStream.remaining_of_ofSource hstream).2, TokenStream.tokens_of_ofSource hstream,
        Scan.ofText, htext, hrun]
      simp [Scan.prepend]
    refine ⟨compiled, ?_, hsame, ?_⟩
    · rw [compileExpr_eq_compileWith, compileWith_of_ok hstream, TokenStream.read, hremaining,
        hread]
    · intro c
      rw [Expr.calculate_steps, Expr.eval_eq_of_unplaced_eq hsame]

/-- The tree of `(a - (b - c)) * 'it"s' > d`: both differences need their parentheses, as a right
operand of equal and a left operand of lower precedence, and the product needs none. -/
def differenceExpr : Expr :=
  .binary .greater
    (.binary .multiply
      (.binary .subtract (.leaf ⟨.word, "a", 0⟩)
        (.binary .subtract (.leaf ⟨.word, "b", 0⟩) (.leaf ⟨.word, "c", 0⟩)))
      (.leaf ⟨.quoted, "it\"s", 0⟩))
    (.leaf ⟨.word, "d", 0⟩)

def differenceBlock : String :=
  "\x7b\x7b( a -\t( b\n- c ) ) * 'it\"s'\u3000> d\x7d\x7d"

/-- A block around the tokens, as tight as it can be at its delimiters. -/
theorem differenceBlock_outputBlock :
    OutputBlock differenceExpr.tokens differenceBlock.toList := by
  have hspace := Text.isSpace_space
  have htab : Text.IsSpace ['\t'] := Text.isSpace_singleton (by decide)
  have hline : Text.IsSpace ['\n'] := Text.isSpace_singleton (by decide)
  have hwide : Text.IsSpace ['\u3000'] := Text.isSpace_singleton (by decide)
  have hquoted : Token.SpelledAs ⟨.quoted, "it\"s", 0⟩ _ := ⟨'\'', by decide, by decide, rfl⟩
  have hspaced : Spaced differenceExpr.tokens _ :=
    .cons rfl hspace (.cons rfl hspace (.cons rfl htab (.cons rfl hspace (.cons rfl hline
      (.cons rfl hspace (.cons rfl hspace (.cons rfl hspace (.cons rfl hspace (.cons rfl hspace
        (.cons hquoted hwide (.cons rfl hspace (.single rfl))))))))))))
  have hblock := @OutputBlock.mk _ [] _ [] nofun hspaced nofun (by decide)
  refine Eq.mp (congrArg (OutputBlock differenceExpr.tokens) ?_) hblock
  decide +kernel

/-- What stands behind the block; its end tag has nothing to end. -/
def differenceTail : String :=
  " is more\x7b% endif %\x7d"

/-- The expression has 13 tokens, so 13 levels are enough, with the opener and all that follows. -/
theorem differenceBlock_compiles :
    differenceExpr.Printable ∧ OutputBlock differenceExpr.tokens differenceBlock.toList ∧
      (∃ stream, TokenStream.ofSource ⟨"difference", differenceBlock ++ differenceTail⟩ =
        .ok stream) ∧
      differenceExpr.tokens.length ≤ 13 ∧
      ∃ compiled,
        compileExpr (differenceBlock ++ differenceTail) ⟨13, "difference"⟩ = .ok compiled ∧
          compiled.unplaced = differenceExpr.unplaced ∧
            ∀ c, (compiled.eval c).map (fun v => [v]) = calculate c differenceExpr.steps [] := by
  have hname : ∀ {s : String}, s.toList ≠ [] → s.toList.all isWordChar = true → IsName s :=
    isName_of_isWordChar
  have hprintable : differenceExpr.Printable := by
    have hword : ∀ {t : Token}, t.kind = .word → IsName t.text → (Expr.leaf t).Printable :=
      fun hkind ht => .inl ⟨hkind, ht⟩
    refine ⟨⟨⟨hword rfl ?_, hword rfl ?_, hword rfl ?_⟩, .inr ⟨rfl, by decide⟩⟩, hword rfl ?_⟩
    · exact hname (by decide) (by decide)
    · exact hname (by decide) (by decide)
    · exact hname (by decide) (by decide)
    · exact hname (by decide) (by decide)
  have hstream : ∃ stream,
      TokenStream.ofSource ⟨"difference", differenceBlock ++ differenceTail⟩ = .ok stream :=
    ⟨_, TokenStream.ofSource_eq_ok_iff.mpr ⟨by decide +kernel, by decide +kernel, rfl⟩⟩
  have hlevels : differenceExpr.tokens.length ≤ 13 := by decide
  exact ⟨hprintable, differenceBlock_outputBlock, hstream, hlevels,
    (compileExpr_respects_precedence hprintable).2 _ ⟨13, "difference"⟩ differenceBlock.toList
      differenceTail.toList differenceBlock_outputBlock String.toList_append hstream hlevels⟩

end TemplateLang

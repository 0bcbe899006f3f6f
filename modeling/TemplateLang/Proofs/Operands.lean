import TemplateLang.Proofs.Precedence

/-!
# TemplateLang.Proofs.Operands — output blocks around one operand or two

The smallest output blocks hold one operand, or two words with an operator between them. The operator
needs no blanks around it: its symbol ends the word in front of it, and no character of a word goes
on with a symbol. Main statements (`compileExpr_operand`, `compileExpr_cut`): the first compiles to
its operand and the second to the operator on the words, up to the places of their tokens.
-/

namespace TemplateLang

/-! ## Blocks -/

/-- The text of an output block around what is to be put out. -/
def inBlock (text : String) : String :=
  "\x7b\x7b " ++ text ++ " \x7d\x7d"

/-- The text between two quotes. -/
def quotedBy (q : Char) (text : String) : String :=
  String.singleton q ++ text ++ String.singleton q

theorem toList_quotedBy (q : Char) (text : String) :
    (quotedBy q text).toList = q :: text.toList ++ [q] := by
  simp [quotedBy]

theorem toList_inBlock (text : String) :
    (inBlock text).toList = (Delimiter.opening .output).text.toList ++
      ([' '] ++ (text.toList ++ ([' '] ++ (Delimiter.closing .output).text.toList))) := by
  simp only [inBlock, String.toList_append, List.append_assoc]
  rfl

/-- A text that scans to the tokens of an expression in an output block compiles to it. -/
theorem compileExpr_of_scan {e : Expr} (he : e.Printable) {text : String} {options : Options}
    {opened closed : Token} {placed : List Token}
    (hopened : opened.Is .delimiter (Delimiter.opening .output).text)
    (hplaced : placed.map Token.unplaced = e.tokens.map Token.unplaced)
    (hclosed : closed.Is .delimiter (Delimiter.closing .output).text)
    (hscan : Scan.ofText text = ⟨opened :: placed ++ [closed], .complete⟩)
    (hlevels : e.tokens.length ≤ options.maxDepth) :
    ∃ compiled, compileExpr text options = .ok compiled ∧ compiled.unplaced = e.unplaced := by
  obtain ⟨compiled, hread, hsame⟩ := e.read_outputBlock he hopened hplaced hclosed hlevels []
  refine ⟨compiled, ?_, hsame⟩
  rw [compileExpr_eq_compileWith]
  exact compileWith_of_accepted hscan (List.cons_ne_nil _ _) hread

/-- **A block around one operand compiles to it.** -/
theorem compileExpr_operand {t : Token} (ht : (Expr.leaf t).Printable) {text : String}
    (hraw : t.SpelledAs text.toList) :
    ∃ compiled, compileExpr (inBlock text) {} = .ok compiled ∧
      compiled.unplaced = (Expr.leaf t).unplaced := by
  have hspace : ∀ c ∈ [' '], Text.isBlank c = true := Text.isSpace_space.blank
  have hblock : OutputBlock (Expr.leaf t).tokens (inBlock text).toList := by
    rw [toList_inBlock]
    exact .mk hspace (.single hraw) hspace nofun
  obtain ⟨opened, placed, closed, hopened, hplaced, hclosed, hscan⟩ :=
    hblock.ofText_eq (Expr.writable_tokens ht)
  refine compileExpr_of_scan ht hopened hplaced hclosed hscan ?_
  show 1 ≤ 64
  decide

/-! ## Words next to one another -/

/-- Characters of words are a plain run, as far as they go. -/
theorem Scan.isRun_of_isWordChar {plain rest : List Char}
    (h : ∀ c ∈ plain, isWordChar c = true) (hstops : stopsAt true rest = true) :
    IsRun true plain rest := by
  refine ⟨?_, hstops⟩
  intro front back heq hne
  cases back with
  | nil => exact absurd rfl hne
  | cons c back =>
      have hc := h c (by simp [heq])
      have hpercent : c ≠ '%' := by
        rintro rfl
        exact absurd hc (by decide)
      simp only [isWordChar, Bool.not_eq_true', Bool.or_eq_false_iff, beq_eq_false_iff_ne] at hc
      obtain ⟨⟨⟨⟨hblank, hspecial⟩, hquote⟩, hopen⟩, hclose⟩ := hc
      simp [stopsAt, Delimiter.strip?_cons_eq_none hopen hclose hpercent, hblank, hspecial, hquote]

/-- **`IsPlainWord s`** — the text is one word wherever it stands in a block. -/
structure IsPlainWord (s : String) : Prop where
  ne_nil : s.toList ≠ []
  char : ∀ c ∈ s.toList, isWordChar c = true

theorem IsPlainWord.isName {s : String} (h : IsPlainWord s) : IsName s :=
  isName_of_isWordChar h.ne_nil (List.all_eq_true.mpr h.char)

theorem isPlainWord_ofList {cs : List Char} (hne : cs ≠ [])
    (h : ∀ c ∈ cs, isWordChar c = true) : IsPlainWord (String.ofList cs) := by
  refine ⟨?_, ?_⟩ <;> rwa [String.toList_ofList]

/-- A plain word is over where anything else begins. -/
theorem IsPlainWord.isRun {s : String} (h : IsPlainWord s) {rest : List Char}
    (hstops : Scan.stopsAt true rest = true) : Scan.IsRun true s.toList rest :=
  Scan.isRun_of_isWordChar h.char hstops

theorem IsPlainWord.head?_not_special {s : String} (h : IsPlainWord s) (rest : List Char) :
    ∀ c ∈ (s.toList ++ rest).head?, isSpecial c = false := by
  intro c hc
  obtain ⟨d, cs, hs⟩ := List.exists_cons_of_ne_nil h.ne_nil
  rw [hs] at hc
  cases hc
  exact (h.isName.plain c (by simp [hs])).2.1

/-! ## Two words and an operator -/

/-- An operator on two words. -/
def Expr.onWords (op : Operator) (left right : String) : Expr :=
  .binary op (.leaf ⟨.word, left, 0⟩) (.leaf ⟨.word, right, 0⟩)

/-- Words need no parentheses. -/
theorem Expr.tokens_onWords (op : Operator) (left right : String) :
    (onWords op left right).tokens =
      [⟨.word, left, 0⟩, ⟨.operator, op.symbol, 0⟩, ⟨.word, right, 0⟩] := by
  cases op <;> rfl

/-- The symbol of an operator begins no delimiter, and ends the word in front of it. -/
theorem Operator.symbol_begins (op : Operator) (rest : List Char) :
    Delimiter.strip? (op.symbol.toList ++ rest) = none ∧
      Scan.stopsAt true (op.symbol.toList ++ rest) = true := by
  cases op <;> exact ⟨rfl, rfl⟩

section Cut

variable (op : Operator) {left right : String} (hleft : IsPlainWord left)
  (hright : IsPlainWord right)

include hleft hright

/-- **An operator between two words cuts them apart**, also without blanks around it. -/
theorem Scan.ofText_cut :
    ∃ opened placed closed,
      opened.Is .delimiter (Delimiter.opening .output).text ∧
      placed.map Token.unplaced =
        [⟨.word, left, 0⟩, ⟨.operator, op.symbol, 0⟩, ⟨.word, right, 0⟩] ∧
      closed.Is .delimiter (Delimiter.closing .output).text ∧
      ofText (inBlock (left ++ op.symbol ++ right)) = ⟨opened :: placed ++ [closed], .complete⟩ := by
  have hspace : Text.isBlank ' ' = true := by decide
  have htext : (inBlock (left ++ op.symbol ++ right)).toList =
      (Delimiter.opening .output).text.toList ++ ' ' :: (left.toList ++ (op.symbol.toList ++
        (right.toList ++ ' ' :: ((Delimiter.closing .output).text.toList ++ [])))) := by
    simp [toList_inBlock]
  have hsign := Expr.isSign_symbol op
  obtain ⟨hstart, hstops⟩ := op.symbol_begins
    (right.toList ++ ' ' :: ((Delimiter.closing .output).text.toList ++ []))
  rw [ofText, htext, run_delimiter, run_blank rfl hspace,
    run_word_of_isRun rfl hleft.ne_nil (hleft.isRun hstops),
    run_operator rfl hsign.ne_nil hsign.special hstart (hright.head?_not_special _),
    run_word_of_isRun rfl hright.ne_nil (hright.isRun rfl), run_blank rfl hspace, run_delimiter,
    run, String.ofList_toList]
  exact ⟨_, [_, _, _], _, ⟨rfl, rfl⟩, rfl, ⟨rfl, rfl⟩, rfl⟩

/-- Two words with an operator between them compile to the operator on the words. -/
theorem compileExpr_cut :
    ∃ compiled, compileExpr (inBlock (left ++ op.symbol ++ right)) {} = .ok compiled ∧
      compiled.unplaced = Expr.onWords op left right := by
  have he : (Expr.onWords op left right).Printable :=
    ⟨.inl ⟨rfl, hleft.isName⟩, .inl ⟨rfl, hright.isName⟩⟩
  obtain ⟨opened, placed, closed, hopened, hplaced, hclosed, hscan⟩ :=
    Scan.ofText_cut op hleft hright
  refine compileExpr_of_scan he hopened ?_ hclosed hscan ?_
  · rw [hplaced, Expr.tokens_onWords]
    rfl
  · rw [Expr.tokens_onWords]
    show 3 ≤ 64
    decide

end Cut

end TemplateLang

import TemplateLang.Compile
import TemplateLang.Proofs.Grammar.Template
import TemplateLang.Proofs.Places
import TemplateLang.Proofs.Scan.Layout

/-!
# TemplateLang.Proofs.Printing — compiling undoes printing

A template is printed with one space between the tokens of a block, every operator in parentheses
of its own, literal text as a string, and end tags that fit their statements. `Prints` is this
format, with any quote that the text of a string does not hold. Main statement
(`compileTemplate_undoes_prints`): what a printable template is printed as compiles to the template,
up to the places of its tokens. The proof follows the printed text from left to right: every part
of it scans to tokens, whatever stands behind it, and these tokens derive the part of the tree.
-/

namespace TemplateLang

/-! ## Expressions -/

namespace Expr

/-- **`e.Printable`** — the leaves are words and strings that can be written as such. -/
def Printable : Expr → Prop
  | .leaf t => t.kind = .word ∧ IsName t.text ∨ t.kind = .quoted ∧ IsQuotable t.text
  | .binary _ left right => left.Printable ∧ right.Printable

/-- **`e.Prints cs`** — the text prints the expression. -/
inductive Prints : Expr → List Char → Prop
  | word {t : Token} (ht : t.kind = .word) : Prints (.leaf t) t.text.toList
  | quoted {t : Token} {q : Char} (ht : t.kind = .quoted) (hq : isQuote q = true)
      (hnot : q ∉ t.text.toList) : Prints (.leaf t) (q :: t.text.toList ++ [q])
  | binary {op : Operator} {left right : Expr} {ls rs : List Char} :
      Prints left ls → Prints right rs →
        Prints (.binary op left right)
          ("( ".toList ++ ls ++ " ".toList ++ op.symbol.toList ++ " ".toList ++ rs ++ " )".toList)

theorem Printable.exists_prints {e : Expr} (h : e.Printable) : ∃ cs, e.Prints cs := by
  induction e with
  | leaf t =>
      rcases h with ⟨ht, -⟩ | ⟨ht, hquotable⟩
      · exact ⟨_, .word ht⟩
      · obtain ⟨q, hq, hnot⟩ := hquotable.exists_quote
        exact ⟨_, .quoted ht hq hnot⟩
  | binary op left right ihl ihr =>
      obtain ⟨ls, hl⟩ := ihl h.1
      obtain ⟨rs, hr⟩ := ihr h.2
      exact ⟨_, .binary hl hr⟩

theorem isSign_symbol (op : Operator) : IsSign op.symbol := by
  cases op <;> decide

/-- Two operands and an operator in parentheses are one operand. -/
theorem Derives.parenthesized {op : Operator} {opened o closed : Token} {ls rs : List Token}
    {l r : Expr} (hopened : opened.Is .operator "(") (hl : Derives .primary ls l)
    (ho : o.Is .operator op.symbol) (hr : Derives .primary rs r)
    (hclosed : closed.Is .operator ")") :
    Derives .primary (opened :: (ls ++ o :: rs) ++ [closed]) (.binary op l r) := by
  have hbinary : Derives (.ofPrecedence op.precedence) (ls ++ o :: rs) (.binary op l r) :=
    .binary (hl.of_primary _) ho (hr.of_primary _)
  exact .group hopened (hbinary.loosen (Nat.zero_le _)) hclosed

/-- **A printed expression scans to tokens that derive it**, wherever it stands in a block. -/
theorem Prints.writes {e : Expr} {es : List Char} (h : e.Prints es) (he : e.Printable)
    {start mode : Mode} {offset : Nat} {cs : List Char} {ts : List Token}
    (hwrites : Scan.Writes start offset cs ts mode) (hmode : mode.isBlock = true) :
    ∃ tokens e', Derives .primary tokens e' ∧ e'.unplaced = e.unplaced ∧
      Scan.Writes start offset (cs ++ ' ' :: es) (ts ++ tokens) mode := by
  have hspace := Text.isSpace_space
  induction h generalizing cs ts with
  | @word t ht =>
      rcases he with ⟨-, hname⟩ | ⟨hquoted, -⟩
      · obtain ⟨⟨kind, text, place⟩, ⟨rfl, rfl⟩, hword⟩ := hwrites.word hmode hspace hname
        refine ⟨_, _, .leaf (.inl rfl), ?_, hword⟩
        rw [unplaced_leaf, unplaced_leaf, Token.unplaced, Token.unplaced, ht]
      · rw [ht] at hquoted
        cases hquoted
  | @quoted t q ht hq hnot =>
      obtain ⟨⟨kind, text, place⟩, ⟨rfl, rfl⟩, hquoted⟩ := hwrites.quoted hmode hspace hq hnot
      refine ⟨_, _, .leaf (.inr (.inl rfl)), ?_, hquoted⟩
      rw [unplaced_leaf, unplaced_leaf, Token.unplaced, Token.unplaced, ht]
  | @binary op left right ls rs _ _ ihl ihr =>
      have hparenthesis : IsSign "(" ∧ IsSign ")" := by decide
      obtain ⟨opened, hopened, hbegun⟩ := hwrites.sign hmode hspace hparenthesis.1
      obtain ⟨lts, l, hl, hlsame, hleft⟩ := ihl he.1 hbegun
      obtain ⟨o, ho, hsigned⟩ := hleft.sign hmode hspace (isSign_symbol op)
      obtain ⟨rts, r, hr, hrsame, hright⟩ := ihr he.2 hsigned
      obtain ⟨closed, hclosed, hall⟩ := hright.sign hmode hspace hparenthesis.2
      refine ⟨_, _, hl.parenthesized hopened ho hr hclosed, ?_, ?_⟩
      · rw [unplaced_binary, unplaced_binary, hlsame, hrsame]
      · simpa using hall

/-- A printed expression, and behind it the delimiter that ends its block. -/
theorem Prints.writes_blockEnd {e : Expr} {es : List Char} (h : e.Prints es) (he : e.Printable)
    {start mode : Mode} {offset : Nat} {cs : List Char} {ts : List Token}
    (hwrites : Scan.Writes start offset cs ts mode) (hmode : mode.isBlock = true)
    (kind : BlockKind) :
    ∃ tokens e' c, Derives .comparison tokens e' ∧ e'.unplaced = e.unplaced ∧
      c.Is .delimiter (Delimiter.closing kind).text ∧
      Scan.Writes start offset (cs ++ ' ' :: (es ++ ' ' :: (Delimiter.closing kind).text.toList))
        (ts ++ (tokens ++ [c])) .literal := by
  obtain ⟨tokens, e', he', hsame, hexpr⟩ := h.writes he hwrites hmode
  obtain ⟨c, hc, hend⟩ := hexpr.closer hmode Text.isSpace_space kind
  exact ⟨tokens, e', c, he'.of_primary 0, hsame, hc, by simpa using hend⟩

end Expr

/-! ## Templates -/

namespace Template

/-- **`template.Printable`** — all that is quoted can be quoted, names are names, and the operators
of assignments are operators. -/
inductive Printable : Template → Prop
  | nil : Printable []
  | literal {text : String} {ns : Template} (htext : IsQuotable text) :
      Printable ns → Printable (.literal text :: ns)
  | output {e : Expr} {ns : Template} (he : e.Printable) :
      Printable ns → Printable (.output e :: ns)
  | assign {name sign : String} {e : Expr} {ns : Template} (hname : IsName name)
      (hsign : IsSign sign) (he : e.Printable) :
      Printable ns → Printable (.assign name sign e :: ns)
  | conditional {e : Expr} {body ns : Template} (he : e.Printable) :
      Printable body → Printable ns → Printable (.conditional e body :: ns)
  | loop {name : String} {e : Expr} {body ns : Template} (hname : IsName name)
      (he : e.Printable) : Printable body → Printable ns → Printable (.loop name e body :: ns)

/-- **`template.Prints cs`** — the text prints the template. -/
inductive Prints : Template → List Char → Prop
  | nil : Prints [] []
  | literal {text : String} {q : Char} {ns : Template} {cs : List Char} (hq : isQuote q = true)
      (hnot : q ∉ text.toList) :
      Prints ns cs → Prints (.literal text :: ns) (q :: text.toList ++ [q] ++ cs)
  | output {e : Expr} {ns : Template} {es cs : List Char} :
      e.Prints es → Prints ns cs →
        Prints (.output e :: ns) ("\x7b\x7b ".toList ++ es ++ " \x7d\x7d".toList ++ cs)
  | assign {name sign : String} {e : Expr} {ns : Template} {es cs : List Char} :
      e.Prints es → Prints ns cs →
        Prints (.assign name sign e :: ns)
          ("\x7b% set ".toList ++ name.toList ++ " ".toList ++ sign.toList ++ " ".toList ++ es ++
            " %\x7d".toList ++ cs)
  | conditional {e : Expr} {body ns : Template} {es bs cs : List Char} :
      e.Prints es → Prints body bs → Prints ns cs →
        Prints (.conditional e body :: ns)
          ("\x7b% if ".toList ++ es ++ " %\x7d".toList ++ bs ++ "\x7b% endif %\x7d".toList ++ cs)
  | loop {name : String} {e : Expr} {body ns : Template} {es bs cs : List Char} :
      e.Prints es → Prints body bs → Prints ns cs →
        Prints (.loop name e body :: ns)
          ("\x7b% for ".toList ++ name.toList ++ " in ".toList ++ es ++ " %\x7d".toList ++ bs ++
            "\x7b% endfor %\x7d".toList ++ cs)

theorem Printable.exists_prints {template : Template} (h : template.Printable) :
    ∃ cs, template.Prints cs := by
  induction h with
  | nil => exact ⟨[], .nil⟩
  | literal htext _ ih =>
      obtain ⟨q, hq, hnot⟩ := htext.exists_quote
      obtain ⟨cs, hcs⟩ := ih
      exact ⟨_, .literal hq hnot hcs⟩
  | output he _ ih =>
      obtain ⟨es, hes⟩ := he.exists_prints
      obtain ⟨cs, hcs⟩ := ih
      exact ⟨_, .output hes hcs⟩
  | assign _ _ he _ ih =>
      obtain ⟨es, hes⟩ := he.exists_prints
      obtain ⟨cs, hcs⟩ := ih
      exact ⟨_, .assign hes hcs⟩
  | conditional he _ _ ihbody ih =>
      obtain ⟨es, hes⟩ := he.exists_prints
      obtain ⟨bs, hbs⟩ := ihbody
      obtain ⟨cs, hcs⟩ := ih
      exact ⟨_, .conditional hes hbs hcs⟩
  | loop _ he _ _ ihbody ih =>
      obtain ⟨es, hes⟩ := he.exists_prints
      obtain ⟨bs, hbs⟩ := ihbody
      obtain ⟨cs, hcs⟩ := ih
      exact ⟨_, .loop hes hbs hcs⟩

theorem isName_keyword (keyword : String)
    (h : keyword ∈ ["set", "if", "for", "in", "endif", "endfor"]) : IsName keyword := by
  simp only [List.mem_cons, List.not_mem_nil, or_false] at h
  rcases h with rfl | rfl | rfl | rfl | rfl | rfl <;>
    exact isName_of_isWordChar (by decide) (by decide)

section Parts

variable {start : Mode} {offset : Nat} {cs : List Char} {ts : List Token}

theorem writes_keyword (h : Scan.Writes start offset cs ts .literal) {keyword : String}
    (hkeyword : IsName keyword) :
    ∃ o k inside, o.Is .delimiter "\x7b%" ∧ k.Is .word keyword ∧ inside.isBlock = true ∧
      Scan.Writes start offset (cs ++ ("\x7b% ".toList ++ keyword.toList)) (ts ++ [o, k])
        inside := by
  obtain ⟨o, inside, ho, hmode, hopened⟩ := h.opener .statement
  obtain ⟨k, hk, hall⟩ := hopened.word hmode Text.isSpace_space hkeyword
  exact ⟨o, k, inside, ho, hk, hmode, by simpa [Delimiter.text] using hall⟩

theorem writes_endTag (h : Scan.Writes start offset cs ts .literal) {keyword : String}
    (hkeyword : IsName keyword) (hend : "end".toList <+: keyword.toList) :
    ∃ tag, EndTag tag ∧
      Scan.Writes start offset (cs ++ ("\x7b% ".toList ++ keyword.toList ++ " %\x7d".toList))
        (ts ++ tag) .literal := by
  obtain ⟨o, k, inside, ho, hk, hmode, hhead⟩ := writes_keyword h hkeyword
  obtain ⟨c, hc, hall⟩ := hhead.closer hmode Text.isSpace_space .statement
  refine ⟨[o, k, c], .mk ho ⟨hk.1, ?_⟩ hc, by simpa [Delimiter.text] using hall⟩
  rw [hk.2]
  exact hend

end Parts

/-- **A printed template scans to tokens that derive it.** -/
theorem Prints.writes {template : Template} {cs : List Char} (h : template.Prints cs)
    (hprintable : template.Printable) {start : Mode} {offset : Nat} {before : List Char}
    {ts : List Token} (hwrites : Scan.Writes start offset before ts .literal) :
    ∃ tokens compiled, Derives tokens compiled ∧ unplaced compiled = unplaced template ∧
      Scan.Writes start offset (before ++ cs) (ts ++ tokens) .literal := by
  have hspace := Text.isSpace_space
  induction h generalizing before ts with
  | nil => exact ⟨[], [], .nil, rfl, by simpa using hwrites⟩
  | @literal text q ns cs hq hnot _ ih =>
      cases hprintable with
      | literal _ hns =>
          obtain ⟨t, ⟨hkind, rfl⟩, hquoted⟩ := hwrites.literalQuoted hq hnot
          obtain ⟨tokens, compiled, hder, hsame, hall⟩ := ih hns hquoted
          refine ⟨t :: tokens, _, .literal (by rw [hkind]; decide) hder, ?_, by simpa using hall⟩
          rw [unplaced_literal, unplaced_literal, hsame]
  | @output e ns es cs hes _ ih =>
      cases hprintable with
      | output he hns =>
          obtain ⟨o, inside, ho, hmode, hopened⟩ := hwrites.opener .output
          obtain ⟨ets, e', c, heder, hesame, hc, hblock⟩ :=
            hes.writes_blockEnd he hopened hmode .output
          obtain ⟨tokens, compiled, hder, hsame, hall⟩ := ih hns hblock
          refine ⟨_, _, .output ho heder hc hder, ?_, by simpa [Delimiter.text] using hall⟩
          rw [unplaced_output, unplaced_output, hesame, hsame]
  | @assign name sign e ns es cs hes _ ih =>
      cases hprintable with
      | assign hname hsign he hns =>
          obtain ⟨o, k, inside, ho, hk, hmode, hhead⟩ :=
            writes_keyword hwrites (isName_keyword "set" (by simp))
          obtain ⟨n, ⟨hn, rfl⟩, hnamed⟩ := hhead.word hmode hspace hname
          obtain ⟨s, ⟨hs, rfl⟩, hsigned⟩ := hnamed.sign hmode hspace hsign
          obtain ⟨ets, e', c, heder, hesame, hc, hblock⟩ :=
            hes.writes_blockEnd he hsigned hmode .statement
          obtain ⟨tokens, compiled, hder, hsame, hall⟩ := ih hns hblock
          refine ⟨_, _, .assign ho hk hn hs heder hc hder, ?_, by simpa [Delimiter.text] using hall⟩
          rw [unplaced_assign, unplaced_assign, hesame, hsame]
  | @conditional e body ns es bs cs hes _ _ ihbody ih =>
      cases hprintable with
      | conditional he hbody hns =>
          obtain ⟨o, k, inside, ho, hk, hmode, hhead⟩ :=
            writes_keyword hwrites (isName_keyword "if" (by simp))
          obtain ⟨ets, e', c, heder, hesame, hc, hblock⟩ :=
            hes.writes_blockEnd he hhead hmode .statement
          obtain ⟨bts, body', hbder, hbsame, hinner⟩ := ihbody hbody hblock
          obtain ⟨tag, htag, hended⟩ :=
            writes_endTag hinner (isName_keyword "endif" (by simp)) (by decide)
          obtain ⟨tokens, compiled, hder, hsame, hall⟩ := ih hns hended
          refine ⟨_, _, .conditional ho hk heder hc htag hbder hder, ?_,
            by simpa [Delimiter.text] using hall⟩
          rw [unplaced_conditional, unplaced_conditional, hesame, hbsame, hsame]
  | @loop name e body ns es bs cs hes _ _ ihbody ih =>
      cases hprintable with
      | loop hname he hbody hns =>
          obtain ⟨o, k, inside, ho, hk, hmode, hhead⟩ :=
            writes_keyword hwrites (isName_keyword "for" (by simp))
          obtain ⟨n, ⟨hn, rfl⟩, hnamed⟩ := hhead.word hmode hspace hname
          obtain ⟨i, hi, hsep⟩ := hnamed.word hmode hspace (isName_keyword "in" (by simp))
          obtain ⟨ets, e', c, heder, hesame, hc, hblock⟩ :=
            hes.writes_blockEnd he hsep hmode .statement
          obtain ⟨bts, body', hbder, hbsame, hinner⟩ := ihbody hbody hblock
          obtain ⟨tag, htag, hended⟩ :=
            writes_endTag hinner (isName_keyword "endfor" (by simp)) (by decide)
          obtain ⟨tokens, compiled, hder, hsame, hall⟩ := ih hns hended
          refine ⟨_, _, .loop ho hk hn hi heder hc htag hbder hder, ?_,
            by simpa [Delimiter.text] using hall⟩
          rw [unplaced_loop, unplaced_loop, hesame, hbsame, hsame]

end Template

/-! ## Whole texts -/

/-- **Compiling undoes printing.** A printable template that is not empty can be printed, and
whatever it is printed as compiles to it, up to the places of its tokens, if there is a level for
every token printed. -/
theorem compileTemplate_undoes_prints {template : Template} (hne : template ≠ [])
    (h : template.Printable) :
    (∃ text : String, template.Prints text.toList) ∧
      ∀ (text : String) (options : Options), template.Prints text.toList →
        (Scan.ofText text).tokens.length ≤ options.maxDepth →
          ∃ compiled, compileTemplate text options = .ok compiled ∧
            Template.unplaced compiled = Template.unplaced template := by
  constructor
  · obtain ⟨cs, hcs⟩ := h.exists_prints
    exact ⟨String.ofList cs, by rwa [String.toList_ofList]⟩
  · intro text options hprints hlevels
    obtain ⟨tokens, compiled, hder, hsame, hwrites⟩ :=
      hprints.writes h (Scan.writes_nil .literal 0)
    have hscan : Scan.ofText text = ⟨tokens, .complete⟩ := hwrites.ofText_eq
    have htokens : tokens ≠ [] := by
      rintro rfl
      rw [hder.eq_nil] at hsame
      cases template with
      | nil => exact hne rfl
      | cons node nodes => cases hsame
    rw [hscan] at hlevels
    have hsource : TokenStream.ofSource ⟨options.name, text⟩ =
        .ok ⟨⟨options.name, text⟩, tokens, 0, htokens, Nat.zero_le _⟩ := by
      refine TokenStream.ofSource_eq_ok_iff.mpr ⟨by rw [hscan], by rwa [hscan], ?_⟩
      simp only [hscan]
    refine ⟨compiled, ?_, hsame⟩
    rw [compileTemplate, hsource]
    exact TokenStream.readTemplate_of_derives hder hlevels

/-- A template with every kind of node, a quote in its text, and a block inside a block. -/
def orderTemplate : Template :=
  [.literal "it's",
    .conditional (.binary .greater (.leaf ⟨.word, "a.b", 0⟩) (.leaf ⟨.quoted, "c\x7b% d", 0⟩))
      [.assign "n" "+=" (.leaf ⟨.word, "1", 0⟩),
        .loop "x" (.leaf ⟨.word, "xs", 0⟩) [.output (.leaf ⟨.word, "x", 0⟩)]]]

def orderText : String :=
  "\"it's\"\x7b% if ( a.b > 'c\x7b% d' ) %\x7d\x7b% set n += 1 %\x7d" ++
    "\x7b% for x in xs %\x7d\x7b\x7b x \x7d\x7d\x7b% endfor %\x7d\x7b% endif %\x7d"

theorem orderTemplate_printable : orderTemplate.Printable := by
  have hname : ∀ {s : String}, s.toList ≠ [] → s.toList.all isWordChar = true → IsName s :=
    isName_of_isWordChar
  have hword : ∀ {t : Token}, t.kind = .word → IsName t.text → (Expr.leaf t).Printable :=
    fun hkind ht => .inl ⟨hkind, ht⟩
  refine .literal (by decide) (.conditional ⟨hword rfl ?_, .inr ⟨rfl, by decide⟩⟩ ?_ .nil)
  · exact hname (by decide) (by decide)
  · refine .assign (hname (by decide) (by decide)) (by decide) (hword rfl ?_) ?_
    · exact hname (by decide) (by decide)
    · refine .loop (hname (by decide) (by decide)) (hword rfl ?_) (.output (hword rfl ?_) .nil) .nil
      · exact hname (by decide) (by decide)
      · exact hname (by decide) (by decide)

theorem orderTemplate_prints : orderTemplate.Prints orderText.toList := by
  have hcondition : Expr.Prints
      (.binary .greater (.leaf ⟨.word, "a.b", 0⟩) (.leaf ⟨.quoted, "c\x7b% d", 0⟩)) _ :=
    .binary (.word rfl) (@Expr.Prints.quoted _ '\'' rfl (by decide) (by decide))
  have hloop : Template.Prints
      [.loop "x" (.leaf ⟨.word, "xs", 0⟩) [.output (.leaf ⟨.word, "x", 0⟩)]] _ :=
    .loop (.word rfl) (.output (.word rfl) .nil) .nil
  have htemplate : orderTemplate.Prints _ :=
    @Template.Prints.literal _ '"' _ _ (by decide) (by decide)
      (.conditional hcondition (.assign (.word rfl) hloop) .nil)
  refine Eq.mp (congrArg (Template.Prints orderTemplate) ?_) htemplate
  decide +kernel

/-- The text has 30 tokens, so 30 levels are enough. -/
theorem orderText_compiles :
    orderTemplate ≠ [] ∧ orderTemplate.Printable ∧ orderTemplate.Prints orderText.toList ∧
      (Scan.ofText orderText).tokens.length ≤ 30 ∧
        ∃ compiled, compileTemplate orderText ⟨30, "order"⟩ = .ok compiled ∧
          Template.unplaced compiled = Template.unplaced orderTemplate := by
  have hne : orderTemplate ≠ [] := nofun
  have htokens : (Scan.ofText orderText).tokens.length ≤ 30 := by
    have hcount : (Scan.ofText orderText).tokens.length = 30 := by decide +kernel
    omega
  exact ⟨hne, orderTemplate_printable, orderTemplate_prints, htokens,
    (compileTemplate_undoes_prints hne orderTemplate_printable).2 orderText ⟨30, "order"⟩
      orderTemplate_prints htokens⟩

end TemplateLang

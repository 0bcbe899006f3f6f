import TemplateLang.Proofs.Entry
import TemplateLang.Proofs.Grammar.Template
import TemplateLang.Proofs.Lookahead
import TemplateLang.Proofs.Scan.Cut

/-!
# TemplateLang.Proofs.LeadingBlock — a text that begins with an output block, at both entry points

An output block at the beginning of a text is compiled by both entry points, but not by the same
steps. As a template, its opener is taken off first and its closer is asked for. As an expression,
the opener is read as a part of the first operand, which takes a level there, and what stands behind
the expression is not looked at.

Two boundaries follow, both exact. What compiles as an expression is a closed block of the text
exactly when reading stops at the closer (`compileExpr_closed_iff`): an expression that stops before
it leaves a part of its block out. And a text that is one output compiles as an expression under the
same limit exactly when its first operand can do with a level less (`compileExpr_of_output_iff`);
one level more is always enough.
-/

namespace TemplateLang

open TokenReader

/-! ## Reading with the opener and behind it -/

namespace Expr

/-- **`SparesLevel levels tokens`** — the first operand can be read with one level less. -/
def SparesLevel (levels : Nat) (tokens : List Token) : Prop :=
  ∃ inner first left, levels = inner + 1 ∧ readPrimary inner tokens = .accepted first left

section Opener

variable {levels p : Nat} {o : Token} {rest left : List Token} {e : Expr}
  (ho : o.Is .delimiter "\x7b\x7b")

include ho

/-- With an opener in front, the first operand is read with one level less and the rest with all. -/
theorem read_opener_succ (inner : Nat) :
    read (inner + 1) p (o :: rest) =
      (readPrimary inner rest).andThen fun first left => readTail (inner + 1) p first left := by
  show (readPrimary (inner + 1) (o :: rest)).andThen _ = _
  rw [readPrimary_opener ho]

theorem read_opener_zero : (read 0 p (o :: rest)).TooDeep := by
  have hprimary : readPrimary 0 (o :: rest) = .refused (.tooDeep o) rest :=
    readPrimary_opener ho 0 rest
  exact Outcome.TooDeep.andThen ⟨o, rest, hprimary⟩ _

/-- What is read with an opener in front is also read behind it. -/
theorem read_of_read_opener (h : read levels p (o :: rest) = .accepted e left) :
    read levels p rest = .accepted e left := by
  cases levels with
  | zero =>
      have hdeep : (read 0 p (o :: rest)).TooDeep := read_opener_zero ho
      rw [h] at hdeep
      exact absurd hdeep (Outcome.not_tooDeep_accepted e left)
  | succ inner =>
      rw [read_opener_succ ho] at h
      obtain ⟨first, mid, hfirst, htail⟩ := Outcome.andThen_eq_accepted_iff.mp h
      have hmore := (approximates_readPrimary_and_readTail inner _ (Nat.le_succ inner)).1 rest
      rw [hfirst] at hmore
      have heq := hmore.eq_of_not_tooDeep (Outcome.not_tooDeep_accepted first mid)
      exact Outcome.andThen_eq_accepted_iff.mpr ⟨first, mid, heq.symm, htail⟩

/-- **What is read behind the opener is read with it** exactly when the first operand spares a
level; otherwise the levels run out. -/
theorem read_opener_cases (h : read levels p rest = .accepted e left) :
    (SparesLevel levels rest ∧ read levels p (o :: rest) = .accepted e left) ∨
      (¬ SparesLevel levels rest ∧ (read levels p (o :: rest)).TooDeep) := by
  obtain ⟨first, mid, hfirst, htail⟩ := Outcome.andThen_eq_accepted_iff.mp h
  cases levels with
  | zero =>
      refine .inr ⟨?_, read_opener_zero ho⟩
      rintro ⟨inner, _, _, hlevels, _⟩
      cases hlevels
  | succ inner =>
      rw [read_opener_succ ho]
      have hfewer := (approximates_readPrimary_and_readTail inner _ (Nat.le_succ inner)).1 rest
      rw [hfirst] at hfewer
      rcases hfewer with hdeep | heq
      · refine .inr ⟨?_, hdeep.andThen _⟩
        rintro ⟨less, first', mid', hlevels, hread⟩
        obtain rfl : inner = less := Nat.succ.inj hlevels
        rw [hread] at hdeep
        exact Outcome.not_tooDeep_accepted first' mid' hdeep
      · refine .inl ⟨⟨inner, first, mid, rfl, heq⟩, ?_⟩
        rw [heq]
        exact htail

/-- One level more makes up for the opener. -/
theorem read_opener_of_read (h : read levels p rest = .accepted e left) :
    read (levels + 1) p (o :: rest) = .accepted e left := by
  obtain ⟨first, mid, hfirst, htail⟩ := Outcome.andThen_eq_accepted_iff.mp h
  have htail : readTail levels p first mid = .accepted e left := htail
  have hmore := approximates_readTail (Nat.le_succ levels) p first mid
  rw [htail] at hmore
  rw [read_opener_succ ho, hfirst, Outcome.andThen_accepted]
  exact (hmore.eq_of_not_tooDeep (Outcome.not_tooDeep_accepted e left)).symm

end Opener

end Expr

/-! ## The tokens of such a text -/

/-- **`BeginsWithOutput text`** — the text begins with the opening delimiter of an output block. -/
def BeginsWithOutput (text : String) : Prop :=
  (Delimiter.opening .output).text.toList <+: text.toList

instance (text : String) : Decidable (BeginsWithOutput text) :=
  inferInstanceAs (Decidable (_ <+: _))

/-- The first token of such a text is the opener. -/
theorem BeginsWithOutput.tokens_eq {text : String} (h : BeginsWithOutput text) {name : String}
    {stream : TokenStream} (hstream : TokenStream.ofSource ⟨name, text⟩ = .ok stream) :
    ∃ opener behind, opener.Is .delimiter "\x7b\x7b" ∧ stream.tokens = opener :: behind := by
  obtain ⟨more, hmore⟩ := h
  refine ⟨⟨.delimiter, (Delimiter.opening .output).text, 0⟩,
    (Scan.run (.behind (.opening .output) 0) 2 more).tokens, ⟨rfl, rfl⟩, ?_⟩
  rw [TokenStream.tokens_of_ofSource hstream, Scan.ofText, ← hmore, Scan.run_delimiter]
  rfl

/-- A text has a closed beginning behind every token that closes an output block. -/
theorem exists_closed_block {text : String} {before behind : List Token} {closer : Token}
    (htokens : (Scan.ofText text).tokens = before ++ closer :: behind)
    (hcloser : closer.Is .delimiter (Delimiter.closing .output).text) :
    ∃ block tail : String, text = block ++ tail ∧ Scan.Closed block (before ++ [closer]) ∧
      (Delimiter.closing .output).text.toList <:+ block.toList := by
  obtain ⟨kind, closerText, offset⟩ := closer
  obtain ⟨rfl, rfl⟩ : kind = .delimiter ∧ closerText = (Delimiter.closing .output).text := hcloser
  have houtside : (before ++ [Token.mk .delimiter (Delimiter.closing .output).text offset]).foldl
      Token.insideBehind false = false := by
    rw [List.foldl_append]
    exact Token.insideBehind_delimiter (.closing .output) offset
      (before.foldl Token.insideBehind false)
  obtain ⟨block, tail, raw, hsplit, hclosed, hraw, hsuffix⟩ :=
    Scan.exists_closed_beginning htokens (.inl rfl) houtside
  obtain rfl : raw = (Delimiter.closing .output).text.toList := hraw
  exact ⟨block, tail, hsplit, hclosed, hsuffix⟩

/-! ## Output blocks of templates -/

namespace Template

section Output

variable {levels : Nat} {o : Token} {tokens : List Token} {e : Expr}
  (ho : o.Is .delimiter "\x7b\x7b")

include ho

/-- A template that is one output has its expression in front of a closer. -/
theorem exists_closer_of_read {left : List Token}
    (h : read levels (o :: tokens) = .accepted [.output e] left) :
    ∃ closer strays, closer.Is .delimiter (Delimiter.closing .output).text ∧
      Expr.read levels 0 tokens = .accepted e (closer :: strays) := by
  rw [read_eq_accepted_iff, readNodes_cons, readItem_output ho] at h
  obtain ⟨found, rest, hitem, hgoOn⟩ := Outcome.andThen_eq_accepted_iff.mp h
  obtain ⟨value, inner, hvalue, hclose⟩ := Outcome.andThen_eq_accepted_iff.mp hitem
  obtain ⟨_, more, hend, hpure⟩ := Outcome.andThen_eq_accepted_iff.mp hclose
  cases hpure
  obtain ⟨closer, hcloser, rfl⟩ := expectBlockEnd_eq_accepted_iff.mp hend
  obtain ⟨_, _, hnodes, _⟩ := prepend_eq_accepted hgoOn
  obtain ⟨hnode, -⟩ := List.cons_eq_cons.mp hnodes
  cases hnode
  exact ⟨closer, _, hcloser, hvalue⟩

/-- An expression in front of a closer and the end of the tokens is a template of one output. -/
theorem read_of_closer {closer : Token}
    (hcloser : closer.Is .delimiter (Delimiter.closing .output).text)
    (h : Expr.read levels 0 tokens = .accepted e [closer]) :
    read levels (o :: tokens) = .accepted [.output e] [] := by
  rw [read_eq_accepted_iff, readNodes_cons, readItem_output ho, h, Outcome.andThen_accepted,
    expectBlockEnd_cons hcloser]
  show prepend [.output e] (readNodes levels []) = _
  rw [readNodes_nil]
  rfl

end Output

end Template

/-! ## Where reading stops -/

/-- The cursor behind a reader stands at the first of the tokens that it left. -/
theorem TokenStream.current?_leaving {s : TokenStream} {left : List Token}
    (h : left <:+ s.tokens) : (s.leaving left.length).current? = left.head? := by
  obtain ⟨used, hused⟩ := h
  have hposition : s.tokens.length - left.length = used.length := by
    rw [← hused, List.length_append]
    omega
  show s.tokens[s.tokens.length - left.length]? = left.head?
  rw [hposition, ← hused, List.getElem?_append_right (Nat.le_refl _), Nat.sub_self,
    List.head?_eq_getElem?]

/-- **`StopsAtCloser text options`** — the cursor behind the expression that the text begins with
stands at the closing delimiter of an output block. -/
def StopsAtCloser (text : String) (options : Options) : Prop :=
  ∃ stream closer, TokenStream.ofSource ⟨options.name, text⟩ = .ok stream ∧
    (stream.readExpr options 0).2.current? = some closer ∧
      closer.Is .delimiter (Delimiter.closing .output).text

section Entries

variable {text : String} {options : Options} {e : Expr}

theorem stopsAtCloser_iff {stream : TokenStream} {left : List Token}
    (hstream : TokenStream.ofSource ⟨options.name, text⟩ = .ok stream)
    (hread : Expr.read options.maxDepth 0 stream.tokens = .accepted e left) :
    StopsAtCloser text options ↔
      ∃ closer strays, closer.Is .delimiter (Delimiter.closing .output).text ∧
        left = closer :: strays := by
  have hcursor : (stream.readExpr options 0).2.current? = left.head? := by
    have hsuffix := Expr.leavesSuffix_read options.maxDepth 0 stream.tokens
    rw [hread] at hsuffix
    rw [TokenStream.readExpr, TokenStream.read, (TokenStream.remaining_of_ofSource hstream).2,
      hread]
    exact TokenStream.current?_leaving hsuffix
  constructor
  · rintro ⟨_, closer, hother, hcurrent, hcloser⟩
    cases hstream.symm.trans hother
    rw [hcursor] at hcurrent
    obtain ⟨strays, hleft⟩ := List.head?_eq_some_iff.mp hcurrent
    exact ⟨closer, strays, hcloser, hleft⟩
  · rintro ⟨closer, strays, hcloser, rfl⟩
    exact ⟨stream, closer, hstream, hcursor, hcloser⟩

/-- A text that is one output has a closed beginning up to the closer of its expression, which is
read there whatever follows. -/
theorem exists_closed_of_output (hbegins : BeginsWithOutput text)
    (h : compileTemplate text options = .ok [.output e]) :
    ∃ front back o used closer, text = front ++ back ∧
      Scan.Closed front (o :: used ++ [closer]) ∧
      closer.Is .delimiter (Delimiter.closing .output).text ∧
      ∀ more, Expr.read options.maxDepth 0 (used ++ closer :: more) =
        .accepted e (closer :: more) := by
  rw [compileTemplate_eq_compileWith] at h
  obtain ⟨stream, _, hstream, hread⟩ := compileWith_eq_ok_iff.mp h
  obtain ⟨o, inside, ho, htokens⟩ := hbegins.tokens_eq hstream
  rw [htokens] at hread
  obtain ⟨closer, strays, hcloser, hvalue⟩ := Template.exists_closer_of_read ho hread
  obtain ⟨used, rfl⟩ : closer :: strays <:+ inside := by
    have hsuffix := Expr.leavesSuffix_read options.maxDepth 0 inside
    rwa [hvalue] at hsuffix
  have hscan : (Scan.ofText text).tokens = (o :: used) ++ closer :: strays := by
    rw [← TokenStream.tokens_of_ofSource hstream, htokens]
    rfl
  obtain ⟨front, back, htext, hclosed, -⟩ := exists_closed_block hscan hcloser
  exact ⟨front, back, o, used, closer, htext, hclosed, hcloser,
    Expr.read_eq_accepted_of_next hvalue⟩

/-- A closed text of an opener, an expression and a closer is one output. -/
theorem compileTemplate_of_closed {o closer : Token} {used : List Token}
    (hclosed : Scan.Closed text (o :: used ++ [closer])) (ho : o.Is .delimiter "\x7b\x7b")
    (hcloser : closer.Is .delimiter (Delimiter.closing .output).text)
    (h : Expr.read options.maxDepth 0 (used ++ [closer]) = .accepted e [closer]) :
    compileTemplate text options = .ok [.output e] := by
  rw [compileTemplate_eq_compileWith]
  exact compileWith_of_accepted hclosed.ofText_eq nofun (Template.read_of_closer ho hcloser h)

/-- **What compiles as an expression is a closed block** exactly when reading stops at a closer:
then, and only then, the text begins with a piece that ends in the closing delimiter and is, as a
template, the output of that expression. -/
theorem compileExpr_closed_iff (hbegins : BeginsWithOutput text)
    (h : compileExpr text options = .ok e) :
    (∃ block tail : String, text = block ++ tail ∧
        (Delimiter.closing .output).text.toList <:+ block.toList ∧
          compileTemplate block options = .ok [.output e]) ↔
      StopsAtCloser text options := by
  rw [compileExpr_eq_compileWith] at h
  obtain ⟨stream, left, hstream, hread⟩ := compileWith_eq_ok_iff.mp h
  obtain ⟨o, behind, ho, htokens⟩ := hbegins.tokens_eq hstream
  have hscan : (Scan.ofText text).tokens = o :: behind :=
    (TokenStream.tokens_of_ofSource hstream).symm.trans htokens
  rw [stopsAtCloser_iff hstream hread]
  rw [htokens] at hread
  have hbehind := Expr.read_of_read_opener ho hread
  constructor
  · rintro ⟨block, tail, rfl, hends, hblock⟩
    have hlength : (Delimiter.opening .output).text.toList.length ≤
        (Delimiter.closing .output).text.toList.length := by decide
    have hprefix : BeginsWithOutput block := by
      refine List.prefix_of_prefix_length_le hbegins ?_ (Nat.le_trans hlength hends.length_le)
      rw [String.toList_append]
      exact List.prefix_append block.toList tail.toList
    obtain ⟨front, back, _, used, closer, rfl, hclosed, hcloser, hvalue⟩ :=
      exists_closed_of_output hprefix hblock
    -- up to this closer, the tokens of the block are those of the whole text
    obtain ⟨more, rfl⟩ : ∃ more, behind = used ++ closer :: more := by
      rw [String.append_assoc, hclosed, Scan.prepend, List.append_assoc] at hscan
      exact ⟨_, (List.cons_eq_cons.mp hscan).2.symm⟩
    rw [hvalue more] at hbehind
    cases hbehind
    exact ⟨closer, more, hcloser, rfl⟩
  · rintro ⟨closer, strays, hcloser, rfl⟩
    obtain ⟨used, rfl⟩ : closer :: strays <:+ behind := by
      have hsuffix := Expr.leavesSuffix_read options.maxDepth 0 behind
      rwa [hbehind] at hsuffix
    have hsplit : (Scan.ofText text).tokens = (o :: used) ++ closer :: strays := hscan
    obtain ⟨block, tail, rfl, hclosed, hends⟩ := exists_closed_block hsplit hcloser
    exact ⟨block, tail, rfl, hends, compileTemplate_of_closed hclosed ho hcloser
      (Expr.read_eq_accepted_of_next hbehind [])⟩

end Entries

/-- A sum in an output block, and text behind it. -/
def sumText : String :=
  "\x7b\x7b a + 1 \x7d\x7d left"

def sumTokens : List Token :=
  [⟨.delimiter, "\x7b\x7b", 0⟩, ⟨.word, "a", 3⟩, ⟨.operator, "+", 5⟩, ⟨.word, "1", 7⟩,
    ⟨.delimiter, "\x7d\x7d", 9⟩, ⟨.text, " left", 11⟩]

def sumExpr : Expr :=
  .binary .add (.leaf ⟨.word, "a", 3⟩) (.leaf ⟨.word, "1", 7⟩)

/-- The sum is read up to the closer, so a closed block of the text holds it. -/
theorem sumText_closed :
    BeginsWithOutput sumText ∧ compileExpr sumText ⟨1, "page"⟩ = .ok sumExpr ∧
      StopsAtCloser sumText ⟨1, "page"⟩ ∧
      ∃ block tail : String, sumText = block ++ tail ∧
        (Delimiter.closing .output).text.toList <:+ block.toList ∧
          compileTemplate block ⟨1, "page"⟩ = .ok [.output sumExpr] := by
  have hbegins : BeginsWithOutput sumText := by decide
  have hscan : Scan.ofText sumText = ⟨sumTokens, .complete⟩ := by decide +kernel
  obtain ⟨stream, hstream, htokens⟩ :=
    TokenStream.exists_of_scan hscan (List.cons_ne_nil _ _) "page"
  have hread : Expr.read 1 0 sumTokens =
      .accepted sumExpr [⟨.delimiter, "\x7d\x7d", 9⟩, ⟨.text, " left", 11⟩] := by cbv
  have hcompiles : compileExpr sumText ⟨1, "page"⟩ = .ok sumExpr := by
    rw [compileExpr_eq_compileWith]
    exact compileWith_of_accepted hscan (List.cons_ne_nil _ _) hread
  rw [← htokens] at hread
  have hstops : StopsAtCloser sumText ⟨1, "page"⟩ :=
    (stopsAtCloser_iff hstream hread).mpr ⟨_, _, ⟨rfl, rfl⟩, rfl⟩
  exact ⟨hbegins, hcompiles, hstops, (compileExpr_closed_iff hbegins hcompiles).mpr hstops⟩

/-- Two words in an output block. -/
def twoOperands : String :=
  "\x7b\x7b a b \x7d\x7d"

def twoOperandsTokens : List Token :=
  [⟨.delimiter, "\x7b\x7b", 0⟩, ⟨.word, "a", 3⟩, ⟨.word, "b", 5⟩, ⟨.delimiter, "\x7d\x7d", 7⟩]

/-- Not every text that begins with an output block and compiles as an expression has that
expression in a closed block: here the second word is left out. -/
theorem not_every_leading_expression_closed :
    ¬ ∀ (text : String) (options : Options) (e : Expr), BeginsWithOutput text →
      compileExpr text options = .ok e →
        ∃ block tail : String, text = block ++ tail ∧
          (Delimiter.closing .output).text.toList <:+ block.toList ∧
            compileTemplate block options = .ok [.output e] := by
  intro hall
  have hscan : Scan.ofText twoOperands = ⟨twoOperandsTokens, .complete⟩ := by decide +kernel
  have hread : Expr.read 1 0 twoOperandsTokens =
      .accepted (.leaf ⟨.word, "a", 3⟩)
        [⟨.word, "b", 5⟩, ⟨.delimiter, "\x7d\x7d", 7⟩] := by cbv
  have hcompiles : compileExpr twoOperands ⟨1, "page"⟩ = .ok (.leaf ⟨.word, "a", 3⟩) := by
    rw [compileExpr_eq_compileWith]
    exact compileWith_of_accepted hscan (List.cons_ne_nil _ _) hread
  obtain ⟨block, tail, htext, hends, hblock⟩ := hall _ _ _ (by decide) hcompiles
  -- only the whole text ends in the closing delimiter
  have hwhole : ∀ k < twoOperands.toList.length + 1,
      (Delimiter.closing .output).text.toList <:+ twoOperands.toList.take k →
        twoOperands.toList.take k = twoOperands.toList := by decide +kernel
  have hprefix : block.toList <+: twoOperands.toList := by
    rw [htext, String.toList_append]
    exact List.prefix_append _ _
  have htake := List.prefix_iff_eq_take.mp hprefix
  rw [htake] at hends
  have hsame := hwhole _ (Nat.lt_succ_of_le hprefix.length_le) hends
  rw [← htake] at hsame
  rw [String.toList_injective hsame] at hblock
  have hrefused : Template.read 1 twoOperandsTokens =
      .refused (.unexpected (.blockEnd .output) ⟨.word, "b", 5⟩)
        [⟨.delimiter, "\x7d\x7d", 7⟩] := by cbv
  have hfails : compileTemplate twoOperands ⟨1, "page"⟩ =
      .error (.located (.unexpectedToken (.blockEnd .output) "b") ⟨5, 1⟩
        ⟨"page", twoOperands⟩) := by
    rw [compileTemplate_eq_compileWith]
    exact compileWith_of_refused hscan (List.cons_ne_nil _ _) hrefused rfl
  rw [hblock] at hfails
  cases hfails

/-! ## The level that the opener takes -/

/-- **`SparesLevel text options`** — the first operand of the output block that the text begins with
can be read with one level less than the limit. -/
def SparesLevel (text : String) (options : Options) : Prop :=
  ∃ stream opener behind, TokenStream.ofSource ⟨options.name, text⟩ = .ok stream ∧
    stream.tokens = opener :: behind ∧ Expr.SparesLevel options.maxDepth behind

section Levels

variable {text : String} {options : Options} {stream : TokenStream} {opener : Token}
  {behind : List Token}

theorem sparesLevel_iff (hstream : TokenStream.ofSource ⟨options.name, text⟩ = .ok stream)
    (htokens : stream.tokens = opener :: behind) :
    SparesLevel text options ↔ Expr.SparesLevel options.maxDepth behind := by
  constructor
  · rintro ⟨_, _, _, hother, hsplit, hlevel⟩
    cases hstream.symm.trans hother
    cases htokens.symm.trans hsplit
    exact hlevel
  · intro hlevel
    exact ⟨stream, opener, behind, hstream, htokens, hlevel⟩

/-- **A text that is one output compiles as an expression** exactly when its first operand spares a
level for the opener. Otherwise its nesting is reported as too deep; a limit that is higher by one
is always enough. -/
theorem compileExpr_of_output_iff {e : Expr} (hbegins : BeginsWithOutput text)
    (h : compileTemplate text options = .ok [.output e]) :
    (compileExpr text options = .ok e ↔ SparesLevel text options) ∧
      (¬ SparesLevel text options → ReportsTooDeep (compileExpr text options)) ∧
      compileExpr text { options with maxDepth := options.maxDepth + 1 } = .ok e := by
  rw [compileTemplate_eq_compileWith] at h
  obtain ⟨stream, _, hstream, hread⟩ := compileWith_eq_ok_iff.mp h
  obtain ⟨o, behind, ho, htokens⟩ := hbegins.tokens_eq hstream
  rw [htokens] at hread
  obtain ⟨closer, strays, -, hvalue⟩ := Template.exists_closer_of_read ho hread
  have hok (levels : Nat) (hlevels : Expr.read levels 0 (o :: behind) =
      .accepted e (closer :: strays)) :
      compileExpr text { options with maxDepth := levels } = .ok e := by
    rw [compileExpr_eq_compileWith]
    refine compileWith_eq_ok_iff.mpr ⟨stream, closer :: strays, hstream, ?_⟩
    rw [htokens]
    exact hlevels
  have hmore := hok _ (Expr.read_opener_of_read ho hvalue)
  rw [sparesLevel_iff hstream htokens]
  rcases Expr.read_opener_cases ho hvalue with ⟨hspares, hsame⟩ | ⟨hnot, hrest⟩
  · have hcompiles := hok _ hsame
    exact ⟨⟨fun _ => hspares, fun _ => hcompiles⟩, fun hnot => absurd hspares hnot, hmore⟩
  · have hdeep : ReportsTooDeep (compileExpr text options) := by
      rw [compileExpr_eq_compileWith, compileWith_of_ok hstream,
        TokenStream.reportsTooDeep_read_iff, (TokenStream.remaining_of_ofSource hstream).2,
        htokens]
      exact hrest
    refine ⟨⟨fun hcompiles => ?_, fun hspares => absurd hspares hnot⟩, fun _ => hdeep, hmore⟩
    obtain ⟨_, _, _, herror⟩ := hdeep
    rw [hcompiles] at herror
    cases herror

end Levels

/-- One word in an output block. -/
def oneOperand : String :=
  "\x7b\x7b a \x7d\x7d"

def oneOperandTokens : List Token :=
  [⟨.delimiter, "\x7b\x7b", 0⟩, ⟨.word, "a", 3⟩, ⟨.delimiter, "\x7d\x7d", 5⟩]

theorem compileTemplate_oneOperand (limit : Nat) :
    compileTemplate oneOperand ⟨limit, "page"⟩ = .ok [.output (.leaf ⟨.word, "a", 3⟩)] := by
  have hscan : Scan.ofText oneOperand = ⟨oneOperandTokens, .complete⟩ := by decide +kernel
  have hread : Expr.read limit 0 [⟨.word, "a", 3⟩, ⟨.delimiter, "\x7d\x7d", 5⟩] =
      .accepted (.leaf ⟨.word, "a", 3⟩) [⟨.delimiter, "\x7d\x7d", 5⟩] := by
    cases limit <;> cbv
  rw [compileTemplate_eq_compileWith]
  exact compileWith_of_accepted hscan (List.cons_ne_nil _ _)
    (Template.read_of_closer ⟨rfl, rfl⟩ ⟨rfl, rfl⟩ hread)

/-- With a limit of one, the word is read with the level that the opener leaves. -/
theorem oneOperand_compiles :
    BeginsWithOutput oneOperand ∧
      compileTemplate oneOperand ⟨1, "page"⟩ = .ok [.output (.leaf ⟨.word, "a", 3⟩)] ∧
      SparesLevel oneOperand ⟨1, "page"⟩ ∧
      compileExpr oneOperand ⟨1, "page"⟩ = .ok (.leaf ⟨.word, "a", 3⟩) := by
  have hbegins : BeginsWithOutput oneOperand := by decide
  have hscan : Scan.ofText oneOperand = ⟨oneOperandTokens, .complete⟩ := by decide +kernel
  obtain ⟨stream, hstream, htokens⟩ :=
    TokenStream.exists_of_scan hscan (List.cons_ne_nil _ _) "page"
  have hspares : SparesLevel oneOperand ⟨1, "page"⟩ :=
    (sparesLevel_iff hstream htokens).mpr
      ⟨0, .leaf ⟨.word, "a", 3⟩, [⟨.delimiter, "\x7d\x7d", 5⟩], rfl, by cbv⟩
  have hcompiles := compileTemplate_oneOperand 1
  exact ⟨hbegins, hcompiles, hspares,
    (compileExpr_of_output_iff hbegins hcompiles).1.mpr hspares⟩

/-- Not every text that is one output compiles as an expression under the same limit: with a limit
of zero the opener has no level to take. -/
theorem not_every_output_compiles_as_expression :
    ¬ ∀ (text : String) (options : Options) (e : Expr), BeginsWithOutput text →
      compileTemplate text options = .ok [.output e] → compileExpr text options = .ok e := by
  intro hall
  have hcompiles := hall oneOperand ⟨0, "page"⟩ _ (by decide) (compileTemplate_oneOperand 0)
  have hscan : Scan.ofText oneOperand = ⟨oneOperandTokens, .complete⟩ := by decide +kernel
  have hrefused : Expr.read 0 0 oneOperandTokens =
      .refused (.tooDeep ⟨.delimiter, "\x7b\x7b", 0⟩)
        [⟨.word, "a", 3⟩, ⟨.delimiter, "\x7d\x7d", 5⟩] := by cbv
  have hfails : compileExpr oneOperand ⟨0, "page"⟩ =
      .error (.located (.nestingTooDeep 0) ⟨0, 2⟩ ⟨"page", oneOperand⟩) := by
    rw [compileExpr_eq_compileWith]
    exact compileWith_of_refused hscan (List.cons_ne_nil _ _) hrefused rfl
  rw [hcompiles] at hfails
  cases hfails

end TemplateLang

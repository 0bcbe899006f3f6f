import TemplateLang.Proofs.Diagnostic.Anchor
import TemplateLang.Proofs.Entry

/-!
# TemplateLang.Proofs.Diagnostic.Pinpoint — every diagnostic points at real source text

The label of an error has to cover something that a reader of the template can see. `Pinpoints` says
so: the span is not empty, lies inside the source between characters, and covers just the token that
the error is about; where the text breaks off inside a string it covers the quote that began the
string. Main statement (`compile_error_pinpoints`): apart from the empty input, every error of
either entry point is so, and none of them comes from reading past the last token.

There are two sources of errors. A text that breaks off is traced through the rules of the scan to
the opening delimiter, or the quote, behind which nothing fits (`Runs.opened`,
`Runs.unclosed_of_ending`). A reader's fault on the tokens of a source is anchored at one of them,
and the segmentation of the source says where that token stands.
-/

namespace TemplateLang

/-! ## Texts that break off -/

namespace Scan

/-- **`Opened offset cs tokens kind start`** — the text `cs` at `offset` has the opening delimiter
at `start`, and the tokens have it too. -/
def Opened (offset : Nat) (cs : List Char) (tokens : List Token) (kind : BlockKind)
    (start : Nat) : Prop :=
  ∃ front back, cs = front ++ (Delimiter.opening kind).text.toList ++ back ∧
    offset + Text.byteLength front = start ∧
      ⟨.delimiter, (Delimiter.opening kind).text, start⟩ ∈ tokens

/-- **`Unclosed offset cs quote start`** — the text `cs` at `offset` has the quote at `start`, and
no such quote behind it. -/
def Unclosed (offset : Nat) (cs : List Char) (quote : Char) (start : Nat) : Prop :=
  ∃ front body, cs = front ++ quote :: body ∧ offset + Text.byteLength front = start ∧
    isQuote quote = true ∧ quote ∉ body

variable {rest : List Char} {offset stop start : Nat} {tokens more : List Token}
  {kind : BlockKind} {quote : Char}

theorem Opened.behind (piece : List Char) (h : Opened stop rest tokens kind start)
    (hstop : stop = offset + Text.byteLength piece) (hmore : tokens ⊆ more) :
    Opened offset (piece ++ rest) more kind start := by
  obtain ⟨front, back, rfl, hstart, hmem⟩ := h
  refine ⟨piece ++ front, back, by simp only [List.append_assoc], ?_, hmore hmem⟩
  rw [Text.byteLength_append, ← Nat.add_assoc, ← hstop, hstart]

theorem Unclosed.behind (piece : List Char) (h : Unclosed stop rest quote start)
    (hstop : stop = offset + Text.byteLength piece) :
    Unclosed offset (piece ++ rest) quote start := by
  obtain ⟨front, body, rfl, hstart, hquote⟩ := h
  refine ⟨piece ++ front, body, by simp only [List.append_assoc], ?_, hquote⟩
  rw [Text.byteLength_append, ← Nat.add_assoc, ← hstop, hstart]

/-- **A text that ends inside a block** began there, or has the delimiter that opened the block. -/
theorem Runs.opened {mode : Mode} {cs : List Char} {s : Scan} (h : Runs mode offset cs s)
    (hend : s.ending = .insideBlock kind start) :
    mode = .block kind start ∨ Opened offset cs s.tokens kind start := by
  induction h with
  | done mode offset =>
      cases mode with
      | literal => cases hend
      | block kind' start' =>
          cases hend
          exact .inl rfl
  | @delimiter mode offset rest s d _ ih =>
      refine .inr ?_
      rcases ih hend with hmode | hopened
      · cases d with
        | closing block => cases hmode
        | opening block =>
            cases hmode
            exact ⟨[], rest, rfl, rfl, List.mem_cons_self⟩
      · exact hopened.behind _ (congrArg (offset + ·) d.byteLength_text.symm)
          (List.subset_cons_self _ _)
  | @blank mode offset c rest s _ _ _ ih =>
      exact (ih hend).imp_right fun hopened =>
        hopened.behind [c] rfl (List.Subset.refl _)
  | operator _ _ _ _ _ _ ih =>
      exact (ih hend).imp_right fun hopened => hopened.behind _ rfl (List.subset_cons_self _ _)
  | @quoted mode offset q body rest s hq _ _ ih =>
      have hsplit : q :: body ++ q :: rest = (q :: body ++ [q]) ++ rest := by simp
      rw [hsplit]
      exact (ih hend).imp_right fun hopened =>
        hopened.behind _ (congrArg (offset + ·) (byteLength_quoted hq body).symm)
          (List.subset_cons_self _ _)
  | unclosed => cases hend
  | plain _ _ _ ih =>
      exact (ih hend).imp_right fun hopened => hopened.behind _ rfl (List.subset_cons_self _ _)

/-- **A text that ends inside a string** has the quote that began the string. -/
theorem Runs.unclosed_of_ending {mode : Mode} {cs : List Char} {s : Scan}
    (h : Runs mode offset cs s) (hend : s.ending = .insideString quote start) :
    Unclosed offset cs quote start := by
  induction h with
  | done mode offset => cases mode <;> cases hend
  | @delimiter mode offset rest s d _ ih =>
      exact (ih hend).behind _ (congrArg (offset + ·) d.byteLength_text.symm)
  | @blank mode offset c rest s _ _ _ ih => exact (ih hend).behind [c] rfl
  | operator _ _ _ _ _ _ ih => exact (ih hend).behind _ rfl
  | @quoted mode offset q body rest s hq _ _ ih =>
      have hsplit : q :: body ++ q :: rest = (q :: body ++ [q]) ++ rest := by simp
      rw [hsplit]
      exact (ih hend).behind _ (congrArg (offset + ·) (byteLength_quoted hq body).symm)
  | @unclosed mode offset q body hq hbody =>
      cases hend
      exact ⟨[], body, rfl, rfl, hq, hbody⟩
  | plain _ _ _ ih => exact (ih hend).behind _ rfl

end Scan

/-! ## Problems and the tokens they are about -/

/-- The tokens of a source; of one that breaks off inside a string or a block, those before that. -/
def Source.tokens (source : Source) : List Token :=
  (Scan.ofText source.text).tokens

/-- **`problem.ShownAt source span`** — the span is that of the token which the problem is about,
and the text that the problem tells is the token's. A string that is not closed is no token; it is
shown at its quote. -/
inductive Problem.ShownAt (source : Source) : Problem → Span → Prop
  | unterminatedString {quote : Char} {offset : Nat} (hquote : isQuote quote = true)
      (hreads : source.Reads ⟨offset, 1⟩ [quote]) :
      ShownAt source (.unterminatedString quote) ⟨offset, 1⟩
  | unterminatedBlock {kind : BlockKind} {opener : Token} (h : opener ∈ source.tokens)
      (hopener : opener.Is .delimiter (Delimiter.opening kind).text)
      (hreads : source.Reads opener.span opener.text.toList) :
      ShownAt source (.unterminatedBlock kind) opener.span
  | unexpectedToken (expected : Expectation) {found : Token} (h : found ∈ source.tokens) :
      ShownAt source (.unexpectedToken expected found.text) found.span
  | missingOperand {closer : Token} (h : closer ∈ source.tokens)
      (hcloser : closer.isCloser = true) : ShownAt source .missingOperand closer.span
  | misplaced (part : StatementPart) {found : Token} (h : found ∈ source.tokens) :
      ShownAt source (.malformedBlock (.misplaced part found.text)) found.span
  | unknownStatement {keyword : Token} (h : keyword ∈ source.tokens) :
      ShownAt source (.malformedBlock (.unknownStatement keyword.text)) keyword.span
  | neverClosed (keyword : String) {opener : Token} (h : opener ∈ source.tokens) :
      ShownAt source (.malformedBlock (.neverClosed keyword)) opener.span
  | strayEnd {keyword : Token} (h : keyword ∈ source.tokens) :
      ShownAt source (.malformedBlock (.strayEnd keyword.text)) keyword.span
  | nestingTooDeep (limit : Nat) {place : Token} (h : place ∈ source.tokens) :
      ShownAt source (.nestingTooDeep limit) place.span

/-- **`Pinpoints source problem span`** — the span shows what the problem is about, and the problem
is none of reading past the last token. -/
structure Pinpoints (source : Source) (problem : Problem) (span : Span) : Prop where
  nonempty : 1 ≤ span.length
  bounded : span.stop ≤ source.size
  boundary_offset : source.IsBoundary span.offset
  boundary_stop : source.IsBoundary span.stop
  shown : problem.ShownAt source span
  /-- No part of a statement is reported missing for want of tokens. -/
  not_missing : ∀ part, problem ≠ .malformedBlock (.missing part)
  /-- Nothing is reported behind the last byte. -/
  not_at_end : span ≠ source.endSpan

theorem Problem.ShownAt.not_missing {source : Source} {problem : Problem} {span : Span}
    (h : problem.ShownAt source span) (part : StatementPart) :
    problem ≠ .malformedBlock (.missing part) := by
  rintro rfl
  cases h

theorem Span.ne_endSpan {source : Source} {span : Span} (h : 1 ≤ span.length) :
    span ≠ source.endSpan := by
  rintro rfl
  exact absurd h (Nat.not_succ_le_zero 0)

/-- A span in which the source reads something shows what it is the span of. -/
theorem Source.Reads.pinpoints {source : Source} {span : Span} {cs : List Char} {problem : Problem}
    (h : source.Reads span cs) (hne : 1 ≤ span.length) (hshown : problem.ShownAt source span) :
    Pinpoints source problem span where
  nonempty := hne
  bounded := h.stop_le_size
  boundary_offset := h.isBoundary_offset
  boundary_stop := h.isBoundary_stop
  shown := hshown
  not_missing := hshown.not_missing
  not_at_end := Span.ne_endSpan hne

theorem Lossless.pinpoints {source : Source} {t : Token} {problem : Problem}
    (h : Lossless source source.tokens) (ht : t ∈ source.tokens)
    (hshown : problem.ShownAt source t.span) : Pinpoints source problem t.span where
  nonempty := h.nonempty t ht
  bounded := (h.bounded t ht).1
  boundary_offset := (h.bounded t ht).2.1
  boundary_stop := (h.bounded t ht).2.2
  shown := hshown
  not_missing := hshown.not_missing
  not_at_end := Span.ne_endSpan (h.nonempty t ht)

/-! ## Errors -/

/-- **`PinpointsIn source e`** — the error is empty input, or a problem that it pinpoints in the
source. -/
def PinpointsIn (source : Source) (e : CompileError) : Prop :=
  (∃ name, e = .emptyInput name) ∨
    ∃ problem span, e = .located problem span source ∧ Pinpoints source problem span

/-- An anchored fault is an error that is shown at its token. -/
theorem Fault.Anchored.pinpointsIn {source : Source} {fault : Fault}
    (h : fault.Anchored source.tokens) (hlossless : Lossless source source.tokens) (limit : Nat) :
    PinpointsIn source (fault.toError source limit) := by
  refine .inr ?_
  cases h with
  | missingOperand h hcloser => exact ⟨_, _, rfl, hlossless.pinpoints h (.missingOperand h hcloser)⟩
  | unexpected expected h => exact ⟨_, _, rfl, hlossless.pinpoints h (.unexpectedToken expected h)⟩
  | misplaced part h => exact ⟨_, _, rfl, hlossless.pinpoints h (.misplaced part h)⟩
  | unknownStatement h => exact ⟨_, _, rfl, hlossless.pinpoints h (.unknownStatement h)⟩
  | neverClosed keyword h => exact ⟨_, _, rfl, hlossless.pinpoints h (.neverClosed keyword h)⟩
  | strayEnd h => exact ⟨_, _, rfl, hlossless.pinpoints h (.strayEnd h)⟩
  | tooDeep h => exact ⟨_, _, rfl, hlossless.pinpoints h (.nestingTooDeep limit h)⟩

namespace TokenStream

/-- The tokens of a source that tokenizes are settled. -/
theorem ahead_of_ofSource {source : Source} {stream : TokenStream}
    (h : ofSource source = .ok stream) : Ahead source.tokens false stream.remaining := by
  obtain ⟨hend, -⟩ := ofSource_eq_ok_iff.mp h
  rw [(remaining_of_ofSource h).2, tokens_of_ofSource h]
  exact ⟨.of_runs (Scan.runs_run .literal 0 _) hend, fun _ ht => ht⟩

/-- A source that does not tokenize is shown where its text breaks off. -/
theorem pinpointsIn_of_ofSource {source : Source} {e : CompileError}
    (h : ofSource source = .error e) : PinpointsIn source e := by
  have hruns := Scan.runs_run .literal 0 source.text.toList
  unfold ofSource at h
  cases hend : (Scan.ofText source.text).ending with
  | complete =>
      simp only [hend, ofTokens] at h
      split at h
      · cases h
        exact .inl ⟨_, rfl⟩
      · cases h
  | insideString quote offset =>
      simp only [hend] at h
      cases h
      obtain ⟨front, body, htext, hoffset, hquote, -⟩ := hruns.unclosed_of_ending hend
      rw [Nat.zero_add] at hoffset
      have hreads : source.Reads ⟨offset, 1⟩ [quote] :=
        ⟨front, body, by rw [htext]; simp, hoffset, utf8Size_of_isQuote hquote⟩
      exact .inr ⟨_, _, rfl, hreads.pinpoints (Nat.le_refl 1) (.unterminatedString hquote hreads)⟩
  | insideBlock kind offset =>
      simp only [hend] at h
      cases h
      rcases hruns.opened hend with hmode | ⟨front, back, htext, hoffset, hmem⟩
      · cases hmode
      · rw [Nat.zero_add] at hoffset
        have hlength := (Delimiter.opening kind).byteLength_text
        have hreads : source.Reads ⟨offset, 2⟩ (Delimiter.opening kind).text.toList :=
          ⟨front, back, htext, hoffset, hlength⟩
        have hspan : (Token.mk .delimiter (Delimiter.opening kind).text offset).span =
            ⟨offset, 2⟩ := congrArg (Span.mk offset) hlength
        have hshown : (Problem.unterminatedBlock kind).ShownAt source ⟨offset, 2⟩ := by
          rw [← hspan]
          exact .unterminatedBlock hmem ⟨rfl, rfl⟩ (by rw [hspan]; exact hreads)
        exact .inr ⟨_, _, rfl, hreads.pinpoints (Nat.le_succ 1) hshown⟩

end TokenStream

/-- An entry point pinpoints its errors if its reader has anchored faults on the tokens of
sources. -/
theorem pinpointsIn_of_compileWith {α : Type} {reader : Nat → TokenReader α}
    (hreader : ∀ {all tokens : List Token} (levels : Nat), Ahead all false tokens → tokens ≠ [] →
      ∃ after, (reader levels tokens).Lands all after fun _ => True)
    {text : String} {options : Options} {e : CompileError}
    (h : compileWith reader text options = .error e) :
    PinpointsIn ⟨options.name, text⟩ e := by
  cases hsource : TokenStream.ofSource ⟨options.name, text⟩ with
  | error e' =>
      rw [compileWith_of_error hsource] at h
      cases h
      exact TokenStream.pinpointsIn_of_ofSource hsource
  | ok stream =>
      obtain ⟨hplace, htokens⟩ := TokenStream.remaining_of_ofSource hsource
      have hne : stream.remaining ≠ [] := by
        rw [htokens]
        exact stream.tokens_ne_nil
      have hlossless := TokenStream.lossless_of_ofSource hsource
      rw [TokenStream.tokens_of_ofSource hsource] at hlossless
      obtain ⟨after, hlands⟩ :=
        hreader options.maxDepth (TokenStream.ahead_of_ofSource hsource) hne
      rw [compileWith_of_ok hsource, TokenStream.read] at h
      cases ho : reader options.maxDepth stream.remaining with
      | accepted value rest =>
          rw [ho] at h
          cases h
      | refused fault rest =>
          rw [ho] at h hlands
          cases h
          rw [hplace]
          exact Fault.Anchored.pinpointsIn hlands hlossless options.maxDepth

/-- **Every diagnostic points at real source text.** An error of either entry point that is not the
empty input is a problem of the source, pinpointed in it. -/
theorem compile_error_pinpoints (text : String) (options : Options) {e : CompileError}
    (h : compileTemplate text options = .error e ∨ compileExpr text options = .error e)
    (hne : ∀ name, e ≠ .emptyInput name) :
    ∃ problem span, e = .located problem span ⟨options.name, text⟩ ∧
      Pinpoints ⟨options.name, text⟩ problem span := by
  have hin : PinpointsIn ⟨options.name, text⟩ e := by
    rcases h with h | h
    · rw [compileTemplate_eq_compileWith] at h
      refine pinpointsIn_of_compileWith (fun levels hahead _ => ?_) h
      exact ⟨false, Template.keeps_read levels _ hahead⟩
    · rw [compileExpr_eq_compileWith] at h
      exact pinpointsIn_of_compileWith (fun _ hahead hne => Expr.lands_read_outside hahead hne) h
  rcases hin with ⟨name, rfl⟩ | hlocated
  · exact absurd rfl (hne name)
  · exact hlocated

/-- The error that compiling comes to, if it does. -/
def errorOf? {α : Type} : Except CompileError α → Option CompileError
  | .error e => some e
  | .ok _ => none

theorem errorOf?_eq_some_iff {α : Type} {result : Except CompileError α} {e : CompileError} :
    errorOf? result = some e ↔ result = .error e := by
  cases result with
  | error e' => simp [errorOf?]
  | ok value => simp [errorOf?]

/-- Two words in one output block, behind a character of two bytes. -/
def twoWords : String := "é\x7b\x7b 'ü' name \x7d\x7d"

/-- The error is at the second word, where the block should have ended. -/
theorem twoWords_pinpointed :
    compileTemplate twoWords ⟨3, "page"⟩ =
        .error (.located (.unexpectedToken (.blockEnd .output) "name") ⟨10, 4⟩
          ⟨"page", twoWords⟩) ∧
      Pinpoints ⟨"page", twoWords⟩ (.unexpectedToken (.blockEnd .output) "name") ⟨10, 4⟩ := by
  have herror : compileTemplate twoWords ⟨3, "page"⟩ =
      .error (.located (.unexpectedToken (.blockEnd .output) "name") ⟨10, 4⟩
        ⟨"page", twoWords⟩) := by
    rw [← errorOf?_eq_some_iff]
    decide +kernel
  obtain ⟨problem, span, heq, hpinpoints⟩ :=
    compile_error_pinpoints twoWords ⟨3, "page"⟩ (.inl herror) fun name h => by cases h
  cases heq
  exact ⟨herror, hpinpoints⟩

end TemplateLang

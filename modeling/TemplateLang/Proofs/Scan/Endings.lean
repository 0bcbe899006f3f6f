import TemplateLang.Proofs.Scan.Modes

/-!
# TemplateLang.Proofs.Scan.Endings — what tokenizing comes to, told from quotes and delimiters

A string begins at every quote that no other string covers, whatever the mode there. So the strings
of a text can be found without scanning it: pair every quote with the next one of its kind, and go
on behind it (`pairQuotes`). The scan finds the same pairs, and ends inside a string exactly where
the pairing meets a quote without a partner (`Runs.pairedAs`). Any other scan ends in the mode
of its last delimiter. Main statement (`ofSource_classified`): quotes and the last delimiter decide
whether a source tokenizes and which error it has if it does not.
-/

namespace TemplateLang

/-! ## Pairing quotes -/

/-- Two quotes of one kind, and what stands between them. -/
structure QuotePair where
  quote : Char
  /-- The offset of the first of the two. -/
  offset : Nat
  body : List Char
deriving DecidableEq

/-- The token of the string between two quotes. -/
def QuotePair.token (p : QuotePair) : Token :=
  ⟨.quoted, String.ofList p.body, p.offset⟩

/-- The pairs of quotes in a text, and the quote without a partner that ends the search for them. -/
structure Pairing where
  pairs : List QuotePair
  single? : Option (Char × Nat)
deriving DecidableEq

/-- The pairing with one more pair in front. -/
def Pairing.cons (p : QuotePair) (found : Pairing) : Pairing :=
  ⟨p :: found.pairs, found.single?⟩

/-- Pairs the quotes of `cs`, the text that stands at `offset`: a quote goes with the next one of
its kind, and the search goes on behind that. -/
def pairQuotes (offset : Nat) (cs : List Char) : Pairing :=
  match cs with
  | [] => ⟨[], none⟩
  | c :: tail =>
      if isQuote c then
        let body := tail.takeWhile (· != c)
        match _h : tail.dropWhile (· != c) with
        | [] => ⟨[], some (c, offset)⟩
        | d :: rest =>
            (pairQuotes (offset + Text.byteLength (c :: body ++ [d])) rest).cons ⟨c, offset, body⟩
      else pairQuotes (offset + c.utf8Size) tail
termination_by cs.length
decreasing_by
  -- behind a pair
  · have hle := (List.dropWhile_sublist (· != c) (l := tail)).length_le
    rw [_h, List.length_cons] at hle
    simp only [List.length_cons]
    omega
  -- behind any other character
  · simp

/-- A string that covers a delimiter, one that covers a quote of the other kind, and a quote without
a partner. -/
example : pairQuotes 0 "\x7b\x7b 'a\x7d\x7d' \"'\" '".toList =
    ⟨[⟨'\'', 3, ['a', '}', '}']⟩, ⟨'"', 9, ['\'']⟩], some ('\'', 13)⟩ := by decide +kernel

theorem bne_of_notMem {q : Char} {body : List Char} (hbody : q ∉ body) :
    ∀ c ∈ body, (c != q) = true := by
  intro c hc
  rw [bne_iff_ne]
  rintro rfl
  exact hbody hc

/-- A quote goes with the next one of its kind. -/
theorem pairQuotes_quoted {q : Char} (hq : isQuote q = true) {body : List Char} (hbody : q ∉ body)
    (offset : Nat) (rest : List Char) :
    pairQuotes offset (q :: body ++ q :: rest) =
      (pairQuotes (offset + (Text.byteLength body + 2)) rest).cons ⟨q, offset, body⟩ := by
  have hpass := bne_of_notMem hbody
  have htake : (body ++ q :: rest).takeWhile (· != q) = body := by
    rw [List.takeWhile_append_of_pos hpass, List.takeWhile_cons_of_neg (by simp), List.append_nil]
  have hdrop : (body ++ q :: rest).dropWhile (· != q) = q :: rest := by
    rw [List.dropWhile_append_of_pos hpass, List.dropWhile_cons_of_neg (by simp)]
  rw [List.cons_append, pairQuotes, if_pos hq]
  split
  · next h =>
      rw [hdrop] at h
      cases h
  · next d rest' h =>
      rw [hdrop] at h
      obtain ⟨rfl, rfl⟩ := List.cons_eq_cons.mp h
      simp only [htake, byteLength_quoted hq]

/-- A quote that does not come again has no partner. -/
theorem pairQuotes_single {q : Char} (hq : isQuote q = true) {body : List Char} (hbody : q ∉ body)
    (offset : Nat) : pairQuotes offset (q :: body) = ⟨[], some (q, offset)⟩ := by
  have hdrop : body.dropWhile (· != q) = [] := by
    rw [← List.append_nil body, List.dropWhile_append_of_pos (bne_of_notMem hbody),
      List.dropWhile_nil]
  rw [pairQuotes, if_pos hq]
  split
  · rfl
  · next h =>
      rw [hdrop] at h
      cases h

/-- A piece without a quote has no part in the pairing. -/
theorem pairQuotes_append {piece : List Char} (h : ∀ c ∈ piece, isQuote c = false) (offset : Nat)
    (rest : List Char) :
    pairQuotes offset (piece ++ rest) = pairQuotes (offset + Text.byteLength piece) rest := by
  induction piece generalizing offset with
  | nil => rfl
  | cons c piece ih =>
      obtain ⟨hc, hpiece⟩ := List.forall_mem_cons.mp h
      rw [List.cons_append, pairQuotes, if_neg (by rw [hc]; decide), ih hpiece,
        Text.byteLength_cons, Nat.add_assoc]

/-! ## The scan pairs quotes -/

/-- The quote that begins the string in which a text ends. -/
def Ending.quote? : Ending → Option (Char × Nat)
  | .insideString quote offset => some (quote, offset)
  | .complete => none
  | .insideBlock _ _ => none

/-- Where a text does not end inside a string, its mode says how it ends. -/
theorem Mode.quote?_ending (mode : Mode) : mode.ending.quote? = none := by
  cases mode <;> rfl

theorem Delimiter.isQuote_of_mem {d : Delimiter} {c : Char} (hc : c ∈ d.text.toList) :
    isQuote c = false := by
  have hall : Delimiter.all.all (fun d => d.text.toList.all (!isQuote ·)) = true := by decide
  have hd : d ∈ Delimiter.all := by
    rcases d with block | block <;> cases block <;> decide
  have hnot := List.all_eq_true.mp (List.all_eq_true.mp hall d hd) c hc
  rwa [Bool.not_eq_true'] at hnot

/-- The strings among the tokens. -/
def quotedTokens (tokens : List Token) : List Token :=
  tokens.filter fun t => t.kind == .quoted

namespace Scan

variable {mode : Mode} {offset : Nat} {cs : List Char} {s : Scan}

/-- **`PairedAs found s`** — the strings of the scan are the pairs found, and the string that it
ends in, if any, begins at the quote without a partner. -/
structure PairedAs (found : Pairing) (s : Scan) : Prop where
  quoted : quotedTokens s.tokens = found.pairs.map QuotePair.token
  single : s.ending.quote? = found.single?

theorem PairedAs.cons {found : Pairing} {t : Token} (h : PairedAs found s)
    (ht : t.kind ≠ .quoted) : PairedAs found (s.cons t) where
  quoted := by
    rw [quotedTokens, tokens_cons, List.filter_cons_of_neg (by simpa using ht)]
    exact h.quoted
  single := h.single

theorem PairedAs.cons_pair {found : Pairing} (h : PairedAs found s) (p : QuotePair) :
    PairedAs (found.cons p) (s.cons p.token) where
  quoted := by
    rw [quotedTokens, tokens_cons, List.filter_cons_of_pos (by rfl)]
    exact congrArg (p.token :: ·) h.quoted
  single := h.single

/-- **The scan pairs quotes**, whatever the modes that it is in. -/
theorem Runs.pairedAs (h : Runs mode offset cs s) : PairedAs (pairQuotes offset cs) s := by
  induction h with
  | done mode offset =>
      rw [pairQuotes]
      exact ⟨rfl, mode.quote?_ending⟩
  | delimiter d _ ih =>
      rw [pairQuotes_append fun c hc => d.isQuote_of_mem hc, d.byteLength_text]
      exact ih.cons (by simp)
  | @blank mode offset c rest s _ hc _ ih =>
      have hquote : isQuote c ≠ true := by
        intro hquote
        rw [isBlank_of_isQuote hquote] at hc
        cases hc
      rw [pairQuotes, if_neg hquote]
      exact ih
  | @operator mode offset special rest s _ _ hspecial _ _ _ ih =>
      have hfree : ∀ c ∈ special, isQuote c = false := by
        intro c hc
        rw [Bool.eq_false_iff]
        intro hquote
        have hc := hspecial c hc
        rw [isSpecial_of_isQuote hquote] at hc
        cases hc
      rw [pairQuotes_append hfree]
      exact ih.cons (by simp)
  | quoted hq hbody _ ih =>
      rw [pairQuotes_quoted hq hbody]
      exact ih.cons_pair _
  | unclosed hq hbody =>
      rw [pairQuotes_single hq hbody]
      exact ⟨rfl, rfl⟩
  | @plain mode offset plain rest s _ hplain _ ih =>
      rw [pairQuotes_append fun c hc => (hplain.goesOn_mem hc).1]
      exact ih.cons (by cases mode <;> simp [Mode.plainKind])

end Scan

/-! ## How a scan ends -/

/-- Two delimiters differ in their texts. -/
theorem Delimiter.eq_of_text_eq {d e : Delimiter} (h : d.text = e.text) : d = e := by
  have hd := ofText?_text d
  rw [h, ofText?_text e] at hd
  exact (Option.some.inj hd).symm

theorem Delimiter.closingFor?_opening (kind : BlockKind) :
    closingFor? (opening kind).text = some (.closing kind) := by
  rw [closingFor?, ofText?_text]

/-- A delimiter covers two bytes. -/
theorem Token.Is.span_delimiter {t : Token} {d : Delimiter} (h : t.Is .delimiter d.text) :
    t.span = ⟨t.offset, 2⟩ := by
  obtain ⟨kind, text, offset⟩ := t
  obtain ⟨rfl, rfl⟩ : kind = .delimiter ∧ text = d.text := h
  exact congrArg (Span.mk offset) d.byteLength_text

theorem kind_of_lastDelimiter? {tokens : List Token} {t : Token}
    (h : lastDelimiter? tokens = some t) : t.kind = .delimiter := by
  have hmem := List.mem_of_getLast? h
  exact beq_iff_eq.mp (List.mem_filter.mp hmem).2

/-- Outside every block at first, a place is inside a block exactly when the last delimiter before
it opened that block. -/
theorem ModeBehind.eq_block_iff {tokens : List Token} {after : Mode} {kind : BlockKind}
    {start : Nat} (h : ModeBehind .literal tokens after) :
    after = .block kind start ↔
      ∃ opener, lastDelimiter? tokens = some opener ∧
        opener.Is .delimiter (Delimiter.opening kind).text ∧ opener.offset = start := by
  unfold ModeBehind at h
  cases hlast : lastDelimiter? tokens with
  | none =>
      rw [hlast] at h
      obtain rfl : after = .literal := h
      simp
  | some t =>
      rw [hlast] at h
      obtain ⟨d, ht, rfl⟩ := h
      constructor
      · intro hblock
        cases d with
        | opening block =>
            cases hblock
            exact ⟨t, rfl, ht, rfl⟩
        | closing block => cases hblock
      · rintro ⟨opener, hopener, his, rfl⟩
        cases hopener
        have hd : d = .opening kind := Delimiter.eq_of_text_eq (ht.2.symm.trans his.2)
        rw [hd]
        rfl

namespace Scan

variable {offset : Nat} {cs : List Char} {s : Scan}

/-- A text without tokens that ends outside every block and string is empty. -/
theorem Runs.eq_nil {mode : Mode} (h : Runs mode offset cs s) (htokens : s.tokens = [])
    (hend : s.ending = .complete) : cs = [] := by
  have hsegments := Segments.of_runs h hend
  rw [htokens] at hsegments
  exact hsegments.eq_nil

section Endings

variable (h : Runs .literal offset cs s)

include h

theorem Runs.ending_insideString_iff {quote : Char} {start : Nat} :
    s.ending = .insideString quote start ↔
      (pairQuotes offset cs).single? = some (quote, start) := by
  rw [← h.pairedAs.single]
  cases s.ending <;> simp [Ending.quote?]

theorem Runs.ending_insideBlock_iff {kind : BlockKind} {start : Nat} :
    s.ending = .insideBlock kind start ↔ (pairQuotes offset cs).single? = none ∧
      ∃ opener, lastDelimiter? s.tokens = some opener ∧
        opener.Is .delimiter (Delimiter.opening kind).text ∧ opener.offset = start := by
  obtain ⟨after, hmode, hending | ⟨quote, begun, hending⟩⟩ := h.ending_eq
  · rw [← h.pairedAs.single, hending, after.quote?_ending, ← hmode.eq_block_iff]
    cases after <;> simp [Mode.ending]
  · rw [← h.pairedAs.single, hending]
    simp [Ending.quote?]

theorem Runs.ending_complete_iff :
    s.ending = .complete ↔
      (pairQuotes offset cs).single? = none ∧ ¬ LeavesOpen s.tokens := by
  obtain ⟨after, hmode, hending | ⟨quote, begun, hending⟩⟩ := h.ending_eq
  · rw [← h.pairedAs.single, hending, after.quote?_ending, ← hmode.isBlock_iff]
    cases after <;> simp [Mode.ending, Mode.isBlock]
  · rw [← h.pairedAs.single, hending]
    simp [Ending.quote?]

end Endings

end Scan

/-! ## The outcomes of tokenizing -/

/-- **`Classified source`** — what tokenizing the source comes to is told from the pairing of its
quotes and from the last delimiter among the tokens. -/
structure Classified (source : Source) : Prop where
  /-- There is nothing in the source. -/
  empty : ∀ name, TokenStream.ofSource source = .error (.emptyInput name) ↔
    source.text = "" ∧ name = source.name
  /-- The pairing meets a quote without a partner: the error is about that quote. -/
  string : ∀ quote span place,
    TokenStream.ofSource source = .error (.located (.unterminatedString quote) span place) ↔
      ∃ offset, (pairQuotes 0 source.text.toList).single? = some (quote, offset) ∧
        span = ⟨offset, 1⟩ ∧ place = source
  /-- Otherwise, the last delimiter is an opening one: the error is about that delimiter and the
  closing one that belongs to it, -/
  block : ∀ kind span place,
    TokenStream.ofSource source = .error (.located (.unterminatedBlock kind) span place) ↔
      (pairQuotes 0 source.text.toList).single? = none ∧
        ∃ opener, lastDelimiter? (Scan.ofText source.text).tokens = some opener ∧
          opener.text = (Delimiter.opening kind).text ∧
          Delimiter.closingFor? opener.text = some (.closing kind) ∧
          span = opener.span ∧ place = source
  /-- and tells their texts. -/
  named : ∀ kind span place opener closer,
    TokenStream.ofSource source = .error (.located (.unterminatedBlock kind) span place) →
      lastDelimiter? (Scan.ofText source.text).tokens = some opener →
      Delimiter.closingFor? opener.text = some closer →
        (Problem.unterminatedBlock kind).message = "source ends inside `" ++ opener.text ++ "`" ∧
          (Problem.unterminatedBlock kind).help? =
            some ("add `" ++ closer.text ++ "` to close this block")
  /-- Otherwise the source has a stream, -/
  stream : (∃ stream, TokenStream.ofSource source = .ok stream) ↔
    source.text ≠ "" ∧ (pairQuotes 0 source.text.toList).single? = none ∧
      ¬ LeavesOpen (Scan.ofText source.text).tokens
  /-- and its strings are the pairs of quotes. -/
  quoted : ∀ stream, TokenStream.ofSource source = .ok stream →
    quotedTokens stream.tokens = (pairQuotes 0 source.text.toList).pairs.map QuotePair.token

namespace TokenStream

variable {source : Source}

/-- A source that does not tokenize is one without tokens, or one that ends inside a string or a
block. -/
theorem ofSource_eq_error_iff {e : CompileError} :
    ofSource source = .error e ↔
      ((Scan.ofText source.text).ending = .complete ∧ (Scan.ofText source.text).tokens = [] ∧
        e = .emptyInput source.name) ∨
      (∃ quote offset, (Scan.ofText source.text).ending = .insideString quote offset ∧
        e = .located (.unterminatedString quote) ⟨offset, 1⟩ source) ∨
      ∃ kind offset, (Scan.ofText source.text).ending = .insideBlock kind offset ∧
        e = .located (.unterminatedBlock kind) ⟨offset, 2⟩ source := by
  unfold ofSource
  cases hend : (Scan.ofText source.text).ending with
  | complete =>
      simp only [hend, ofTokens]
      split
      · next hnil => simp [hnil, eq_comm]
      · next hne => simp [hne]
  | insideString quote offset => simp [hend, @eq_comm _ e, and_assoc]
  | insideBlock kind offset => simp [hend, @eq_comm _ e, and_assoc]

/-- A source without tokens that ends outside every block and string is empty. -/
theorem tokens_eq_nil_iff (hend : (Scan.ofText source.text).ending = .complete) :
    (Scan.ofText source.text).tokens = [] ↔ source.text = "" := by
  constructor
  · intro htokens
    exact String.toList_eq_nil_iff.mp ((Scan.runs_ofText source.text).eq_nil htokens hend)
  · intro htext
    rw [htext]
    decide +kernel

theorem ofSource_eq_emptyInput_iff {name : String} :
    ofSource source = .error (.emptyInput name) ↔ source.text = "" ∧ name = source.name := by
  rw [ofSource_eq_error_iff]
  constructor
  · rintro (⟨hend, htokens, ⟨⟩⟩ | ⟨_, _, _, ⟨⟩⟩ | ⟨_, _, _, ⟨⟩⟩)
    exact ⟨(tokens_eq_nil_iff hend).mp htokens, rfl⟩
  · rintro ⟨htext, rfl⟩
    have hend : (Scan.ofText source.text).ending = .complete := by
      rw [htext]
      decide +kernel
    exact .inl ⟨hend, (tokens_eq_nil_iff hend).mpr htext, rfl⟩

theorem ofSource_eq_unterminatedString_iff {quote : Char} {span : Span} {place : Source} :
    ofSource source = .error (.located (.unterminatedString quote) span place) ↔
      ∃ offset, (pairQuotes 0 source.text.toList).single? = some (quote, offset) ∧
        span = ⟨offset, 1⟩ ∧ place = source := by
  simp only [← (Scan.runs_ofText source.text).ending_insideString_iff]
  rw [ofSource_eq_error_iff]
  constructor
  · rintro (⟨_, _, ⟨⟩⟩ | ⟨_, offset, hend, ⟨⟩⟩ | ⟨_, _, _, ⟨⟩⟩)
    exact ⟨offset, hend, rfl, rfl⟩
  · rintro ⟨offset, hend, rfl, rfl⟩
    exact .inr (.inl ⟨quote, offset, hend, rfl⟩)

/-- A source that ends inside a block does so behind its last delimiter, which opened the block. -/
theorem ofSource_eq_unterminatedBlock_iff {kind : BlockKind} {span : Span} {place : Source} :
    ofSource source = .error (.located (.unterminatedBlock kind) span place) ↔
      (pairQuotes 0 source.text.toList).single? = none ∧
        ∃ opener, lastDelimiter? (Scan.ofText source.text).tokens = some opener ∧
          opener.text = (Delimiter.opening kind).text ∧
          Delimiter.closingFor? opener.text = some (.closing kind) ∧
          span = opener.span ∧ place = source := by
  have hruns := Scan.runs_ofText source.text
  rw [ofSource_eq_error_iff]
  constructor
  · rintro (⟨_, _, ⟨⟩⟩ | ⟨_, _, _, ⟨⟩⟩ | ⟨_, offset, hend, ⟨⟩⟩)
    obtain ⟨hsingle, opener, hlast, his, rfl⟩ := hruns.ending_insideBlock_iff.mp hend
    refine ⟨hsingle, opener, hlast, his.2, ?_, his.span_delimiter.symm, rfl⟩
    rw [his.2]
    exact Delimiter.closingFor?_opening kind
  · rintro ⟨hsingle, opener, hlast, htext, -, rfl, rfl⟩
    have his : opener.Is .delimiter (Delimiter.opening kind).text :=
      ⟨kind_of_lastDelimiter? hlast, htext⟩
    have hend := hruns.ending_insideBlock_iff.mpr ⟨hsingle, opener, hlast, his, rfl⟩
    exact .inr (.inr ⟨kind, opener.offset, hend, by rw [his.span_delimiter]⟩)

theorem exists_ofSource_eq_ok_iff :
    (∃ stream, ofSource source = .ok stream) ↔
      source.text ≠ "" ∧ (pairQuotes 0 source.text.toList).single? = none ∧
        ¬ LeavesOpen (Scan.ofText source.text).tokens := by
  simp only [ofSource_eq_ok_iff, ← (Scan.runs_ofText source.text).ending_complete_iff]
  constructor
  · rintro ⟨_, hend, hne, -⟩
    exact ⟨fun htext => hne ((tokens_eq_nil_iff hend).mpr htext), hend⟩
  · rintro ⟨htext, hend⟩
    exact ⟨_, hend, fun hnil => htext ((tokens_eq_nil_iff hend).mp hnil), rfl⟩

/-- **The outcome of tokenizing is told from quotes and the last delimiter.** -/
theorem ofSource_classified (source : Source) : Classified source where
  empty _ := ofSource_eq_emptyInput_iff
  string _ _ _ := ofSource_eq_unterminatedString_iff
  block _ _ _ := ofSource_eq_unterminatedBlock_iff
  named kind span place opener closer h hlast hcloser := by
    obtain ⟨-, found, hfound, htext, hclosing, -, -⟩ := ofSource_eq_unterminatedBlock_iff.mp h
    obtain rfl : found = opener := Option.some.inj (hfound.symm.trans hlast)
    obtain rfl : closer = .closing kind := Option.some.inj (hcloser.symm.trans hclosing)
    rw [htext]
    exact ⟨rfl, rfl⟩
  stream := exists_ofSource_eq_ok_iff
  quoted stream h := by
    obtain ⟨-, -, rfl⟩ := ofSource_eq_ok_iff.mp h
    exact (Scan.runs_ofText source.text).pairedAs.quoted

end TokenStream

end TemplateLang

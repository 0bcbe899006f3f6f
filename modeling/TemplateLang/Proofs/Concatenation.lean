import TemplateLang.Proofs.Entry
import TemplateLang.Proofs.Grammar.Template
import TemplateLang.Proofs.Lookahead
import TemplateLang.Proofs.Relocation
import TemplateLang.Proofs.Scan.Cut

/-!
# TemplateLang.Proofs.Concatenation — templates one behind the other

A template that compiles and ends in a delimiter or a string can be put in front of any other text.
The tokens of the whole are those of the first part and then those of the second, further on by the
length of the first; and what the second part compiles to, nodes or error, is what the whole
compiles to behind the nodes of the first (`Concatenates`, `compileTemplate_concatenates`).

Nothing is carried over the seam. The scan leaves literal mode and a closed text behind
(`Scan.closed_of_last`). The reader of nodes has come to the end of its tokens with no body open, so
behind them it goes on as it would begin (`Template.readNodes_append`); on its way it has looked at
no token that it did not use, since every expression of a template has a closer behind it. And where
the tokens of the second part stand it does not ask (`Template.follows_read`).
-/

namespace TemplateLang

open TokenReader

/-! ## Nodes in front of more tokens -/

namespace Template

theorem readBlockEnd_append {levels : Nat} {tokens left : List Token} {e : Expr}
    (h : readBlockEnd levels tokens = .accepted e left) (more : List Token) :
    readBlockEnd levels (tokens ++ more) = .accepted e (left ++ more) := by
  obtain ⟨c, hread, hc⟩ := readBlockEnd_eq_accepted_iff.mp h
  exact readBlockEnd_eq_accepted_iff.mpr ⟨c, Expr.read_append hread more, hc⟩

/-- **`EndsAtTag body`** — where the body ends at an end tag, it does so whatever stands behind. -/
def EndsAtTag (body : TokenReader Section) : Prop :=
  ∀ {tokens left : List Token} {nodes : List Node} {tag : Token},
    body tokens = .accepted ⟨nodes, some tag⟩ left →
      ∀ more, body (tokens ++ more) = .accepted ⟨nodes, some tag⟩ (left ++ more)

/-- An item is the same in front of more tokens. -/
theorem Leads.append {levels : Nat} {body : Token → TokenReader Section}
    (hbody : ∀ opener, EndsAtTag (body opener)) {t : Token} {rest left : List Token} {found : Item}
    (h : Leads levels body t rest found left) (more : List Token) :
    Leads levels body t (rest ++ more) found (left ++ more) := by
  cases h with
  | literal ht => exact .literal ht
  | stray ht houtput hstatement => exact .stray ht houtput hstatement
  | output ht he hc => exact .output ht (Expr.read_append he more) hc
  | assign ht hk hname hsign he =>
      exact .assign ht hk hname hsign (readBlockEnd_append he more)
  | conditional ht hk he hnodes =>
      exact .conditional ht hk (readBlockEnd_append he more) (hbody t hnodes more)
  | loop ht hk hname hsep he hnodes =>
      exact .loop ht hk hname hsep (readBlockEnd_append he more) (hbody t hnodes more)
  | endTag ht hk hc => exact .endTag ht hk hc

/-- What a section that left `left` comes to with more tokens behind it: if it ended at an end tag,
they are left as well, and otherwise its nodes go on with theirs. -/
def resume (levels : Nat) (s : Section) (left more : List Token) : Outcome Section :=
  match s.endTag with
  | some _ => .accepted s (left ++ more)
  | none => prepend s.nodes (readNodes levels more)

theorem prepend_resume (levels : Nat) (n : Node) (s : Section) (left more : List Token) :
    prepend [n] (resume levels s left more) = resume levels ⟨n :: s.nodes, s.endTag⟩ left more := by
  obtain ⟨nodes, endTag⟩ := s
  cases endTag with
  | some tag => rfl
  | none => exact prepend_prepend [n] nodes (readNodes levels more)

/-- Sections of one level, given that the bodies in them end at their tags. -/
theorem readNodes_append_level {levels : Nat}
    (hbody : ∀ opener, EndsAtTag (readEnclosed levels opener)) (more : List Token) :
    ∀ (bound : Nat) {tokens left : List Token} {s : Section}, tokens.length ≤ bound →
      readNodes levels tokens = .accepted s left →
        readNodes levels (tokens ++ more) = resume levels s left more := by
  intro bound
  induction bound with
  | zero =>
      intro tokens left s hlength h
      obtain rfl : tokens = [] := List.length_eq_zero_iff.mp (Nat.le_zero.mp hlength)
      rw [readNodes_nil] at h
      cases h
      exact (prepend_nil _).symm
  | succ bound ih =>
      intro tokens left s hlength h
      cases tokens with
      | nil =>
          rw [readNodes_nil] at h
          cases h
          exact (prepend_nil _).symm
      | cons t rest =>
          rw [readNodes_cons] at h
          obtain ⟨found, mid, hitem, hgoOn⟩ := Outcome.andThen_eq_accepted_iff.mp h
          have hmid : mid.length ≤ bound := by
            have hsuffix := leavesSuffix_readItem levels (leavesSuffix_readEnclosed levels) t rest
            rw [hitem] at hsuffix
            exact Nat.le_trans hsuffix.length_le (Nat.le_of_succ_le_succ hlength)
          have hsame := (readItem_eq_accepted_iff.mp hitem).append hbody more
          rw [List.cons_append, readNodes_cons, readItem_eq_accepted_iff.mpr hsame,
            Outcome.andThen_accepted]
          cases found with
          | skip => exact ih hmid hgoOn
          | endTag keyword =>
              cases hgoOn
              rfl
          | node n =>
              obtain ⟨inner, hinner, hnodes, htag⟩ := prepend_eq_accepted hgoOn
              obtain ⟨nodes, endTag⟩ := s
              obtain rfl : nodes = n :: inner.nodes := hnodes
              obtain rfl : endTag = inner.endTag := htag
              show prepend [n] (readNodes levels (mid ++ more)) = _
              rw [ih hmid hinner, prepend_resume]

/-- **Nodes are read in front of more tokens as they are by themselves.** -/
theorem readNodes_append {levels : Nat} {tokens left : List Token} {s : Section}
    (h : readNodes levels tokens = .accepted s left) (more : List Token) :
    readNodes levels (tokens ++ more) = resume levels s left more := by
  induction levels generalizing tokens left s more with
  | zero =>
      have hbody : ∀ opener, EndsAtTag (readEnclosed 0 opener) := by
        intro opener tokens left nodes tag h
        cases h
      exact readNodes_append_level hbody more tokens.length (Nat.le_refl _) h
  | succ levels ih =>
      have hbody : ∀ opener, EndsAtTag (readEnclosed (levels + 1) opener) := by
        intro opener tokens left nodes tag h more
        exact ih h more
      exact readNodes_append_level hbody more tokens.length (Nat.le_refl _) h

/-- A template in front of more tokens: its nodes, and then what is read from those. -/
theorem read_append {levels : Nat} {tokens left : List Token} {nodes : Template}
    (h : read levels tokens = .accepted nodes left) (more : List Token) :
    read levels (tokens ++ more) =
      (read levels more).andThen fun behind left => .accepted (nodes ++ behind) left := by
  have hnodes := readNodes_append (read_eq_accepted_iff.mp h) more
  unfold read
  rw [bind_apply, bind_apply, hnodes]
  show (prepend nodes (readNodes levels more)).andThen _ = _
  cases readNodes levels more with
  | refused fault left => rfl
  | accepted s left =>
      obtain ⟨behind, endTag⟩ := s
      cases endTag <;> rfl

end Template

/-! ## Errors further on -/

/-- The span, further on in its source by `n` bytes. -/
def Span.shift (n : Nat) (span : Span) : Span :=
  { span with offset := span.offset + n }

/-- The source with a text in front. -/
def Source.behind (front : String) (source : Source) : Source :=
  { source with text := front ++ source.text }

/-- The error with a text in front of its source: the same problem, at the same piece of text. -/
def CompileError.behind (front : String) : CompileError → CompileError
  | .emptyInput name => .emptyInput name
  | .located problem span source =>
      .located problem (span.shift (Text.byteLength front.toList)) (source.behind front)

theorem relocates_shift (n : Nat) : Relocates (Token.shift n) where
  kind _ := rfl
  text _ := rfl

theorem Source.endSpan_behind (front : String) (source : Source) :
    (source.behind front).endSpan = source.endSpan.shift (Text.byteLength front.toList) := by
  rw [endSpan, endSpan, Span.shift, size, size, behind, String.toList_append,
    Text.byteLength_append, Nat.add_comm]

/-- A fault further on is the error further on. -/
theorem Fault.toError_behind (fault : Fault) (front : String) (source : Source) (limit : Nat) :
    (fault.mapTokens (Token.shift (Text.byteLength front.toList))).toError (source.behind front)
        limit = (fault.toError source limit).behind front := by
  cases fault with
  | endsEarly =>
      show CompileError.located .missingOperand (source.behind front).endSpan _ = _
      rw [source.endSpan_behind]
      rfl
  | missingOperand closer => rfl
  | unexpected expected found => rfl
  | malformed fault place => rfl
  | tooDeep place => rfl

/-! ## Texts one behind the other -/

/-- **`EndsSealed text`** — the last token of the text is a delimiter or a string. -/
def EndsSealed (text : String) : Prop :=
  ∃ t ∈ (Scan.ofText text).tokens.getLast?, t.kind = .delimiter ∨ t.kind = .quoted

/-- **`Concatenates options front nodes back`** — what becomes of the text `back` behind the text
`front`, which compiles to `nodes`. -/
structure Concatenates (options : Options) (front : String) (nodes : Template) (back : String) :
    Prop where
  /-- The tokens of the second text follow those of the first. -/
  tokens : ∀ first second,
    TokenStream.ofSource ⟨options.name, front⟩ = .ok first →
      TokenStream.ofSource ⟨options.name, back⟩ = .ok second →
        ∃ whole, TokenStream.ofSource ⟨options.name, front ++ back⟩ = .ok whole ∧
          whole.tokens =
            first.tokens ++ second.tokens.map (Token.shift (Text.byteLength front.toList))
  /-- Where the second text does not tokenize, neither does the whole. -/
  breaksOff : ∀ e, TokenStream.ofSource ⟨options.name, back⟩ = .error e →
    TokenStream.ofSource ⟨options.name, front ++ back⟩ = .error (e.behind front)
  /-- The nodes of the second text follow those of the first. -/
  compiles : ∀ more, compileTemplate back options = .ok more →
    compileTemplate (front ++ back) options =
      .ok (nodes ++ Template.mapTokens (Token.shift (Text.byteLength front.toList)) more)
  /-- Where the second text does not compile, neither does the whole. -/
  fails : ∀ e, compileTemplate back options = .error e →
    compileTemplate (front ++ back) options = .error (e.behind front)

/-- A text that tokenizes and ends in a delimiter or a string is closed. -/
theorem EndsSealed.closed {name text : String} (h : EndsSealed text) {stream : TokenStream}
    (hstream : TokenStream.ofSource ⟨name, text⟩ = .ok stream) :
    Scan.Closed text stream.tokens := by
  obtain ⟨t, ht, hkind⟩ := h
  obtain ⟨before, hsplit⟩ := List.getLast?_eq_some_iff.mp ht
  obtain ⟨hend, -, rfl⟩ := TokenStream.ofSource_eq_ok_iff.mp hstream
  have hscan : Scan.ofText text = ⟨before ++ [t], .complete⟩ := by
    rw [← hsplit]
    exact congrArg (Scan.mk _) hend
  show Scan.Closed text (Scan.ofText text).tokens
  rw [hsplit]
  exact Scan.closed_of_last hscan hkind

section Closed

variable {name front back : String} {tokens : List Token} (hclosed : Scan.Closed front tokens)

include hclosed

/-- Behind a closed text another text tokenizes as it does by itself. -/
theorem TokenStream.ofSource_append {second : TokenStream}
    (h : ofSource ⟨name, back⟩ = .ok second) :
    ∃ whole, ofSource ⟨name, front ++ back⟩ = .ok whole ∧
      whole.tokens =
        tokens ++ second.tokens.map (Token.shift (Text.byteLength front.toList)) := by
  obtain ⟨hend, hne, rfl⟩ := ofSource_eq_ok_iff.mp h
  refine exists_of_scan ?_ ?_ name
  · rw [hclosed.ofText_append]
    show Scan.mk _ ((Scan.ofText back).ending.shift _) = _
    rw [hend]
    rfl
  · intro hnil
    exact hne (List.map_eq_nil_iff.mp (List.append_eq_nil_iff.mp hnil).2)

/-- Behind a closed text another text breaks off as it does by itself. -/
theorem TokenStream.ofSource_append_error (hback : back ≠ "") {e : CompileError}
    (h : ofSource ⟨name, back⟩ = .error e) :
    ofSource ⟨name, front ++ back⟩ = .error (e.behind front) := by
  have hending : (Scan.ofText (front ++ back)).ending =
      (Scan.ofText back).ending.shift (Text.byteLength front.toList) := by
    rw [hclosed.ofText_append]
    rfl
  cases hend : (Scan.ofText back).ending with
  | complete =>
      -- a text that is not empty has a token
      have hne : (Scan.ofText back).tokens ≠ [] := fun hnil =>
        hback (String.toList_eq_nil_iff.mp (Scan.eq_nil_of_run hend hnil))
      simp [ofSource, hend, ofTokens, hne] at h
  | insideString quote offset =>
      rw [hend] at hending
      simp only [ofSource, hend, Except.error.injEq] at h
      simp only [ofSource, hending, Ending.shift]
      rw [← h]
      rfl
  | insideBlock kind offset =>
      rw [hend] at hending
      simp only [ofSource, hend, Except.error.injEq] at h
      simp only [ofSource, hending, Ending.shift]
      rw [← h]
      rfl

end Closed

/-- A closed template in front of another: its nodes, and then what is read from the tokens of the
other, further on. -/
theorem Template.read_append_shift {levels : Nat} {tokens left : List Token} {nodes : Template}
    (h : read levels tokens = .accepted nodes left) (more : List Token) (n : Nat) :
    read levels (tokens ++ more.map (Token.shift n)) =
      ((read levels more).relocate (Token.shift n) (mapTokens (Token.shift n))).andThen
        fun behind left => .accepted (nodes ++ behind) left := by
  rw [read_append h, follows_read (relocates_shift n)]

/-- **Concatenating templates concatenates what they compile to.** -/
theorem compileTemplate_concatenates {front back : String} {options : Options} {nodes : Template}
    (h : compileTemplate front options = .ok nodes) (hlast : EndsSealed front)
    (hback : back ≠ "") : Concatenates options front nodes back := by
  rw [compileTemplate_eq_compileWith] at h
  obtain ⟨first, left, hfirst, hread⟩ := compileWith_eq_ok_iff.mp h
  have hclosed : Scan.Closed front first.tokens := hlast.closed hfirst
  refine ⟨?_, ?_, ?_, ?_⟩
  · intro first' second hfirst' hsecond
    cases hfirst.symm.trans hfirst'
    exact TokenStream.ofSource_append hclosed hsecond
  · intro e herror
    exact TokenStream.ofSource_append_error hclosed hback herror
  · intro more hmore
    rw [compileTemplate_eq_compileWith] at hmore ⊢
    obtain ⟨second, rest, hsecond, hmore⟩ := compileWith_eq_ok_iff.mp hmore
    obtain ⟨whole, hwhole, htokens⟩ := TokenStream.ofSource_append hclosed hsecond
    have happend := Template.read_append_shift hread second.tokens (Text.byteLength front.toList)
    rw [hmore, ← htokens] at happend
    exact compileWith_eq_ok_iff.mpr ⟨whole, _, hwhole, happend⟩
  · intro e herror
    rw [compileTemplate_eq_compileWith] at herror ⊢
    rcases compileWith_eq_error_iff.mp herror with
      hsource | ⟨second, fault, rest, hsecond, hrefused, rfl⟩
    · exact compileWith_of_error (TokenStream.ofSource_append_error hclosed hback hsource)
    · obtain ⟨whole, hwhole, htokens⟩ := TokenStream.ofSource_append hclosed hsecond
      have happend := Template.read_append_shift hread second.tokens (Text.byteLength front.toList)
      rw [hrefused, ← htokens] at happend
      exact compileWith_eq_error_iff.mpr
        (.inr ⟨whole, _, _, hwhole, happend, (fault.toError_behind front _ _).symm⟩)

/-- A character of two bytes and an output block. -/
def frontText : String :=
  "é\x7b\x7b a \x7d\x7d"

def frontTokens : List Token :=
  [⟨.text, "é", 0⟩, ⟨.delimiter, "\x7b\x7b", 2⟩, ⟨.word, "a", 5⟩, ⟨.delimiter, "\x7d\x7d", 7⟩]

/-- Two words in one output block. -/
def backText : String :=
  "\x7b\x7b b c \x7d\x7d"

def backTokens : List Token :=
  [⟨.delimiter, "\x7b\x7b", 0⟩, ⟨.word, "b", 3⟩, ⟨.word, "c", 5⟩, ⟨.delimiter, "\x7d\x7d", 7⟩]

theorem compileTemplate_backText : compileTemplate backText ⟨1, "page"⟩ =
    .error (.located (.unexpectedToken (.blockEnd .output) "c") ⟨5, 1⟩ ⟨"page", backText⟩) := by
  have hscan : Scan.ofText backText = ⟨backTokens, .complete⟩ := by decide +kernel
  have hread : Template.read 1 backTokens =
      .refused (.unexpected (.blockEnd .output) ⟨.word, "c", 5⟩)
        [⟨.delimiter, "\x7d\x7d", 7⟩] := by cbv
  rw [compileTemplate_eq_compileWith]
  exact compileWith_of_refused hscan (List.cons_ne_nil _ _) hread rfl

/-- The error of the second text comes 9 bytes further on. -/
theorem frontText_concatenates :
    compileTemplate frontText ⟨1, "page"⟩ =
        .ok [.literal "é", .output (.leaf ⟨.word, "a", 5⟩)] ∧
      EndsSealed frontText ∧ backText ≠ "" ∧
      Concatenates ⟨1, "page"⟩ frontText [.literal "é", .output (.leaf ⟨.word, "a", 5⟩)]
        backText ∧
      compileTemplate (frontText ++ backText) ⟨1, "page"⟩ =
        .error (.located (.unexpectedToken (.blockEnd .output) "c") ⟨14, 1⟩
          ⟨"page", frontText ++ backText⟩) := by
  have hscan : Scan.ofText frontText = ⟨frontTokens, .complete⟩ := by decide +kernel
  have hread : Template.read 1 frontTokens =
      .accepted [.literal "é", .output (.leaf ⟨.word, "a", 5⟩)] [] := by cbv
  have hcompiles : compileTemplate frontText ⟨1, "page"⟩ =
      .ok [.literal "é", .output (.leaf ⟨.word, "a", 5⟩)] := by
    rw [compileTemplate_eq_compileWith]
    exact compileWith_of_accepted hscan (List.cons_ne_nil _ _) hread
  have hlast : EndsSealed frontText := by
    rw [EndsSealed, hscan]
    exact ⟨_, rfl, .inl rfl⟩
  have hback : backText ≠ "" := by decide
  have hconcatenates := compileTemplate_concatenates hcompiles hlast hback
  exact ⟨hcompiles, hlast, hback, hconcatenates, hconcatenates.fails _ compileTemplate_backText⟩

end TemplateLang

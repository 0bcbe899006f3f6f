import TemplateLang.Options
import TemplateLang.Token.Reader
import TemplateLang.Token.Scan

/-!
# TemplateLang.Token.Stream — the tokens of a source, with a cursor

A token stream is what compiling works on: at least one token, the source that they came from, and
a cursor that moves forward only and stops behind the last token. A token reader starts at the
cursor and leaves it behind the last token that it read, whether it accepted or refused.
-/

namespace TemplateLang

/-- Tokens of a source and a cursor on them. -/
structure TokenStream where
  source : Source
  tokens : List Token
  /-- How many tokens lie behind the cursor. -/
  position : Nat
  tokens_ne_nil : tokens ≠ []
  position_le : position ≤ tokens.length

namespace TokenStream

/-! ## Making a stream -/

/-- The stream of the given tokens, which need not be those of the text. -/
def ofTokens (source : Source) (tokens : List Token) : Except CompileError TokenStream :=
  if h : tokens = [] then .error (.emptyInput source.name)
  else .ok ⟨source, tokens, 0, h, Nat.zero_le _⟩

/-- Tokenizes a source. A text that ends inside a string or a block has no stream. -/
def ofSource (source : Source) : Except CompileError TokenStream :=
  let scan := Scan.ofText source.text
  match scan.ending with
  | .insideString quote offset =>
      .error (.located (.unterminatedString quote) ⟨offset, 1⟩ source)
  | .insideBlock kind offset =>
      .error (.located (.unterminatedBlock kind) ⟨offset, 2⟩ source)
  | .complete => ofTokens source scan.tokens

/-- A source tokenizes exactly when its scan ends outside every block and string and holds a
token. -/
theorem ofSource_eq_ok_iff {source : Source} {stream : TokenStream} :
    ofSource source = .ok stream ↔
      (Scan.ofText source.text).ending = .complete ∧
        ∃ h : (Scan.ofText source.text).tokens ≠ [],
          stream = ⟨source, (Scan.ofText source.text).tokens, 0, h, Nat.zero_le _⟩ := by
  cases hend : (Scan.ofText source.text).ending with
  | insideString quote offset => simp [ofSource, hend]
  | insideBlock kind offset => simp [ofSource, hend]
  | complete =>
      simp only [ofSource, ofTokens, hend, true_and]
      split
      · next hnil => simp [hnil]
      · next hne =>
          constructor
          · intro h
            cases h
            exact ⟨hne, rfl⟩
          · rintro ⟨_, rfl⟩
            rfl

/-- The stream of a source, from its scan. -/
theorem ofSource_of_scan {source : Source} {tokens : List Token}
    (h : Scan.ofText source.text = ⟨tokens, .complete⟩) (hne : tokens ≠ []) :
    ofSource source = .ok ⟨source, tokens, 0, hne, Nat.zero_le _⟩ := by
  refine ofSource_eq_ok_iff.mpr ⟨by rw [h], by rwa [h], ?_⟩
  simp only [h]

/-! ## The cursor -/

/-- The number of tokens. -/
def size (s : TokenStream) : Nat :=
  s.tokens.length

/-- The tokens from the cursor on. -/
def remaining (s : TokenStream) : List Token :=
  s.tokens.drop s.position

/-- The token at the cursor. -/
def current? (s : TokenStream) : Option Token :=
  s.tokens[s.position]?

/-- The token behind the one at the cursor. -/
def peek? (s : TokenStream) : Option Token :=
  s.tokens[s.position + 1]?

/-- Whether the cursor is behind the last token. -/
def isExhausted (s : TokenStream) : Bool :=
  s.position == s.tokens.length

/-- The place of the token at the cursor, or the end of the source. -/
def currentSpan (s : TokenStream) : Span :=
  match s.current? with
  | some t => t.span
  | none => s.source.endSpan

/-- The stream with the cursor behind all but the last `left` tokens. -/
def leaving (s : TokenStream) (left : Nat) : TokenStream :=
  { s with position := s.tokens.length - left, position_le := Nat.sub_le _ _ }

/-- The stream with the cursor one token further, unless it is behind the last. -/
def advance (s : TokenStream) : TokenStream :=
  s.leaving (s.tokens.length - s.position - 1)

/-- The token at the cursor, and the stream with the cursor behind it. -/
def next (s : TokenStream) : Option Token × TokenStream :=
  (s.current?, s.advance)

@[simp] theorem tokens_leaving (s : TokenStream) (left : Nat) :
    (s.leaving left).tokens = s.tokens := rfl

@[simp] theorem source_leaving (s : TokenStream) (left : Nat) :
    (s.leaving left).source = s.source := rfl

/-- The cursor moves by one until it is behind the last token. -/
theorem position_advance (s : TokenStream) :
    s.advance.position = if s.position < s.tokens.length then s.position + 1 else s.position := by
  have h := s.position_le
  simp only [advance, leaving]
  split <;> omega

/-! ## Reading -/

/-- Reads from the cursor on, under the depth limit of the options, and moves the cursor behind
the last token read. -/
def read {α : Type} (options : Options) (reader : Nat → TokenReader α) (s : TokenStream) :
    Except CompileError α × TokenStream :=
  match reader options.maxDepth s.remaining with
  | .accepted value rest => (.ok value, s.leaving rest.length)
  | .refused fault rest =>
      (.error (fault.toError s.source options.maxDepth), s.leaving rest.length)

end TokenStream

end TemplateLang

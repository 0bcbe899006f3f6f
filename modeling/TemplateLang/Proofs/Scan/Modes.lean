import TemplateLang.Proofs.Scan.Layout
import TemplateLang.Proofs.Scan.Segmentation

/-!
# TemplateLang.Proofs.Scan.Modes — the mode at a token, and what it makes of the token

A scan is in the mode that the last delimiter put it in. So whether a token stands inside a block
can be told from the tokens in front of it alone, and its kind agrees with that: words and operators
stand inside blocks, text outside. Each kind has its own shape, and a run is as long as it can be:
two words or two operators never touch, and two pieces of text never follow one another. All of this
is `KeepsModes`; main statement (`keepsModes_of_ofSource`): the tokens of every source keep it.

The laws are read off one token at a time. `Begins` says what a token is made of and what ends it,
and `Runs.uncons` that a scan with a token is that token, behind a gap, and a scan of the rest. From
there the scan that begins at any given token is found along the tokens before it (`Runs.behind`),
and two neighbours are two steps of it.
-/

namespace TemplateLang

/-! ## The last delimiter -/

/-- The last delimiter among the tokens. -/
def lastDelimiter? (tokens : List Token) : Option Token :=
  (tokens.filter fun t => t.kind == .delimiter).getLast?

theorem lastDelimiter?_cons_of_ne {t : Token} (h : t.kind ≠ .delimiter) (tokens : List Token) :
    lastDelimiter? (t :: tokens) = lastDelimiter? tokens := by
  rw [lastDelimiter?, List.filter_cons_of_neg (by simpa using h), lastDelimiter?]

theorem lastDelimiter?_cons_delimiter {t : Token} (h : t.kind = .delimiter)
    (tokens : List Token) :
    lastDelimiter? (t :: tokens) = some ((lastDelimiter? tokens).getD t) := by
  rw [lastDelimiter?, List.filter_cons_of_pos (by simpa using h), List.getLast?_cons,
    lastDelimiter?]

/-- **`LeavesOpen tokens`** — the last delimiter among the tokens opens a block, so what follows
them stands inside it. -/
def LeavesOpen (tokens : List Token) : Prop :=
  ∃ t, lastDelimiter? tokens = some t ∧ t.isOpener = true

/-- **`ModeBehind mode tokens after`** — behind the tokens, the first of which stands in `mode`, the
mode is `after`: the one that the last delimiter leads to. -/
def ModeBehind (mode : Mode) (tokens : List Token) (after : Mode) : Prop :=
  match lastDelimiter? tokens with
  | none => after = mode
  | some t => ∃ d : Delimiter, t.Is .delimiter d.text ∧ after = .behind d t.offset

namespace ModeBehind

variable {mode mid after : Mode} {tokens : List Token}

theorem cons_of_ne {t : Token} (ht : t.kind ≠ .delimiter) (h : ModeBehind mode tokens after) :
    ModeBehind mode (t :: tokens) after := by
  rwa [ModeBehind, lastDelimiter?_cons_of_ne ht]

theorem cons_delimiter {t : Token} {d : Delimiter} (ht : t.Is .delimiter d.text)
    (h : ModeBehind (.behind d t.offset) tokens after) : ModeBehind mode (t :: tokens) after := by
  rw [ModeBehind, lastDelimiter?_cons_delimiter ht.1]
  cases hlast : lastDelimiter? tokens with
  | none =>
      rw [ModeBehind, hlast] at h
      exact ⟨d, ht, h⟩
  | some u =>
      rw [ModeBehind, hlast] at h
      exact h

/-- Outside every block at first, a place is inside a block exactly when the last delimiter before
it opens one. -/
theorem isBlock_iff (h : ModeBehind .literal tokens after) :
    after.isBlock = true ↔ LeavesOpen tokens := by
  unfold ModeBehind at h
  unfold LeavesOpen
  cases hlast : lastDelimiter? tokens with
  | none =>
      rw [hlast] at h
      obtain rfl : after = .literal := h
      simp [Mode.isBlock]
  | some t =>
      rw [hlast] at h
      obtain ⟨d, ⟨hkind, htext⟩, rfl⟩ := h
      have hopener : t.isOpener = (Mode.behind d t.offset).isBlock := by
        obtain ⟨kind, text, offset⟩ := t
        obtain rfl : kind = .delimiter := hkind
        obtain rfl : text = d.text := htext
        rcases d with block | block <;> cases block <;> rfl
      rw [← hopener]
      simp

end ModeBehind

/-! ## One token -/

/-- **`IsLiteral s`** — the text can stand outside blocks in one piece: it is not empty, and neither
a string nor a delimiter begins in it. -/
structure IsLiteral (s : String) : Prop where
  ne_nil : s.toList ≠ []
  no_quote : ∀ c ∈ s.toList, isQuote c = false
  no_delimiter : ∀ d : Delimiter, ¬ d.text.toList <:+: s.toList

namespace Scan

theorem IsRun.isLiteral {block : Bool} {plain rest : List Char} (h : IsRun block plain rest)
    (hne : plain ≠ []) : IsLiteral (String.ofList plain) := by
  refine ⟨?_, ?_, ?_⟩ <;> rw [String.toList_ofList]
  · exact hne
  · exact fun c hc => (h.goesOn_mem hc).1
  · exact h.not_infix

/-- **`Begins mode t piece rest after`** — in the mode, the text `piece ++ rest` begins with the
token `t`, which takes the piece; behind it the mode is `after`. -/
inductive Begins (mode : Mode) : Token → List Char → List Char → Mode → Prop
  | delimiter (d : Delimiter) (offset : Nat) (rest : List Char) :
      Begins mode ⟨.delimiter, d.text, offset⟩ d.text.toList rest (.behind d offset)
  | operator {special rest : List Char} (hmode : mode.isBlock = true) (hne : special ≠ [])
      (hspecial : ∀ c ∈ special, isSpecial c = true) (hend : ∀ c ∈ rest.head?, isSpecial c = false)
      (offset : Nat) : Begins mode ⟨.operator, String.ofList special, offset⟩ special rest mode
  | quoted {q : Char} {body : List Char} (hq : isQuote q = true) (hbody : q ∉ body) (offset : Nat)
      (rest : List Char) :
      Begins mode ⟨.quoted, String.ofList body, offset⟩ (q :: body ++ [q]) rest mode
  | plain {plain rest : List Char} (hne : plain ≠ []) (hplain : IsRun mode.isBlock plain rest)
      (offset : Nat) : Begins mode ⟨mode.plainKind, String.ofList plain, offset⟩ plain rest mode

variable {mode after : Mode} {offset : Nat} {cs : List Char} {s : Scan} {t : Token}
  {tokens before more : List Token}

/-- **A scan with a token** is a gap, the token and a scan of the rest. -/
theorem Runs.uncons (h : Runs mode offset cs s) (htokens : s.tokens = t :: more) :
    ∃ gap piece rest after, IsGap mode gap ∧ cs = gap ++ (piece ++ rest) ∧
      t.offset = offset + Text.byteLength gap ∧ Begins mode t piece rest after ∧
      Runs after (t.offset + Text.byteLength piece) rest ⟨more, s.ending⟩ := by
  induction h with
  | done => cases htokens
  | @delimiter mode offset rest s d hrest =>
      obtain ⟨rfl, rfl⟩ := List.cons_eq_cons.mp htokens
      refine ⟨[], _, rest, _, isGap_nil mode, rfl, rfl, .delimiter d offset rest, ?_⟩
      rw [d.byteLength_text]
      exact hrest
  | @blank mode offset c rest s hmode hc _ ih =>
      obtain ⟨gap, piece, behind, after, hgap, rfl, hplace, hbegins, hrest⟩ := ih htokens
      refine ⟨c :: gap, piece, behind, after, ?_, rfl, ?_, hbegins, hrest⟩
      · exact List.forall_mem_cons.mpr ⟨⟨hmode, hc⟩, hgap⟩
      · rw [hplace, Text.byteLength_cons, Nat.add_assoc]
  | operator hmode hne hspecial _ hend hrest =>
      obtain ⟨rfl, rfl⟩ := List.cons_eq_cons.mp htokens
      exact ⟨[], _, _, _, isGap_nil _, rfl, rfl, .operator hmode hne hspecial hend _, hrest⟩
  | @quoted mode offset q body rest s hq hbody hrest =>
      obtain ⟨rfl, rfl⟩ := List.cons_eq_cons.mp htokens
      refine ⟨[], q :: body ++ [q], rest, mode, isGap_nil mode, by simp, rfl,
        .quoted hq hbody offset rest, ?_⟩
      rw [byteLength_quoted hq]
      exact hrest
  | unclosed => cases htokens
  | plain hne hplain hrest =>
      obtain ⟨rfl, rfl⟩ := List.cons_eq_cons.mp htokens
      exact ⟨[], _, _, _, isGap_nil _, rfl, rfl, .plain hne hplain _, hrest⟩

/-- The mode behind a token is that of the tokens so far. -/
theorem Begins.modeBehind {piece rest : List Char} {mid : Mode}
    (h : Begins mode t piece rest mid) (hmore : ModeBehind mid tokens after) :
    ModeBehind mode (t :: tokens) after := by
  cases h with
  | delimiter d offset => exact hmore.cons_delimiter ⟨rfl, rfl⟩
  | operator => exact hmore.cons_of_ne (by simp)
  | quoted => exact hmore.cons_of_ne (by simp)
  | plain => exact hmore.cons_of_ne (by cases mode <;> simp [Mode.plainKind])

/-- **Behind any of its tokens a scan is a scan again**, in the mode of the last delimiter. -/
theorem Runs.behind (h : Runs mode offset cs s) (htokens : s.tokens = before ++ more) :
    ∃ after stop rest, Runs after stop rest ⟨more, s.ending⟩ ∧ ModeBehind mode before after := by
  induction before generalizing mode offset cs s with
  | nil =>
      obtain rfl : s.tokens = more := htokens
      exact ⟨mode, offset, cs, h, rfl⟩
  | cons t before ih =>
      obtain ⟨_, piece, rest, mid, -, -, -, hbegins, hrest⟩ := h.uncons htokens
      obtain ⟨after, stop, behind, hbehind, hmode⟩ := ih hrest rfl
      exact ⟨after, stop, behind, hbehind, hbegins.modeBehind hmode⟩

/-! ## What a token looks like -/

namespace Begins

variable {mid : Mode} {u : Token} {piece rest next behind : List Char}

theorem delimiter_text (h : Begins mode t piece rest after) (ht : t.kind = .delimiter) :
    ∃ d : Delimiter, t.text = d.text := by
  cases h with
  | delimiter d => exact ⟨d, rfl⟩
  | operator => cases ht
  | quoted => cases ht
  | plain => cases mode <;> cases ht

theorem operator_suits (h : Begins mode t piece rest after) (ht : t.kind = .operator) :
    mode.isBlock = true ∧ IsSign t.text := by
  cases h with
  | delimiter => cases ht
  | operator hmode hne hspecial =>
      exact ⟨hmode, by rwa [String.toList_ofList], by rwa [String.toList_ofList]⟩
  | quoted => cases ht
  | plain => cases mode <;> cases ht

theorem word_suits (h : Begins mode t piece rest after) (ht : t.kind = .word) :
    mode.isBlock = true ∧ IsName t.text := by
  cases h with
  | delimiter => cases ht
  | operator => cases ht
  | quoted => cases ht
  | plain hne hplain =>
      cases mode with
      | literal => cases ht
      | block kind start => exact ⟨rfl, hplain.isName hne⟩

theorem text_suits (h : Begins mode t piece rest after) (ht : t.kind = .text) :
    ¬ mode.isBlock = true ∧ IsLiteral t.text := by
  cases h with
  | delimiter => cases ht
  | operator => cases ht
  | quoted => cases ht
  | plain hne hplain =>
      cases mode with
      | literal => exact ⟨nofun, hplain.isLiteral hne⟩
      | block kind start => cases ht

theorem length_eq (h : Begins mode t piece rest after) : t.length = Text.byteLength piece := by
  cases h with
  | delimiter => rfl
  | operator => exact congrArg Text.byteLength String.toList_ofList
  | quoted hq =>
      rw [byteLength_quoted hq]
      exact congrArg (Text.byteLength · + 2) String.toList_ofList
  | plain => cases mode <;> exact congrArg Text.byteLength String.toList_ofList

/-- **Runs are as long as they can be**: between two tokens of one kind there is a gap, unless they
are delimiters or strings. -/
theorem gap_ne_nil {gap : List Char} (h : Begins mode t piece (gap ++ (next ++ behind)) mid)
    (hu : Begins mid u next behind after) (hsame : t.kind = u.kind)
    (hkind : t.kind ≠ .delimiter ∧ t.kind ≠ .quoted) : gap ≠ [] := by
  rintro rfl
  cases h with
  | delimiter => exact hkind.1 rfl
  | operator hmode hne hspecial hend =>
      cases hu with
      | delimiter => cases hsame
      | operator _ hne' hspecial' =>
          -- the first character of the second operator would have gone on with the first
          cases next with
          | nil => exact hne' rfl
          | cons c next =>
              have hc := hspecial' c List.mem_cons_self
              rw [hend c rfl] at hc
              cases hc
      | quoted => cases hsame
      | plain => cases mode <;> cases hsame
  | quoted => exact hkind.2 rfl
  | plain hne hplain =>
      cases hu with
      | delimiter => cases mode <;> cases hsame
      | operator => cases mode <;> cases hsame
      | quoted => cases mode <;> cases hsame
      | plain hne' hplain' =>
          -- the first run stops where the second one goes on
          have hgo := hplain'.goesOn [] next rfl hne'
          have hstops := hplain.stops
          rw [List.nil_append, hgo] at hstops
          cases hstops

end Begins

/-- Two neighbours of a scan, with what lies between them. -/
theorem Runs.neighbours (h : Runs mode offset cs s) {u : Token}
    (htokens : s.tokens = t :: u :: more)
    (hsame : t.kind = u.kind) (hkind : t.kind ≠ .delimiter ∧ t.kind ≠ .quoted) :
    mode.isBlock = true ∧ t.span.stop < u.offset := by
  obtain ⟨_, piece, rest, mid, -, -, -, hbegins, hrest⟩ := h.uncons htokens
  obtain ⟨gap, next, behind, after, hgap, rfl, hplace, hnext, -⟩ := hrest.uncons rfl
  have hne : gap ≠ [] := hbegins.gap_ne_nil hnext hsame hkind
  have hmid : mid.isBlock = mode.isBlock := by
    cases hbegins with
    | delimiter => exact absurd rfl hkind.1
    | operator => rfl
    | quoted => rfl
    | plain => rfl
  cases gap with
  | nil => exact absurd rfl hne
  | cons c gap =>
      have hc := c.utf8Size_pos
      refine ⟨hmid ▸ (hgap c List.mem_cons_self).1, ?_⟩
      rw [hplace, Text.byteLength_cons]
      show t.offset + t.length < _
      rw [hbegins.length_eq]
      omega

end Scan

/-! ## The tokens of a source -/

/-- **`KeepsModes tokens`** — every token is of a kind that its mode has and of the shape that its
kind demands, and as long as it can be. -/
structure KeepsModes (tokens : List Token) : Prop where
  /-- Text stands outside blocks. -/
  text : ∀ before t behind, tokens = before ++ t :: behind → t.kind = .text →
    ¬ LeavesOpen before ∧ IsLiteral t.text
  /-- Words stand inside blocks. -/
  word : ∀ before t behind, tokens = before ++ t :: behind → t.kind = .word →
    LeavesOpen before ∧ IsName t.text
  /-- Operators stand inside blocks. -/
  operator : ∀ before t behind, tokens = before ++ t :: behind → t.kind = .operator →
    LeavesOpen before ∧ IsSign t.text
  /-- There are no other delimiters than the four. -/
  delimiter : ∀ t ∈ tokens, t.kind = .delimiter → ∃ d : Delimiter, t.text = d.text
  /-- The last block is closed. -/
  closed : ∀ t, lastDelimiter? tokens = some t → t.isCloser = true
  /-- A piece of text is not followed by another. -/
  text_apart : ∀ before t u behind, tokens = before ++ t :: u :: behind → t.kind = .text →
    u.kind ≠ .text
  /-- Between two words, or two operators, the source has something else. -/
  apart : ∀ before t u behind, tokens = before ++ t :: u :: behind → t.kind = u.kind →
    t.kind = .word ∨ t.kind = .operator → t.span.stop < u.offset

namespace Scan

/-- A token of a scan begins where the mode is that of the tokens before it. -/
theorem Runs.begins {offset : Nat} {cs : List Char} {s : Scan} (h : Runs .literal offset cs s)
    {before behind : List Token} {t : Token} (htokens : s.tokens = before ++ t :: behind) :
    ∃ mode piece rest after, Begins mode t piece rest after ∧
      (mode.isBlock = true ↔ LeavesOpen before) := by
  obtain ⟨mode, stop, tail, hruns, hmode⟩ := h.behind htokens
  obtain ⟨_, piece, rest, after, -, -, -, hbegins, -⟩ := hruns.uncons rfl
  exact ⟨mode, piece, rest, after, hbegins, hmode.isBlock_iff⟩

/-- Without a token the mode stays what it is, and a string that begins is not closed. -/
theorem Runs.ending_of_nil {mode : Mode} {offset : Nat} {cs : List Char} {s : Scan}
    (h : Runs mode offset cs s) (htokens : s.tokens = []) :
    s.ending = mode.ending ∨ ∃ quote start, s.ending = .insideString quote start := by
  induction h with
  | done => exact .inl rfl
  | delimiter => cases htokens
  | blank _ _ _ ih => exact ih htokens
  | operator => cases htokens
  | quoted => cases htokens
  | unclosed => exact .inr ⟨_, _, rfl⟩
  | plain => cases htokens

/-- **A scan ends in the mode of its last delimiter**, unless it ends inside a string. -/
theorem Runs.ending_eq {mode : Mode} {offset : Nat} {cs : List Char} {s : Scan}
    (h : Runs mode offset cs s) :
    ∃ after, ModeBehind mode s.tokens after ∧
      (s.ending = after.ending ∨ ∃ quote start, s.ending = .insideString quote start) := by
  obtain ⟨after, _, _, hruns, hmode⟩ := h.behind (List.append_nil s.tokens).symm
  exact ⟨after, hmode, hruns.ending_of_nil rfl⟩

/-- A scan that ends outside every block and string has a closing delimiter last, if any. -/
theorem Runs.last_isCloser {offset : Nat} {cs : List Char} {s : Scan}
    (h : Runs .literal offset cs s) (hend : s.ending = .complete) {t : Token}
    (ht : lastDelimiter? s.tokens = some t) : t.isCloser = true := by
  obtain ⟨after, hmode, hending⟩ := h.ending_eq
  rw [hend] at hending
  rw [ModeBehind, ht] at hmode
  obtain ⟨d, hd, rfl⟩ := hmode
  cases d with
  | opening block =>
      rcases hending with hending | ⟨_, _, hending⟩ <;> cases hending
  | closing block =>
      rw [Token.isCloser_iff]
      cases block with
      | output => exact .inl hd
      | statement => exact .inr hd

/-- **The tokens of a complete scan keep the modes.** -/
theorem Runs.keepsModes {offset : Nat} {cs : List Char} {s : Scan}
    (h : Runs .literal offset cs s) (hend : s.ending = .complete) : KeepsModes s.tokens where
  text before t behind htokens ht := by
    obtain ⟨mode, piece, rest, after, hbegins, hmode⟩ := h.begins htokens
    rw [← hmode]
    exact hbegins.text_suits ht
  word before t behind htokens ht := by
    obtain ⟨mode, piece, rest, after, hbegins, hmode⟩ := h.begins htokens
    rw [← hmode]
    exact hbegins.word_suits ht
  operator before t behind htokens ht := by
    obtain ⟨mode, piece, rest, after, hbegins, hmode⟩ := h.begins htokens
    rw [← hmode]
    exact hbegins.operator_suits ht
  delimiter t hmem ht := by
    obtain ⟨before, behind, htokens⟩ := List.append_of_mem hmem
    obtain ⟨mode, piece, rest, after, hbegins, -⟩ := h.begins htokens
    exact hbegins.delimiter_text ht
  closed t ht := h.last_isCloser hend ht
  text_apart before t u behind htokens ht hu := by
    obtain ⟨mode, stop, tail, hruns, -⟩ := h.behind htokens
    obtain ⟨_, piece, rest, after, -, -, -, hbegins, -⟩ := hruns.uncons rfl
    -- behind text nothing is dropped, so a second piece would touch the first
    have hblock := (hruns.neighbours rfl (ht.trans hu.symm) (by simp [ht])).1
    exact (hbegins.text_suits ht).1 hblock
  apart before t u behind htokens hsame ht := by
    obtain ⟨mode, stop, tail, hruns, -⟩ := h.behind htokens
    have hkind : t.kind ≠ .delimiter ∧ t.kind ≠ .quoted := by
      rcases ht with ht | ht <;> simp [ht]
    exact (hruns.neighbours rfl hsame hkind).2

end Scan

namespace TokenStream

/-- **The tokens of a source keep the modes.** -/
theorem keepsModes_of_ofSource {source : Source} {stream : TokenStream}
    (h : ofSource source = .ok stream) : KeepsModes stream.tokens := by
  obtain ⟨hend, hne, rfl⟩ := ofSource_eq_ok_iff.mp h
  exact (Scan.runs_ofText source.text).keepsModes hend

/-- A source with a brace in its text and in a word, two words and two operators behind one another,
a string in each mode and a stray closing delimiter. -/
def neighbourSource : Source :=
  ⟨"neighbours", "a\x7d\x7b\x7b\x7bx y > ( 'b'\x7d\x7d%\x7d\"c\"d"⟩

def neighbourTokens : List Token :=
  [⟨.text, "a\x7d", 0⟩, ⟨.delimiter, "\x7b\x7b", 2⟩, ⟨.word, "\x7bx", 4⟩, ⟨.word, "y", 7⟩,
    ⟨.operator, ">", 9⟩, ⟨.operator, "(", 11⟩, ⟨.quoted, "b", 13⟩, ⟨.delimiter, "\x7d\x7d", 16⟩,
    ⟨.delimiter, "%\x7d", 18⟩, ⟨.quoted, "c", 20⟩, ⟨.text, "d", 23⟩]

theorem neighbourSource_keepsModes :
    ofSource neighbourSource =
        .ok ⟨neighbourSource, neighbourTokens, 0, nofun, Nat.zero_le _⟩ ∧
      KeepsModes neighbourTokens := by
  have hscan : Scan.ofText neighbourSource.text = ⟨neighbourTokens, .complete⟩ := by
    decide +kernel
  have h : ofSource neighbourSource =
      .ok ⟨neighbourSource, neighbourTokens, 0, nofun, Nat.zero_le _⟩ :=
    ofSource_of_scan hscan nofun
  exact ⟨h, keepsModes_of_ofSource h⟩

end TokenStream

end TemplateLang

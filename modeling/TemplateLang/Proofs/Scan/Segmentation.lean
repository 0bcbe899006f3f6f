import TemplateLang.Proofs.Scan.Rules
import TemplateLang.Proofs.Tokens
import TemplateLang.Token.Stream

/-!
# TemplateLang.Proofs.Scan.Segmentation — tokens cut a source without loss

A source that tokenizes is cut into tokens and blanks: every token stands in it as it is spelled,
one behind the other, and what stands between two tokens are blanks inside a block. `Segments` is
that statement about characters, proved by induction on the rules of the scan; `Lossless` is what
it says about the bytes of the source and the spans of the tokens.
-/

namespace TemplateLang

/-! ## Stretches of a source -/

/-- The offset behind the last byte of a span. -/
def Span.stop (span : Span) : Nat :=
  span.offset + span.length

/-- Whether the byte at the offset belongs to the span. -/
def Span.Covers (span : Span) (byte : Nat) : Prop :=
  span.offset ≤ byte ∧ byte < span.stop

/-- The bytes of a source in a span. -/
def Source.bytes (source : Source) (span : Span) : ByteArray :=
  source.text.toByteArray.extract span.offset span.stop

/-- Whether the offset lies inside the source and between two of its characters. -/
def Source.IsBoundary (source : Source) (offset : Nat) : Prop :=
  String.Pos.Raw.IsValid source.text ⟨offset⟩

/-- **`source.Reads span cs`** — the span begins and ends between characters of the source, and
`cs` are the characters in it. -/
def Source.Reads (source : Source) (span : Span) (cs : List Char) : Prop :=
  ∃ front back, source.text.toList = front ++ cs ++ back ∧
    Text.byteLength front = span.offset ∧ Text.byteLength cs = span.length

theorem Source.text_eq_of_toList {source : Source} {front cs back : List Char}
    (h : source.text.toList = front ++ cs ++ back) :
    source.text = String.ofList front ++ String.ofList cs ++ String.ofList back := by
  apply String.toList_injective
  rw [h]
  simp

namespace Source.Reads

variable {source : Source} {span : Span} {cs : List Char}

theorem bytes_eq (h : source.Reads span cs) :
    source.bytes span = (String.ofList cs).toByteArray := by
  obtain ⟨front, back, htext, hfront, hcs⟩ := h
  have hsize : (String.ofList front).toByteArray.size = span.offset := by
    rw [String.size_toByteArray, Text.utf8ByteSize_ofList, hfront]
  have hlength : (String.ofList cs).toByteArray.size = span.length := by
    rw [String.size_toByteArray, Text.utf8ByteSize_ofList, hcs]
  have hskip := ByteArray.extract_append_size_add (a := (String.ofList front).toByteArray)
    (b := (String.ofList cs ++ String.ofList back).toByteArray) (i := 0) (j := span.length)
  rw [hsize, Nat.add_zero] at hskip
  rw [bytes, text_eq_of_toList htext, String.append_assoc, String.toByteArray_append, Span.stop,
    hskip, String.toByteArray_append]
  exact ByteArray.extract_append_eq_left hlength.symm

theorem isBoundary_offset (h : source.Reads span cs) : source.IsBoundary span.offset := by
  obtain ⟨front, back, htext, hfront, -⟩ := h
  refine String.Pos.Raw.isValid_iff_exists_append.mpr
    ⟨String.ofList front, String.ofList cs ++ String.ofList back, ?_, ?_⟩
  · rw [text_eq_of_toList htext, String.append_assoc]
  · rw [← hfront, ← Text.utf8ByteSize_ofList]
    rfl

theorem isBoundary_stop (h : source.Reads span cs) : source.IsBoundary span.stop := by
  obtain ⟨front, back, htext, hfront, hcs⟩ := h
  refine String.Pos.Raw.isValid_iff_exists_append.mpr
    ⟨String.ofList front ++ String.ofList cs, String.ofList back, text_eq_of_toList htext, ?_⟩
  rw [Span.stop, ← hfront, ← hcs, ← Text.byteLength_append, ← Text.utf8ByteSize_ofList,
    String.ofList_append]
  rfl

theorem stop_le_size (h : source.Reads span cs) : span.stop ≤ source.size := by
  obtain ⟨front, back, htext, hfront, hcs⟩ := h
  rw [size, htext, Text.byteLength_append, Text.byteLength_append, hfront, hcs, Span.stop]
  omega

end Source.Reads

/-- Every byte of a text belongs to one of its characters. -/
theorem Text.exists_char_at {cs : List Char} {byte : Nat} (h : byte < byteLength cs) :
    ∃ front c back, cs = front ++ c :: back ∧ byteLength front ≤ byte ∧
      byte < byteLength front + c.utf8Size := by
  induction cs generalizing byte with
  | nil => exact absurd h (Nat.not_lt_zero byte)
  | cons c cs ih =>
      rw [byteLength_cons] at h
      by_cases hc : byte < c.utf8Size
      · exact ⟨[], c, cs, rfl, Nat.zero_le byte, by rw [byteLength_nil]; omega⟩
      · have hrest : byte - c.utf8Size < byteLength cs := by omega
        obtain ⟨front, d, back, rfl, hlow, hhigh⟩ := ih hrest
        refine ⟨c :: front, d, back, rfl, ?_, ?_⟩
        · rw [byteLength_cons]
          omega
        · rw [byteLength_cons]
          omega

/-! ## Tokens as they are spelled -/

namespace Token

/-- **`t.SpelledAs raw`** — the characters that the token stands for in its source: its text, and
for a quoted token one quote that the text does not hold on either side. -/
def SpelledAs (t : Token) (raw : List Char) : Prop :=
  match t.kind with
  | .quoted => ∃ q, isQuote q = true ∧ q ∉ t.text.toList ∧ raw = q :: t.text.toList ++ [q]
  | _ => raw = t.text.toList

theorem SpelledAs.byteLength_eq {t : Token} {raw : List Char} (h : t.SpelledAs raw) :
    Text.byteLength raw = t.length := by
  rcases t with ⟨kind, text, offset⟩
  cases kind with
  | quoted =>
      obtain ⟨q, hq, -, rfl⟩ := h
      show Text.byteLength (q :: (text.toList ++ [q])) = Text.byteLength text.toList + 2
      rw [Text.byteLength_cons, Text.byteLength_append, Text.byteLength_cons, Text.byteLength_nil,
        utf8Size_of_isQuote hq]
      omega
  | delimiter => exact congrArg Text.byteLength h
  | operator => exact congrArg Text.byteLength h
  | word => exact congrArg Text.byteLength h
  | text => exact congrArg Text.byteLength h

theorem SpelledAs.eq_text {t : Token} {raw : List Char} (h : t.SpelledAs raw)
    (ht : t.kind ≠ .quoted) : raw = t.text.toList := by
  rcases t with ⟨kind, text, offset⟩
  cases kind with
  | quoted => exact absurd rfl ht
  | delimiter => exact h
  | operator => exact h
  | word => exact h
  | text => exact h

theorem SpelledAs.exists_quote {t : Token} {raw : List Char} (h : t.SpelledAs raw)
    (ht : t.kind = .quoted) : ∃ q, isQuote q = true ∧ raw = q :: t.text.toList ++ [q] := by
  rcases t with ⟨kind, text, offset⟩
  obtain rfl : kind = .quoted := ht
  obtain ⟨q, hq, -, hraw⟩ := h
  exact ⟨q, hq, hraw⟩

/-- Whether the token opens a block. -/
def isOpener (t : Token) : Bool :=
  t.isDelimiter (Delimiter.opening .output).text ||
    t.isDelimiter (Delimiter.opening .statement).text

/-- Whether a place behind the token is inside a block, given whether the token is. -/
def insideBehind (inside : Bool) (t : Token) : Bool :=
  if t.isOpener then true else if t.isCloser then false else inside

theorem insideBehind_of_kind {t : Token} (h : t.kind ≠ .delimiter) (inside : Bool) :
    t.insideBehind inside = inside := by
  have hnot : ∀ text, t.isDelimiter text = false := by
    intro text
    simp [isDelimiter, isExactly, h]
  simp [insideBehind, isOpener, isCloser, hnot]

theorem insideBehind_delimiter (d : Delimiter) (offset : Nat) (inside : Bool) :
    (Token.mk .delimiter d.text offset).insideBehind inside =
      (Mode.behind d offset).isBlock := by
  rcases d with block | block <;> cases block <;> rfl

theorem insideBehind_of_isOpener {t : Token} (h : t.isOpener = true) (inside : Bool) :
    t.insideBehind inside = true := by
  rw [insideBehind, if_pos h]

theorem isOpener_iff {t : Token} :
    t.isOpener = true ↔ t.Is .delimiter "\x7b\x7b" ∨ t.Is .delimiter "\x7b%" := by
  rw [isOpener, Bool.or_eq_true, isDelimiter_iff, isDelimiter_iff]
  rfl

/-- Only a delimiter opens a block. -/
theorem kind_of_isOpener {t : Token} (h : t.isOpener = true) : t.kind = .delimiter :=
  (isOpener_iff.mp h).elim And.left And.left

theorem not_isOpener_of_isCloser {t : Token} (h : t.isCloser = true) : ¬ t.isOpener = true := by
  intro hopener
  have hopened := (isOpener_iff.mp hopener).imp And.right And.right
  rcases isCloser_iff.mp h with ⟨-, hclosed⟩ | ⟨-, hclosed⟩
  · rw [hclosed] at hopened
    revert hopened
    decide
  · rw [hclosed] at hopened
    revert hopened
    decide

/-- Only a delimiter closes a block. -/
theorem isCloser_of_kind {t : Token} (h : t.kind ≠ .delimiter) : t.isCloser = false := by
  rw [Bool.eq_false_iff]
  intro hcloser
  rcases isCloser_iff.mp hcloser with hclosed | hclosed
  · exact h hclosed.1
  · exact h hclosed.1

theorem insideBehind_of_isCloser {t : Token} (h : t.isCloser = true) (inside : Bool) :
    t.insideBehind inside = false := by
  rw [insideBehind, if_neg (not_isOpener_of_isCloser h), if_pos h]

/-- Outside, only an opening delimiter leads into a block. -/
theorem insideBehind_false_of_not_isOpener {t : Token} (h : ¬ t.isOpener = true) :
    t.insideBehind false = false := by
  rw [insideBehind, if_neg h, ite_self]

/-- Inside a block, only a closing delimiter leads out of it. -/
theorem insideBehind_true_of_not_isCloser {t : Token} (h : t.isCloser = false) :
    t.insideBehind true = true := by
  simp [insideBehind, h]

theorem isOpener_of_isDelimiter {t : Token} {kind : BlockKind}
    (h : t.isDelimiter (Delimiter.opening kind).text = true) : t.isOpener = true := by
  rw [isOpener, Bool.or_eq_true]
  cases kind with
  | output => exact .inl h
  | statement => exact .inr h

theorem isCloser_of_isDelimiter {t : Token} {kind : BlockKind}
    (h : t.isDelimiter (Delimiter.closing kind).text = true) : t.isCloser = true := by
  rw [isCloser, Bool.or_eq_true]
  cases kind with
  | output => exact .inl h
  | statement => exact .inr h

end Token

/-- **`EnclosedIn tokens span`** — the span lies between a token that opens a block and the next
one that closes a block. -/
def EnclosedIn (tokens : List Token) (span : Span) : Prop :=
  ∃ front opener inner closer back, tokens = front ++ opener :: inner ++ closer :: back ∧
    opener.isOpener = true ∧ (∀ t ∈ inner, t.isCloser = false) ∧ closer.isCloser = true ∧
    opener.span.stop ≤ span.offset ∧ span.stop ≤ closer.offset

section Inside

variable {inside : Bool} {tokens : List Token}

/-- Inside a block, the last delimiter before is one that opens. -/
theorem exists_opener_of_inside (h : tokens.foldl Token.insideBehind inside = true) :
    (inside = true ∧ ∀ t ∈ tokens, t.isCloser = false) ∨
      ∃ front opener inner, tokens = front ++ opener :: inner ∧ opener.isOpener = true ∧
        ∀ t ∈ inner, t.isCloser = false := by
  induction tokens generalizing inside with
  | nil => exact .inl ⟨h, nofun⟩
  | cons t tokens ih =>
      rcases ih h with ⟨hinside, hinner⟩ | ⟨front, opener, inner, rfl, hopener, hinner⟩
      · by_cases hopener : t.isOpener = true
        · exact .inr ⟨[], t, tokens, rfl, hopener, hinner⟩
        · cases hcloser : t.isCloser with
          | true =>
              rw [Token.insideBehind, if_neg hopener, hcloser] at hinside
              cases hinside
          | false =>
              rw [Token.insideBehind, if_neg hopener, hcloser] at hinside
              exact .inl ⟨hinside, List.forall_mem_cons.mpr ⟨hcloser, hinner⟩⟩
      · exact .inr ⟨t :: front, opener, inner, rfl, hopener, hinner⟩

/-- A block that ends has a first token that closes it. -/
theorem exists_closer_of_outside (h : tokens.foldl Token.insideBehind true = false) :
    ∃ inner closer back, tokens = inner ++ closer :: back ∧
      (∀ t ∈ inner, t.isCloser = false) ∧ closer.isCloser = true := by
  induction tokens with
  | nil => exact absurd h (by decide)
  | cons t tokens ih =>
      cases hcloser : t.isCloser with
      | true => exact ⟨[], t, tokens, rfl, nofun, hcloser⟩
      | false =>
          rw [List.foldl_cons, Token.insideBehind_true_of_not_isCloser hcloser] at h
          obtain ⟨inner, closer, back, rfl, hinner, hend⟩ := ih h
          exact ⟨t :: inner, closer, back, rfl, List.forall_mem_cons.mpr ⟨hcloser, hinner⟩, hend⟩

/-- A span is enclosed if the tokens before it leave a block open and those after it close one: the
last delimiter before it opens, and the first closing one after it ends the block. -/
theorem EnclosedIn.of_split {before behind : List Token} {span : Span}
    (hinside : before.foldl Token.insideBehind false = true)
    (houtside : behind.foldl Token.insideBehind true = false)
    (hends : ∀ t ∈ before, t.span.stop ≤ span.offset)
    (hbegins : ∀ t ∈ behind, span.stop ≤ t.offset) : EnclosedIn (before ++ behind) span := by
  obtain ⟨last, closer, back, rfl, hlast, hcloser⟩ := exists_closer_of_outside houtside
  rcases exists_opener_of_inside hinside with
    ⟨hopen, -⟩ | ⟨front, opener, next, rfl, hopener, hnext⟩
  · cases hopen
  · refine ⟨front, opener, next ++ last, closer, back, by simp, hopener, ?_, hcloser,
      hends opener (by simp), hbegins closer (by simp)⟩
    intro t ht
    rcases List.mem_append.mp ht with ht | ht
    · exact hnext t ht
    · exact hlast t ht

end Inside

/-! ## Texts cut into tokens -/

/-- **`Segments inside offset tokens cs`** — the text `cs`, which begins at `offset` inside a block
or outside, is the tokens as they are spelled, each behind a gap of blanks, which is empty outside
every block; and it ends outside. -/
inductive Segments : Bool → Nat → List Token → List Char → Prop
  | done (offset : Nat) : Segments false offset [] []
  | token {inside : Bool} {offset : Nat} {t : Token} {tokens : List Token}
      {gap raw rest : List Char} (hgap : ∀ c ∈ gap, inside = true ∧ Text.isBlank c = true)
      (hplace : t.offset = offset + Text.byteLength gap) (hraw : t.SpelledAs raw)
      (hne : raw ≠ []) :
      Segments (t.insideBehind inside) t.span.stop tokens rest →
        Segments inside offset (t :: tokens) (gap ++ (raw ++ rest))

namespace Segments

variable {inside : Bool} {offset : Nat} {tokens : List Token} {cs : List Char}

/-- A token that stands at once, without a gap. -/
theorem cons {t : Token} {raw rest : List Char} {stop : Nat} (hplace : t.offset = offset)
    (hraw : t.SpelledAs raw) (hne : raw ≠ []) (hstop : offset + Text.byteLength raw = stop)
    (h : Segments (t.insideBehind inside) stop tokens rest) :
    Segments inside offset (t :: tokens) (raw ++ rest) := by
  have hspan : t.span.stop = stop := by
    show t.offset + t.length = stop
    rw [← hstop, hplace, hraw.byteLength_eq]
  rw [← hspan] at h
  exact @token inside offset t tokens [] raw rest nofun hplace hraw hne h

/-- A blank inside a block widens the gap in front of the next token. -/
theorem blank {c : Char} (hc : Text.isBlank c = true)
    (h : Segments true (offset + c.utf8Size) tokens cs) :
    Segments true offset tokens (c :: cs) := by
  cases h with
  | @token _ _ t tokens gap raw rest hgap hplace hraw hne hrest =>
      have hwide : ∀ d ∈ c :: gap, true = true ∧ Text.isBlank d = true :=
        List.forall_mem_cons.mpr ⟨⟨rfl, hc⟩, hgap⟩
      refine token hwide ?_ hraw hne hrest
      rw [hplace, Text.byteLength_cons]
      omega

/-- **A scan that ends outside every block and string cuts its text into its tokens.** -/
theorem of_runs {mode : Mode} {s : Scan} (h : Scan.Runs mode offset cs s)
    (hend : s.ending = .complete) : Segments mode.isBlock offset s.tokens cs := by
  induction h with
  | done mode offset =>
      cases mode with
      | literal => exact .done offset
      | block kind start => cases hend
  | @delimiter mode offset rest s d _ ih =>
      refine cons rfl rfl ?_ (congrArg (offset + ·) d.byteLength_text) ?_
      · intro hnil
        have hsize := d.byteLength_text
        rw [hnil] at hsize
        cases hsize
      · rw [Token.insideBehind_delimiter]
        exact ih hend
  | blank hmode hc _ ih =>
      rw [hmode] at ih ⊢
      exact blank hc (ih hend)
  | @operator mode offset special rest s hmode hne _ _ _ _ ih =>
      refine cons rfl String.toList_ofList.symm hne rfl ?_
      rw [Token.insideBehind_of_kind (by simp)]
      exact ih hend
  | @quoted mode offset q body rest s hq hbody _ ih =>
      have hsplit : q :: body ++ q :: rest = (q :: body ++ [q]) ++ rest := by simp
      have hraw : (Token.mk .quoted (String.ofList body) offset).SpelledAs (q :: body ++ [q]) :=
        ⟨q, hq, by simpa using hbody, by simp⟩
      have hlength : Text.byteLength (q :: body ++ [q]) = Text.byteLength body + 2 := by
        rw [hraw.byteLength_eq]
        show Text.byteLength (String.ofList body).toList + 2 = _
        rw [String.toList_ofList]
      rw [hsplit]
      refine cons rfl hraw nofun (congrArg (offset + ·) hlength) ?_
      rw [Token.insideBehind_of_kind (by simp)]
      exact ih hend
  | unclosed => cases hend
  | @plain mode offset plain rest s hne _ _ ih =>
      have hkind : mode.plainKind ≠ .delimiter ∧ mode.plainKind ≠ .quoted := by
        cases mode <;> exact ⟨nofun, nofun⟩
      have hraw : (Token.mk mode.plainKind (String.ofList plain) offset).SpelledAs plain := by
        cases mode <;> exact String.toList_ofList.symm
      refine cons rfl hraw hne rfl ?_
      rw [Token.insideBehind_of_kind hkind.1]
      exact ih hend

/-! ### What the cut says about spans -/

/-- No token is cut from an empty text only. -/
theorem eq_nil (h : Segments inside offset [] cs) : cs = [] := by
  cases h
  rfl

theorem foldl_insideBehind (h : Segments inside offset tokens cs) :
    tokens.foldl Token.insideBehind inside = false := by
  induction h with
  | done => rfl
  | token _ _ _ _ _ ih => exact ih

theorem offset_le (h : Segments inside offset tokens cs) : ∀ t ∈ tokens, offset ≤ t.offset := by
  induction h with
  | done => exact nofun
  | @token _ _ t _ _ _ _ _ hplace _ _ _ ih =>
      refine List.forall_mem_cons.mpr ⟨by omega, ?_⟩
      intro u hu
      have hnext : t.offset + t.length ≤ u.offset := ih u hu
      omega

theorem pairwise_stop_le (h : Segments inside offset tokens cs) :
    tokens.Pairwise fun t u => t.span.stop ≤ u.span.offset := by
  induction h with
  | done => exact .nil
  | token _ _ _ _ hrest ih => exact .cons hrest.offset_le ih

theorem exists_raw (h : Segments inside offset tokens cs) {t : Token} (ht : t ∈ tokens) :
    ∃ front raw back, cs = front ++ raw ++ back ∧ offset + Text.byteLength front = t.offset ∧
      t.SpelledAs raw ∧ raw ≠ [] := by
  induction h with
  | done => cases ht
  | @token inside offset u tokens gap raw rest _ hplace hraw hne hrest ih =>
      rcases List.mem_cons.mp ht with rfl | ht
      · exact ⟨gap, raw, rest, by rw [List.append_assoc], hplace.symm, hraw, hne⟩
      · obtain ⟨front, piece, back, rfl, hfront, hpiece⟩ := ih ht
        refine ⟨gap ++ raw ++ front, piece, back, by simp only [List.append_assoc], ?_, hpiece⟩
        rw [← hfront, Text.byteLength_append, Text.byteLength_append, hraw.byteLength_eq]
        show _ = u.offset + u.length + _
        omega

/-- **A byte in no span belongs to a blank inside a block**, between two of the tokens. -/
theorem exists_blank_at (h : Segments inside offset tokens cs) {byte : Nat} (hlow : offset ≤ byte)
    (hhigh : byte < offset + Text.byteLength cs) (hout : ∀ t ∈ tokens, ¬ t.span.Covers byte) :
    ∃ front c back before behind, cs = front ++ [c] ++ back ∧
      offset + Text.byteLength front ≤ byte ∧
      byte < offset + Text.byteLength front + c.utf8Size ∧ Text.isBlank c = true ∧
      tokens = before ++ behind ∧ before.foldl Token.insideBehind inside = true ∧
      (∀ t ∈ before, t.span.stop ≤ offset + Text.byteLength front) ∧
      ∀ t ∈ behind, offset + Text.byteLength front + c.utf8Size ≤ t.offset := by
  induction h with
  | done => exact absurd hhigh (by rw [Text.byteLength_nil]; omega)
  | @token inside offset t tokens gap raw rest hgap hplace hraw hne hrest ih =>
      have hstop : t.span.stop = t.offset + Text.byteLength raw := by
        rw [hraw.byteLength_eq]
        rfl
      by_cases hbefore : byte < t.offset
      · -- the byte lies in the gap in front of the first token
        have hbyte : byte - offset < Text.byteLength gap := by omega
        obtain ⟨front, c, back, rfl, hlo, hhi⟩ := Text.exists_char_at hbyte
        obtain ⟨hinside, hc⟩ := hgap c (List.mem_append_right front List.mem_cons_self)
        rw [Text.byteLength_append, Text.byteLength_cons] at hplace
        refine ⟨front, c, back ++ (raw ++ rest), [], t :: tokens, by simp, by omega, by omega, hc,
          rfl, hinside, nofun, ?_⟩
        refine List.forall_mem_cons.mpr ⟨by omega, ?_⟩
        intro u hu
        have hnext := hrest.offset_le u hu
        omega
      · -- the byte lies behind the first token
        have hbehind : t.span.stop ≤ byte := by
          have hnot := hout t List.mem_cons_self
          rw [Span.Covers, Classical.not_and_iff_not_or_not] at hnot
          rcases hnot with hnot | hnot
          · exact absurd (Nat.not_lt.mp hbefore) hnot
          · omega
        rw [Text.byteLength_append, Text.byteLength_append] at hhigh
        obtain ⟨front, c, back, before, behind, rfl, hlo, hhi, hc, rfl, hinside, hends, hbegins⟩ :=
          ih hbehind (by omega) fun u hu => hout u (List.mem_cons_of_mem t hu)
        have hfront : offset + Text.byteLength (gap ++ raw ++ front) =
            t.span.stop + Text.byteLength front := by
          rw [Text.byteLength_append, Text.byteLength_append]
          omega
        refine ⟨gap ++ raw ++ front, c, back, t :: before, behind,
          by simp only [List.append_assoc], ?_⟩
        rw [hfront]
        refine ⟨hlo, hhi, hc, rfl, hinside, List.forall_mem_cons.mpr ⟨?_, hends⟩, hbegins⟩
        omega

end Segments

/-! ## The cut of a source -/

/-- The bytes of a source from the offset on, put together again from those in the spans and those
in the gaps before, between and behind the spans. -/
def Source.rebuild (source : Source) (offset : Nat) : List Span → ByteArray
  | [] => source.bytes ⟨offset, source.size - offset⟩
  | span :: spans =>
      source.bytes ⟨offset, span.offset - offset⟩ ++ source.bytes span ++
        source.rebuild span.stop spans

/-- **`Lossless source tokens`** — the tokens cut the source without loss. -/
structure Lossless (source : Source) (tokens : List Token) : Prop where
  /-- No span is empty. -/
  nonempty : ∀ t ∈ tokens, 0 < t.span.length
  /-- The spans stand in order, and no two share a byte. -/
  ordered : tokens.Pairwise fun t u => t.span.stop ≤ u.span.offset
  /-- Every span lies inside the source and begins and ends between characters. -/
  bounded : ∀ t ∈ tokens, t.span.stop ≤ source.size ∧ source.IsBoundary t.span.offset ∧
    source.IsBoundary t.span.stop
  /-- The bytes in a span spell the token. -/
  spelled : ∀ t ∈ tokens, ∃ raw, t.SpelledAs raw ∧
    source.bytes t.span = (String.ofList raw).toByteArray
  /-- A byte in no span belongs to a blank inside a block. -/
  gaps : ∀ byte < source.size, (∀ t ∈ tokens, ¬ t.span.Covers byte) →
    ∃ span c, source.Reads span [c] ∧ span.Covers byte ∧ Text.isBlank c = true ∧
      EnclosedIn tokens span
  /-- The spans and the gaps together are the source. -/
  rebuilt : source.rebuild 0 (tokens.map Token.span) = source.text.toByteArray

namespace Source

theorem rebuild_eq {source : Source} {offset : Nat} {spans : List Span}
    (hoffset : ∀ span ∈ spans, offset ≤ span.offset)
    (hordered : spans.Pairwise fun s t => s.stop ≤ t.offset)
    (hbounded : ∀ span ∈ spans, span.stop ≤ source.size) :
    source.rebuild offset spans = source.bytes ⟨offset, source.size - offset⟩ := by
  induction spans generalizing offset with
  | nil => rfl
  | cons span spans ih =>
      have hstart : offset ≤ span.offset := hoffset span List.mem_cons_self
      have hend : span.stop ≤ source.size := hbounded span List.mem_cons_self
      have hspan : span.offset ≤ span.stop := Nat.le_add_right span.offset span.length
      obtain ⟨hnext, hrest⟩ := List.pairwise_cons.mp hordered
      have hgap : offset + (span.offset - offset) = span.offset := by omega
      have hbehind : span.stop + (source.size - span.stop) = source.size := by omega
      have hwhole : offset + (source.size - offset) = source.size := by omega
      rw [rebuild, ih hnext hrest fun s hs => hbounded s (List.mem_cons_of_mem span hs)]
      show source.text.toByteArray.extract offset (offset + (span.offset - offset)) ++
          source.text.toByteArray.extract span.offset span.stop ++
          source.text.toByteArray.extract span.stop (span.stop + (source.size - span.stop)) =
        source.text.toByteArray.extract offset (offset + (source.size - offset))
      rw [hgap, hbehind, hwhole, ByteArray.extract_append_extract, Nat.min_eq_left hstart,
        Nat.max_eq_right hspan, ByteArray.extract_append_extract,
        Nat.min_eq_left (Nat.le_trans hstart hspan), Nat.max_eq_right hend]

theorem bytes_whole (source : Source) :
    source.bytes ⟨0, source.size⟩ = source.text.toByteArray := by
  have hsize : source.size = source.text.toByteArray.size := by
    rw [size, ← Text.utf8ByteSize_ofList, String.ofList_toList, String.size_toByteArray]
  rw [bytes, Span.stop, Nat.zero_add, hsize, ByteArray.extract_zero_size]

end Source

/-- **A text cut into tokens is cut without loss.** -/
theorem Segments.lossless {source : Source} {tokens : List Token}
    (h : Segments false 0 tokens source.text.toList) : Lossless source tokens := by
  have hreads : ∀ t ∈ tokens, ∃ raw, t.SpelledAs raw ∧ raw ≠ [] ∧ source.Reads t.span raw := by
    intro t ht
    obtain ⟨front, raw, back, htext, hfront, hraw, hne⟩ := h.exists_raw ht
    rw [Nat.zero_add] at hfront
    exact ⟨raw, hraw, hne, front, back, htext, hfront, hraw.byteLength_eq⟩
  have hbounded : ∀ t ∈ tokens, t.span.stop ≤ source.size := by
    intro t ht
    obtain ⟨raw, -, -, hplace⟩ := hreads t ht
    exact hplace.stop_le_size
  refine ⟨?_, h.pairwise_stop_le, ?_, ?_, ?_, ?_⟩
  -- no span is empty
  · intro t ht
    obtain ⟨raw, hraw, hne, -⟩ := hreads t ht
    have hlength := Text.length_le_byteLength raw
    rw [hraw.byteLength_eq] at hlength
    exact Nat.lt_of_lt_of_le (List.length_pos_iff.mpr hne) hlength
  -- the spans lie inside the source, between characters
  · intro t ht
    obtain ⟨raw, -, -, hplace⟩ := hreads t ht
    exact ⟨hbounded t ht, hplace.isBoundary_offset, hplace.isBoundary_stop⟩
  -- the bytes in the spans
  · intro t ht
    obtain ⟨raw, hraw, -, hplace⟩ := hreads t ht
    exact ⟨raw, hraw, hplace.bytes_eq⟩
  -- the bytes in the gaps
  · intro byte hbyte hout
    obtain ⟨front, c, back, before, behind, htext, hlow, hhigh, hc, rfl, hinside, hends, hbegins⟩ :=
      h.exists_blank_at (Nat.zero_le byte) (by rw [Nat.zero_add]; exact hbyte) hout
    rw [Nat.zero_add] at hlow hhigh hends hbegins
    have houtside := h.foldl_insideBehind
    rw [List.foldl_append, hinside] at houtside
    exact ⟨⟨Text.byteLength front, c.utf8Size⟩, c, ⟨front, back, htext, rfl, rfl⟩, ⟨hlow, hhigh⟩,
      hc, .of_split hinside houtside hends hbegins⟩
  -- spans and gaps together
  · rw [Source.rebuild_eq, Nat.sub_zero, Source.bytes_whole]
    · exact fun span _ => Nat.zero_le span.offset
    · exact List.pairwise_map.mpr h.pairwise_stop_le
    · exact List.forall_mem_map.mpr hbounded

namespace TokenStream

/-- **Tokenizing cuts a source without loss.** -/
theorem lossless_of_ofSource {source : Source} {stream : TokenStream}
    (h : ofSource source = .ok stream) : Lossless source stream.tokens := by
  obtain ⟨hend, hne, rfl⟩ := ofSource_eq_ok_iff.mp h
  exact (Segments.of_runs (Scan.runs_run .literal 0 _) hend).lossless

/-- A source with a gap of two bytes, characters of several bytes, and strings in both modes. -/
def greeting : Source :=
  ⟨"greeting", "é \x7b\x7b\u00a0'ü' +name\x7d\x7d\"!\""⟩

/-- The tokens of the greeting. -/
def greetingTokens : List Token :=
  [⟨.text, "é ", 0⟩, ⟨.delimiter, "\x7b\x7b", 3⟩, ⟨.quoted, "ü", 7⟩, ⟨.operator, "+", 12⟩,
    ⟨.word, "name", 13⟩, ⟨.delimiter, "\x7d\x7d", 17⟩, ⟨.quoted, "!", 19⟩]

theorem greeting_lossless :
    ofSource greeting = .ok ⟨greeting, greetingTokens, 0, nofun, Nat.zero_le _⟩ ∧
      Lossless greeting greetingTokens := by
  have hscan : Scan.ofText greeting.text = ⟨greetingTokens, .complete⟩ := by decide +kernel
  have h : ofSource greeting = .ok ⟨greeting, greetingTokens, 0, nofun, Nat.zero_le _⟩ := by
    refine ofSource_eq_ok_iff.mpr ⟨by rw [hscan], by rw [hscan]; exact nofun, ?_⟩
    simp only [hscan]
  exact ⟨h, lossless_of_ofSource h⟩

end TokenStream

end TemplateLang

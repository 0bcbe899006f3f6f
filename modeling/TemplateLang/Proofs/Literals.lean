import TemplateLang.Proofs.Entry
import TemplateLang.Proofs.Grammar.Template
import TemplateLang.Proofs.Scan.Modes

/-!
# TemplateLang.Proofs.Literals — the literal text of a template

A compiled template holds the text of its source outside blocks: nothing of it is lost, doubled or
moved. Put together in document order, with bodies in place, the literal nodes are the source
without its blocks, the closing delimiters that close nothing, and the quotes of the strings outside
(`literalText_eq_textWithout`).

Both halves of compiling are measured by the same text in between, that of the tokens outside
blocks (`outsideText`). That the nodes hold it is an induction on the grammar: every block ends at
its first closing delimiter, since no expression has one in it. That the source has it is an
induction on the cut of the source into tokens, which inside a block carries along all that has been
read of it.
-/

namespace TemplateLang

/-! ## Literal text -/

mutual

/-- The literal text of a node: its own or that of its body. -/
def Node.literalText : Node → String
  | .literal text => text
  | .output _ => ""
  | .assign _ _ _ => ""
  | .conditional _ body => Template.literalText body
  | .loop _ _ body => Template.literalText body

/-- The literal text of a template, in document order. -/
def Template.literalText : List Node → String
  | [] => ""
  | node :: nodes => node.literalText ++ Template.literalText nodes

end

namespace Template

variable {e : Expr} {nodes : Template}

theorem literalText_output : literalText (.output e :: nodes) = literalText nodes :=
  String.empty_append

theorem literalText_assign (name sign : String) :
    literalText (.assign name sign e :: nodes) = literalText nodes :=
  String.empty_append

end Template

/-- The text of the tokens that stand outside every block, given whether the first one stands
inside. -/
def outsideText : Bool → List Token → List Char
  | _, [] => []
  | inside, t :: ts =>
      (if inside || t.kind == .delimiter then [] else t.text.toList) ++
        outsideText (t.insideBehind inside) ts

/-! ## What is left of a source -/

instance (span : Span) (byte : Nat) : Decidable (span.Covers byte) :=
  inferInstanceAs (Decidable (_ ∧ _))

/-- The characters of `cs`, the text that stands at `offset`, that begin in none of the spans. -/
def keptChars (spans : List Span) (offset : Nat) : List Char → List Char
  | [] => []
  | c :: cs =>
      if ∃ span ∈ spans, span.Covers offset then keptChars spans (offset + c.utf8Size) cs
      else c :: keptChars spans (offset + c.utf8Size) cs

/-- The text without what stands in the spans. -/
def textWithout (text : String) (spans : List Span) : String :=
  String.ofList (keptChars spans 0 text.toList)

/-- What is no literal text, by the tokens of a source: all from a token that opens a block through
the next one that closes a block; outside blocks, the delimiters that close one; and, outside
blocks, the two quotes of a string. `opened` is where the block began that the tokens stand in. -/
def removedSpans : Option Nat → List Token → List Span
  | _, [] => []
  | some start, t :: ts =>
      if t.isCloser then ⟨start, t.span.stop - start⟩ :: removedSpans none ts
      else removedSpans (some start) ts
  | none, t :: ts =>
      if t.isOpener then removedSpans (some t.offset) ts
      else if t.isCloser then t.span :: removedSpans none ts
      else if t.kind = .quoted then
        ⟨t.offset, 1⟩ :: ⟨t.span.stop - 1, 1⟩ :: removedSpans none ts
      else removedSpans none ts

/-! ## The nodes hold the text outside -/

section Blocks

variable {o c t : Token} {es ts : List Token}

theorem outsideText_opener (ht : t.isOpener = true) :
    outsideText false (t :: ts) = outsideText true ts := by
  show (if false || t.kind == .delimiter then [] else t.text.toList) ++
    outsideText (t.insideBehind false) ts = _
  rw [Token.insideBehind_of_isOpener ht, Token.kind_of_isOpener ht]
  rfl

theorem outsideText_inside (ht : t.isCloser = false) :
    outsideText true (t :: ts) = outsideText true ts := by
  show [] ++ outsideText (t.insideBehind true) ts = _
  rw [Token.insideBehind_true_of_not_isCloser ht, List.nil_append]

theorem outsideText_closer (ht : t.isCloser = true) :
    outsideText true (t :: ts) = outsideText false ts := by
  show [] ++ outsideText (t.insideBehind true) ts = _
  rw [Token.insideBehind_of_isCloser ht, List.nil_append]

theorem outsideText_stray (ht : t.kind = .delimiter) (hopener : ¬ t.isOpener = true) :
    outsideText false (t :: ts) = outsideText false ts := by
  show (if false || t.kind == .delimiter then [] else t.text.toList) ++
    outsideText (t.insideBehind false) ts = _
  rw [Token.insideBehind_false_of_not_isOpener hopener, ht]
  rfl

theorem outsideText_literal (ht : t.kind ≠ .delimiter) :
    outsideText false (t :: ts) = t.text.toList ++ outsideText false ts := by
  show (if false || t.kind == .delimiter then [] else t.text.toList) ++
    outsideText (t.insideBehind false) ts = _
  rw [Token.insideBehind_of_kind ht, beq_false_of_ne ht]
  rfl

/-- A block that ends at its first closing delimiter has no text outside. -/
theorem outsideText_block (ho : o.isOpener = true) (hc : c.isCloser = true)
    (hes : ∀ t ∈ es, t.isCloser = false) :
    outsideText false (o :: es ++ c :: ts) = outsideText false ts := by
  rw [List.cons_append, outsideText_opener ho]
  induction es with
  | nil => exact outsideText_closer hc
  | cons e es ih =>
      obtain ⟨he, hes⟩ := List.forall_mem_cons.mp hes
      rw [List.cons_append, outsideText_inside he]
      exact ih hes

end Blocks

/-- No expression has a closing delimiter in it. -/
theorem Expr.Derives.isCloser_eq_false {phrase : Expr.Phrase} {tokens : List Token} {e : Expr}
    (h : Expr.Derives phrase tokens e) : ∀ t ∈ tokens, t.isCloser = false := by
  have hsign : ∀ {o : Token} {symbol : String}, o.Is .operator symbol → o.isCloser = false :=
    fun ho => Token.isCloser_of_kind (by simp [ho.1])
  have hbinary : ∀ {ls rs : List Token} {o : Token}, (∀ t ∈ ls, t.isCloser = false) →
      o.isCloser = false → (∀ t ∈ rs, t.isCloser = false) →
      ∀ t ∈ ls ++ o :: rs, t.isCloser = false :=
    fun hl ho hr => List.forall_mem_append.mpr ⟨hl, List.forall_mem_cons.mpr ⟨ho, hr⟩⟩
  induction h with
  | greater _ ho _ ihl ihr => exact hbinary ihl (hsign ho) ihr
  | ofSum _ ih => exact ih
  | add _ ho _ ihl ihr => exact hbinary ihl (hsign ho) ihr
  | subtract _ ho _ ihl ihr => exact hbinary ihl (hsign ho) ihr
  | ofProduct _ ih => exact ih
  | multiply _ ho _ ihl ihr => exact hbinary ihl (hsign ho) ihr
  | divide _ ho _ ihl ihr => exact hbinary ihl (hsign ho) ihr
  | ofPrimary _ ih => exact ih
  | leaf h =>
      refine List.forall_mem_singleton.mpr (Token.isCloser_of_kind ?_)
      rcases h with h | h | h <;> simp [h]
  | group ho _ hc ih => exact hbinary (List.forall_mem_cons.mpr ⟨hsign ho, ih⟩) (hsign hc) nofun
  | opener ho _ ih =>
      refine List.forall_mem_cons.mpr ⟨?_, ih⟩
      rw [Bool.eq_false_iff]
      intro hcloser
      exact Token.not_isOpener_of_isCloser hcloser (Token.isOpener_iff.mpr (.inl ho))

/-- A statement block has no text outside, whatever the words between its opener and its
expression. -/
theorem outsideText_statement {o c : Token} {words es : List Token} {e : Expr}
    (ho : o.Is .delimiter "\x7b%") (hwords : ∀ t ∈ words, t.kind ≠ .delimiter)
    (he : Expr.Derives .comparison es e) (hc : c.Is .delimiter "%\x7d") (ts : List Token) :
    outsideText false (o :: (words ++ es) ++ c :: ts) = outsideText false ts := by
  refine outsideText_block (Token.isOpener_iff.mpr (.inr ho)) (Token.isCloser_iff.mpr (.inr hc)) ?_
  refine List.forall_mem_append.mpr ⟨?_, he.isCloser_eq_false⟩
  exact fun t ht => Token.isCloser_of_kind (hwords t ht)

theorem outsideText_endTag {tag : List Token} (h : Template.EndTag tag) (ts : List Token) :
    outsideText false (tag ++ ts) = outsideText false ts := by
  cases h with
  | @mk o k c ho hk hc =>
      have hkeyword : ∀ t ∈ [k], t.isCloser = false :=
        List.forall_mem_singleton.mpr (Token.isCloser_of_kind (by simp [hk.1]))
      exact outsideText_block (Token.isOpener_iff.mpr (.inr ho)) (Token.isCloser_iff.mpr (.inr hc))
        hkeyword

/-- **The nodes of derived tokens hold their text outside blocks.** -/
theorem Template.Derives.outsideText_append {tokens : List Token} {nodes : Template}
    (h : Template.Derives tokens nodes) (rest : List Token) :
    outsideText false (tokens ++ rest) =
      (Template.literalText nodes).toList ++ outsideText false rest := by
  induction h generalizing rest with
  | nil => rfl
  | @literal t ts ns ht _ ih =>
      rw [List.cons_append, outsideText_literal ht, ih, Template.literalText, Node.literalText,
        String.toList_append, List.append_assoc]
  | @stray t ts ns ht houtput hstatement _ ih =>
      have hopener : ¬ t.isOpener = true := by
        intro hopener
        rcases Token.isOpener_iff.mp hopener with ho | ho
        · exact houtput ho.2
        · exact hstatement ho.2
      rw [List.cons_append, outsideText_stray ht hopener, ih]
  | @output o c es ts e ns ho he hc _ ih =>
      have hblock : outsideText false (o :: es ++ c :: (ts ++ rest)) =
          outsideText false (ts ++ rest) :=
        outsideText_block (Token.isOpener_iff.mpr (.inl ho)) (Token.isCloser_iff.mpr (.inl hc))
          he.isCloser_eq_false
      simp only [List.cons_append, List.append_assoc] at hblock ⊢
      rw [hblock, ih, literalText_output]
  | @assign o k name sign c es ts e ns ho hk hname hsign he hc _ ih =>
      have hwords : ∀ t ∈ [k, name, sign], t.kind ≠ .delimiter := by
        simp [hk.1, hname, hsign]
      have hblock := outsideText_statement ho hwords he hc (ts ++ rest)
      simp only [List.cons_append, List.nil_append, List.append_assoc] at hblock ⊢
      rw [hblock, ih, literalText_assign]
  | @conditional o k c es bs tag ts e body ns ho hk he hc htag _ _ ihbs ihts =>
      have hwords : ∀ t ∈ [k], t.kind ≠ .delimiter := by
        simp [hk.1]
      have hblock := outsideText_statement ho hwords he hc (bs ++ (tag ++ (ts ++ rest)))
      simp only [List.cons_append, List.nil_append, List.append_assoc] at hblock ⊢
      rw [hblock, ihbs, outsideText_endTag htag, ihts, literalText, Node.literalText,
        String.toList_append, List.append_assoc]
  | @loop o k name sep c es bs tag ts e body ns ho hk hname hsep he hc htag _ _ ihbs ihts =>
      have hwords : ∀ t ∈ [k, name, sep], t.kind ≠ .delimiter := by
        simp [hk.1, hname, hsep.1]
      have hblock := outsideText_statement ho hwords he hc (bs ++ (tag ++ (ts ++ rest)))
      simp only [List.cons_append, List.nil_append, List.append_assoc] at hblock ⊢
      rw [hblock, ihbs, outsideText_endTag htag, ihts, literalText, Node.literalText,
        String.toList_append, List.append_assoc]

/-! ## The source without its blocks -/

section Kept

variable {spans : List Span} {offset : Nat}

theorem keptChars_append (spans : List Span) (offset : Nat) (cs ds : List Char) :
    keptChars spans offset (cs ++ ds) =
      keptChars spans offset cs ++ keptChars spans (offset + Text.byteLength cs) ds := by
  induction cs generalizing offset with
  | nil => rfl
  | cons c cs ih =>
      rw [List.cons_append, keptChars, keptChars, ih, Text.byteLength_cons, Nat.add_assoc]
      split
      · rfl
      · rfl

/-- What a span covers is not kept. -/
theorem keptChars_eq_nil {cs : List Char} {span : Span} (hspan : span ∈ spans)
    (hstart : span.offset ≤ offset) (hstop : offset + Text.byteLength cs ≤ span.stop) :
    keptChars spans offset cs = [] := by
  induction cs generalizing offset with
  | nil => rfl
  | cons c cs ih =>
      have hc := c.utf8Size_pos
      rw [Text.byteLength_cons] at hstop
      rw [keptChars, if_pos ⟨span, hspan, hstart, by omega⟩]
      exact ih (by omega) (by omega)

/-- What lies in front of a span or behind it is kept or not without regard to it. -/
theorem keptChars_cons {cs : List Char} {span : Span}
    (h : span.stop ≤ offset ∨ offset + Text.byteLength cs ≤ span.offset) :
    keptChars (span :: spans) offset cs = keptChars spans offset cs := by
  induction cs generalizing offset with
  | nil => rfl
  | cons c cs ih =>
      have hc := c.utf8Size_pos
      rw [Text.byteLength_cons] at h
      have hout : ¬ span.Covers offset := by
        rintro ⟨hlow, hhigh⟩
        omega
      have hcons : (∃ s ∈ span :: spans, s.Covers offset) ↔ ∃ s ∈ spans, s.Covers offset := by
        simp [hout]
      rw [keptChars, keptChars, ih (by omega)]
      simp only [hcons]

/-- What lies in front of all spans is kept. -/
theorem keptChars_eq_self {cs : List Char}
    (h : ∀ span ∈ spans, offset + Text.byteLength cs ≤ span.offset) :
    keptChars spans offset cs = cs := by
  induction cs generalizing offset with
  | nil => rfl
  | cons c cs ih =>
      have hc := c.utf8Size_pos
      simp only [Text.byteLength_cons] at h
      have hout : ¬ ∃ span ∈ spans, span.Covers offset := by
        rintro ⟨span, hspan, hlow, -⟩
        have hbehind := h span hspan
        omega
      rw [keptChars, if_neg hout, ih]
      intro span hspan
      have hbehind := h span hspan
      omega

/-- A piece that the first span covers to its end is not kept, and the span has no part in what
stands behind. -/
theorem keptChars_covered {span : Span} {piece : List Char} (hstart : span.offset ≤ offset)
    (hstop : span.stop = offset + Text.byteLength piece) (rest : List Char) :
    keptChars (span :: spans) offset (piece ++ rest) =
      keptChars spans (offset + Text.byteLength piece) rest := by
  rw [keptChars_append, keptChars_eq_nil List.mem_cons_self hstart (Nat.le_of_eq hstop.symm),
    keptChars_cons (.inl (Nat.le_of_eq hstop)), List.nil_append]

/-- Of a string without its quotes the text between them is kept. -/
theorem keptChars_string {q : Char} (hq : isQuote q = true) {body : List Char} {stop : Nat}
    (hstop : stop = offset + (Text.byteLength body + 2))
    (hbehind : ∀ span ∈ spans, stop ≤ span.offset) (rest : List Char) :
    keptChars (⟨offset, 1⟩ :: ⟨stop - 1, 1⟩ :: spans) offset (q :: body ++ [q] ++ rest) =
      body ++ keptChars spans stop rest := by
  have hquote : Text.byteLength [q] = 1 := by
    rw [Text.byteLength_cons, utf8Size_of_isQuote hq, Text.byteLength_nil]
  have hlast : stop - 1 = offset + 1 + Text.byteLength body := by omega
  have hend : offset + 1 + Text.byteLength body + 1 = stop := by omega
  have hsplit : q :: body ++ [q] ++ rest = [q] ++ (body ++ ([q] ++ rest)) := by simp
  have hinner : ∀ span ∈ Span.mk (offset + 1 + Text.byteLength body) 1 :: spans,
      offset + 1 + Text.byteLength body ≤ span.offset := by
    refine List.forall_mem_cons.mpr ⟨Nat.le_refl _, ?_⟩
    intro span hspan
    have hnext := hbehind span hspan
    omega
  have hfirst : (Span.mk offset 1).stop = offset + Text.byteLength [q] := by
    rw [hquote]
    rfl
  have hsecond : (Span.mk (offset + 1 + Text.byteLength body) 1).stop =
      offset + 1 + Text.byteLength body + Text.byteLength [q] := by
    rw [hquote]
    rfl
  rw [hlast, hsplit, keptChars_covered (Nat.le_refl offset) hfirst, hquote, keptChars_append,
    keptChars_eq_self hinner, keptChars_covered (Nat.le_refl _) hsecond, hquote, hend]

end Kept

/-- Nothing is removed in front of the tokens and of the block that they stand in. -/
theorem le_offset_of_mem_removedSpans {opened : Option Nat} {tokens : List Token} {low : Nat}
    (hopened : ∀ start ∈ opened, low ≤ start) (htokens : ∀ t ∈ tokens, low ≤ t.offset) :
    ∀ span ∈ removedSpans opened tokens, low ≤ span.offset := by
  fun_induction removedSpans opened tokens with
  | case1 => exact nofun
  | case2 start t ts hcloser ih =>
      obtain ⟨ht, hts⟩ := List.forall_mem_cons.mp htokens
      exact List.forall_mem_cons.mpr ⟨hopened start rfl, ih nofun hts⟩
  | case3 start t ts hcloser ih => exact ih hopened (List.forall_mem_cons.mp htokens).2
  | case4 t ts hopener ih =>
      obtain ⟨ht, hts⟩ := List.forall_mem_cons.mp htokens
      refine ih ?_ hts
      rintro _ ⟨⟩
      exact ht
  | case5 t ts hopener hcloser ih =>
      obtain ⟨ht, hts⟩ := List.forall_mem_cons.mp htokens
      exact List.forall_mem_cons.mpr ⟨ht, ih nofun hts⟩
  | case6 t ts hopener hcloser hquoted ih =>
      obtain ⟨ht, hts⟩ := List.forall_mem_cons.mp htokens
      have hlast : low ≤ t.span.stop - 1 := by
        have hlength : t.length = Text.byteLength t.text.toList + 2 := by
          rw [Token.length, hquoted]
        show low ≤ t.offset + t.length - 1
        omega
      exact List.forall_mem_cons.mpr ⟨ht, List.forall_mem_cons.mpr ⟨hlast, ih nofun hts⟩⟩
  | case7 t ts hopener hcloser hquoted ih => exact ih nofun (List.forall_mem_cons.mp htokens).2

/-- **`KeepsText inside offset tokens cs`** — without what is removed, the text `cs` at `offset` is
the text of its tokens outside blocks. Inside a block this is said of all that has been read since
the block began: what is read is removed once the block ends. -/
def KeepsText : Bool → Nat → List Token → List Char → Prop
  | false, offset, tokens, cs =>
      keptChars (removedSpans none tokens) offset cs = outsideText false tokens
  | true, offset, tokens, cs => ∀ start front, start + Text.byteLength front = offset →
      keptChars (removedSpans (some start) tokens) start (front ++ cs) = outsideText true tokens

namespace KeepsText

variable {offset : Nat} {t : Token} {tokens : List Token} {piece rest : List Char}

/-- Inside a block the text is carried along, -/
theorem carry (h : KeepsText true t.span.stop tokens rest)
    (hstop : t.span.stop = offset + Text.byteLength piece) (ht : t.isCloser = false) :
    KeepsText true offset (t :: tokens) (piece ++ rest) := by
  intro start front hfront
  have hpiece : start + Text.byteLength (front ++ piece) = t.span.stop := by
    rw [Text.byteLength_append]
    omega
  have hkept := h start (front ++ piece) hpiece
  rw [removedSpans, if_neg (by rw [ht]; decide), ← List.append_assoc, hkept, outsideText_inside ht]

/-- and removed where the block ends. -/
theorem closeBlock (h : KeepsText false t.span.stop tokens rest)
    (hstop : t.span.stop = offset + Text.byteLength piece) (ht : t.isCloser = true) :
    KeepsText true offset (t :: tokens) (piece ++ rest) := by
  intro start front hfront
  have hpiece : t.span.stop = start + Text.byteLength (front ++ piece) := by
    rw [Text.byteLength_append]
    omega
  have hspan : (Span.mk start (t.span.stop - start)).stop =
      start + Text.byteLength (front ++ piece) := by
    show start + (t.span.stop - start) = _
    omega
  rw [removedSpans, if_pos ht, ← List.append_assoc, keptChars_covered (Nat.le_refl start) hspan,
    ← hpiece, outsideText_closer ht]
  exact h

theorem openBlock (h : KeepsText true t.span.stop tokens rest)
    (hstop : t.span.stop = t.offset + Text.byteLength piece) (ht : t.isOpener = true) :
    KeepsText false t.offset (t :: tokens) (piece ++ rest) := by
  show keptChars (removedSpans none (t :: tokens)) t.offset (piece ++ rest) =
    outsideText false (t :: tokens)
  rw [removedSpans, if_pos ht, h t.offset piece hstop.symm, outsideText_opener ht]

theorem strayCloser (h : KeepsText false t.span.stop tokens rest)
    (hstop : t.span.stop = t.offset + Text.byteLength piece) (ht : t.isCloser = true) :
    KeepsText false t.offset (t :: tokens) (piece ++ rest) := by
  have hopener := Token.not_isOpener_of_isCloser ht
  have hkind : t.kind = .delimiter := (Token.isCloser_iff.mp ht).elim And.left And.left
  show keptChars (removedSpans none (t :: tokens)) t.offset (piece ++ rest) =
    outsideText false (t :: tokens)
  rw [outsideText_stray hkind hopener, removedSpans, if_neg hopener, if_pos ht,
    keptChars_covered (Nat.le_refl t.offset) hstop, ← hstop]
  exact h

theorem literal (h : KeepsText false t.span.stop tokens rest)
    (hbehind : ∀ span ∈ removedSpans none tokens, t.span.stop ≤ span.offset)
    (ht : t.kind ≠ .delimiter) (hquoted : t.kind ≠ .quoted)
    (hstop : t.span.stop = t.offset + Text.byteLength t.text.toList) :
    KeepsText false t.offset (t :: tokens) (t.text.toList ++ rest) := by
  have hopener : ¬ t.isOpener = true := fun ho => ht (Token.kind_of_isOpener ho)
  have hcloser : ¬ t.isCloser = true := by
    rw [Token.isCloser_of_kind ht]
    decide
  rw [hstop] at h hbehind
  show keptChars (removedSpans none (t :: tokens)) t.offset (t.text.toList ++ rest) =
    outsideText false (t :: tokens)
  rw [outsideText_literal ht, removedSpans, if_neg hopener, if_neg hcloser, if_neg hquoted,
    keptChars_append, keptChars_eq_self hbehind]
  exact congrArg (t.text.toList ++ ·) h

theorem string (h : KeepsText false t.span.stop tokens rest)
    (hbehind : ∀ span ∈ removedSpans none tokens, t.span.stop ≤ span.offset)
    (ht : t.kind = .quoted) {q : Char} (hq : isQuote q = true) :
    KeepsText false t.offset (t :: tokens) ((q :: t.text.toList ++ [q]) ++ rest) := by
  have hkind : t.kind ≠ .delimiter := by
    rw [ht]
    decide
  have hopener : ¬ t.isOpener = true := fun ho => hkind (Token.kind_of_isOpener ho)
  have hcloser : ¬ t.isCloser = true := by
    rw [Token.isCloser_of_kind hkind]
    decide
  have hstop : t.span.stop = t.offset + (Text.byteLength t.text.toList + 2) := by
    show t.offset + t.length = _
    rw [Token.length, ht]
  show keptChars (removedSpans none (t :: tokens)) t.offset _ = outsideText false (t :: tokens)
  rw [outsideText_literal hkind, removedSpans, if_neg hopener, if_neg hcloser, if_pos ht,
    keptChars_string hq hstop hbehind]
  exact congrArg (t.text.toList ++ ·) h

end KeepsText

/-- **A text without what is removed** is the text of its tokens outside blocks. -/
theorem Segments.keepsText {inside : Bool} {offset : Nat} {tokens : List Token} {cs : List Char}
    (h : Segments inside offset tokens cs)
    (hdelimiter : ∀ t ∈ tokens, t.kind = .delimiter → t.isOpener = true ∨ t.isCloser = true) :
    KeepsText inside offset tokens cs := by
  induction h with
  | done => rfl
  | @token inside offset t tokens gap raw rest hgap hplace hraw hne hrest ih =>
      obtain ⟨ht, hmore⟩ := List.forall_mem_cons.mp hdelimiter
      have hkeeps := ih hmore
      have hstop : t.span.stop = t.offset + Text.byteLength raw := by
        rw [hraw.byteLength_eq]
        rfl
      have hbehind : ∀ span ∈ removedSpans none tokens, t.span.stop ≤ span.offset :=
        le_offset_of_mem_removedSpans nofun hrest.offset_le
      cases inside with
      | true =>
          have hpiece : t.span.stop = offset + Text.byteLength (gap ++ raw) := by
            rw [Text.byteLength_append]
            omega
          rw [← List.append_assoc]
          cases hcloser : t.isCloser with
          | false =>
              rw [Token.insideBehind_true_of_not_isCloser hcloser] at hkeeps
              exact hkeeps.carry hpiece hcloser
          | true =>
              rw [Token.insideBehind_of_isCloser hcloser] at hkeeps
              exact hkeeps.closeBlock hpiece hcloser
      | false =>
          obtain rfl : gap = [] := by
            refine List.eq_nil_iff_forall_not_mem.mpr fun c hc => ?_
            cases (hgap c hc).1
          obtain rfl : t.offset = offset := hplace
          rw [List.nil_append]
          by_cases hkind : t.kind = .delimiter
          · rcases ht hkind with hopener | hcloser
            · rw [Token.insideBehind_of_isOpener hopener] at hkeeps
              exact hkeeps.openBlock hstop hopener
            · rw [Token.insideBehind_of_isCloser hcloser] at hkeeps
              exact hkeeps.strayCloser hstop hcloser
          · rw [Token.insideBehind_of_kind hkind] at hkeeps
            by_cases hquoted : t.kind = .quoted
            · obtain ⟨q, hq, rfl⟩ := hraw.exists_quote hquoted
              exact hkeeps.string hbehind hquoted hq
            · obtain rfl := hraw.eq_text hquoted
              exact hkeeps.literal hbehind hkind hquoted hstop

/-! ## Sources -/

/-- Every delimiter of a scan opens or closes a block. -/
theorem Scan.Runs.isOpener_or_isCloser {offset : Nat} {cs : List Char} {s : Scan}
    (h : Scan.Runs .literal offset cs s) :
    ∀ t ∈ s.tokens, t.kind = .delimiter → t.isOpener = true ∨ t.isCloser = true := by
  intro t hmem ht
  obtain ⟨before, behind, htokens⟩ := List.append_of_mem hmem
  obtain ⟨mode, piece, rest, after, hbegins, -⟩ := h.begins htokens
  obtain ⟨d, hd⟩ := hbegins.delimiter_text ht
  cases d with
  | opening kind => exact .inl (Token.isOpener_of_isDelimiter (Token.isDelimiter_iff.mpr ⟨ht, hd⟩))
  | closing kind => exact .inr (Token.isCloser_of_isDelimiter (Token.isDelimiter_iff.mpr ⟨ht, hd⟩))

/-- **The literal text of a template** is its source without its blocks, the closing delimiters
outside of them, and the quotes of the strings outside. -/
theorem literalText_eq_textWithout {text : String} {options : Options} {nodes : Template}
    (h : compileTemplate text options = .ok nodes) :
    Template.literalText nodes =
      textWithout text (removedSpans none (Scan.ofText text).tokens) := by
  rw [compileTemplate_eq_compileWith] at h
  obtain ⟨stream, left, hsource, hread⟩ := compileWith_eq_ok_iff.mp h
  obtain ⟨hend, hne, rfl⟩ := TokenStream.ofSource_eq_ok_iff.mp hsource
  have hruns := Scan.runs_ofText text
  have hnodes := (Template.derives_of_read hread).1.outsideText_append []
  have hsource : keptChars (removedSpans none (Scan.ofText text).tokens) 0 text.toList =
      outsideText false (Scan.ofText text).tokens :=
    (Segments.of_runs hruns hend).keepsText hruns.isOpener_or_isCloser
  apply String.toList_injective
  rw [textWithout, hsource, String.toList_ofList]
  simpa [outsideText] using hnodes.symm

/-- Text, a body with a string and a stray closing delimiter in it, and a block with a quote in it.
The end tag of another statement closes the body. -/
def mixedText : String :=
  "a\x7b% if x %\x7d'b'\x7d\x7d\x7b% endfor %\x7d\x7b\x7b \"'\" \x7d\x7dc"

def mixedTokens : List Token :=
  [⟨.text, "a", 0⟩, ⟨.delimiter, "\x7b%", 1⟩, ⟨.word, "if", 4⟩, ⟨.word, "x", 7⟩,
    ⟨.delimiter, "%\x7d", 9⟩, ⟨.quoted, "b", 11⟩, ⟨.delimiter, "\x7d\x7d", 14⟩,
    ⟨.delimiter, "\x7b%", 16⟩, ⟨.word, "endfor", 19⟩, ⟨.delimiter, "%\x7d", 26⟩,
    ⟨.delimiter, "\x7b\x7b", 28⟩, ⟨.quoted, "'", 31⟩, ⟨.delimiter, "\x7d\x7d", 35⟩,
    ⟨.text, "c", 37⟩]

def mixedNodes : Template :=
  [.literal "a", .conditional (.leaf ⟨.word, "x", 7⟩) [.literal "b"],
    .output (.leaf ⟨.quoted, "'", 31⟩), .literal "c"]

theorem mixedText_literalText :
    compileTemplate mixedText ⟨1, "page"⟩ = .ok mixedNodes ∧
      removedSpans none (Scan.ofText mixedText).tokens =
        [⟨1, 10⟩, ⟨11, 1⟩, ⟨13, 1⟩, ⟨14, 2⟩, ⟨16, 12⟩, ⟨28, 9⟩] ∧
      textWithout mixedText [⟨1, 10⟩, ⟨11, 1⟩, ⟨13, 1⟩, ⟨14, 2⟩, ⟨16, 12⟩, ⟨28, 9⟩] = "abc" ∧
      Template.literalText mixedNodes =
        textWithout mixedText (removedSpans none (Scan.ofText mixedText).tokens) := by
  have hscan : Scan.ofText mixedText = ⟨mixedTokens, .complete⟩ := by decide +kernel
  have hread : Template.read 1 mixedTokens = .accepted mixedNodes [] := by cbv
  have hcompiles : compileTemplate mixedText ⟨1, "page"⟩ = .ok mixedNodes := by
    rw [compileTemplate_eq_compileWith]
    exact compileWith_of_accepted hscan (List.cons_ne_nil _ _) hread
  refine ⟨hcompiles, ?_, by decide +kernel, literalText_eq_textWithout hcompiles⟩
  rw [hscan]
  decide +kernel

end TemplateLang

import TemplateLang.Proofs.Grammar.Expression

/-!
# TemplateLang.Proofs.Grammar.Item — what one token outside blocks leads to

The reader of items decides by the token it is given, and by the keyword behind it if the token
opens a statement block. `Leads` lists the seven ways in which it accepts, each with all that it
reads: literal text, a stray delimiter, an output, the three statements and the end tag.
`readItem_eq_accepted_iff` says that these are all, so what holds of every item is proved by going
through them and never by opening the reader again.

The equations `readItem_output`, …, `readItem_endTag` say the same before it is known whether the
parts are accepted, which is what a run that may stop for want of levels needs.
-/

namespace TemplateLang

open TokenReader

/-! ## Parts of blocks -/

theorem TokenReader.expectBlockEnd_eq_accepted_iff {kind : BlockKind} {tokens rest : List Token} :
    expectBlockEnd kind tokens = .accepted () rest ↔
      ∃ c, c.Is .delimiter (Delimiter.closing kind).text ∧ tokens = c :: rest := by
  cases tokens with
  | nil =>
      constructor
      · intro h
        cases h
      · rintro ⟨c, _, h⟩
        cases h
  | cons t left =>
      unfold expectBlockEnd
      simp only [bind_apply, next?_cons, Outcome.andThen_accepted]
      split
      · next ht =>
          constructor
          · intro h
            cases h
            exact ⟨t, Token.isDelimiter_iff.mp ht, rfl⟩
          · rintro ⟨c, _, h⟩
            cases h
            rfl
      · next ht =>
          constructor
          · intro h
            cases h
          · rintro ⟨c, hc, h⟩
            cases h
            exact absurd (Token.isDelimiter_iff.mpr hc) ht

theorem TokenReader.expectBlockEnd_cons {kind : BlockKind} {c : Token}
    (h : c.Is .delimiter (Delimiter.closing kind).text) (rest : List Token) :
    expectBlockEnd kind (c :: rest) = .accepted () rest :=
  expectBlockEnd_eq_accepted_iff.mpr ⟨c, h, rfl⟩

namespace Template

theorem readPart_eq_accepted_iff {part : StatementPart} {opener t : Token}
    {accepts : Token → Bool} {tokens rest : List Token} :
    readPart part opener accepts tokens = .accepted t rest ↔
      accepts t = true ∧ tokens = t :: rest := by
  cases tokens with
  | nil =>
      constructor
      · intro h
        cases h
      · rintro ⟨_, h⟩
        cases h
  | cons u left =>
      unfold readPart
      simp only [bind_apply, next?_cons, Outcome.andThen_accepted]
      split
      · next hu =>
          constructor
          · intro h
            cases h
            exact ⟨hu, rfl⟩
          · rintro ⟨_, h⟩
            cases h
            rfl
      · next hu =>
          constructor
          · intro h
            cases h
          · rintro ⟨ht, h⟩
            cases h
            exact absurd ht hu

theorem readPart_cons {part : StatementPart} {opener t : Token} {accepts : Token → Bool}
    (h : accepts t = true) (rest : List Token) :
    readPart part opener accepts (t :: rest) = .accepted t rest :=
  readPart_eq_accepted_iff.mpr ⟨h, rfl⟩

theorem readBlockEnd_eq_accepted_iff {levels : Nat} {tokens rest : List Token} {e : Expr} :
    readBlockEnd levels tokens = .accepted e rest ↔
      ∃ c, Expr.read levels 0 tokens = .accepted e (c :: rest) ∧ c.Is .delimiter "%\x7d" := by
  unfold readBlockEnd
  rw [bind_apply, Outcome.andThen_eq_accepted_iff]
  constructor
  · rintro ⟨value, left, hvalue, hend⟩
    obtain ⟨_, more, hclose, hpure⟩ := Outcome.andThen_eq_accepted_iff.mp hend
    cases hpure
    obtain ⟨c, hc, rfl⟩ := expectBlockEnd_eq_accepted_iff.mp hclose
    exact ⟨c, hvalue, hc⟩
  · rintro ⟨c, hvalue, hc⟩
    refine ⟨e, c :: rest, hvalue, ?_⟩
    rw [bind_apply, expectBlockEnd_cons hc]
    rfl

theorem readBody_eq_accepted_iff {body : TokenReader Section} {opener keyword : Token}
    {tokens rest : List Token} {nodes : List Node} :
    readBody body opener keyword tokens = .accepted nodes rest ↔
      ∃ tag, body tokens = .accepted ⟨nodes, some tag⟩ rest := by
  unfold readBody
  rw [bind_apply, Outcome.andThen_eq_accepted_iff]
  constructor
  · rintro ⟨⟨inner, endTag⟩, left, hbody, hend⟩
    cases endTag with
    | none => cases hend
    | some tag =>
        cases hend
        exact ⟨tag, hbody⟩
  · rintro ⟨tag, hbody⟩
    exact ⟨_, _, hbody, rfl⟩

/-! ## Keywords -/

/-- **`IsEndTag k`** — the word is the keyword of an end tag. -/
def IsEndTag (k : Token) : Prop :=
  k.kind = .word ∧ "end".toList <+: k.text.toList

theorem isEndKeyword_iff {keyword : String} :
    isEndKeyword keyword = true ↔ "end".toList <+: keyword.toList :=
  List.isPrefixOf_iff_prefix

/-- No end tag is one of the statements. -/
theorem IsEndTag.ne {k : Token} (h : IsEndTag k) {keyword : String}
    (hk : ¬ "end".toList <+: keyword.toList) : ¬ (k.text == keyword) = true := by
  rw [beq_iff_eq]
  intro heq
  rw [← heq] at hk
  exact hk h.2

/-! ## The statements -/

section Statements

variable {levels : Nat} {body : TokenReader Section} {opener k : Token} {rest : List Token}

theorem readStatement_set (hk : k.Is .word "set") :
    readStatement levels body opener (k :: rest) =
      (readAssignment levels opener rest).andThen fun n left => .accepted (.node n) left := by
  have hword : (k.kind == TokenKind.word) = true := by rw [hk.1]; rfl
  have hset : (k.text == "set") = true := by rw [hk.2]; rfl
  unfold readStatement readWord
  rw [bind_apply, readPart_cons hword, Outcome.andThen_accepted, if_pos hset]
  rfl

theorem readStatement_if (hk : k.Is .word "if") :
    readStatement levels body opener (k :: rest) =
      (readConditional levels body opener k rest).andThen fun n left =>
        .accepted (.node n) left := by
  have hword : (k.kind == TokenKind.word) = true := by rw [hk.1]; rfl
  have hset : ¬ (k.text == "set") = true := by rw [hk.2]; decide
  have hif : (k.text == "if") = true := by rw [hk.2]; rfl
  unfold readStatement readWord
  rw [bind_apply, readPart_cons hword, Outcome.andThen_accepted, if_neg hset, if_pos hif]
  rfl

theorem readStatement_for (hk : k.Is .word "for") :
    readStatement levels body opener (k :: rest) =
      (readLoop levels body opener k rest).andThen fun n left => .accepted (.node n) left := by
  have hword : (k.kind == TokenKind.word) = true := by rw [hk.1]; rfl
  have hset : ¬ (k.text == "set") = true := by rw [hk.2]; decide
  have hif : ¬ (k.text == "if") = true := by rw [hk.2]; decide
  have hfor : (k.text == "for") = true := by rw [hk.2]; rfl
  unfold readStatement readWord
  rw [bind_apply, readPart_cons hword, Outcome.andThen_accepted, if_neg hset, if_neg hif,
    if_pos hfor]
  rfl

theorem readStatement_endTag (hk : IsEndTag k) :
    readStatement levels body opener (k :: rest) =
      (expectBlockEnd .statement rest).andThen fun _ left => .accepted (.endTag k) left := by
  have hword : (k.kind == TokenKind.word) = true := by rw [hk.1]; rfl
  unfold readStatement readWord
  rw [bind_apply, readPart_cons hword, Outcome.andThen_accepted, if_neg (hk.ne (by decide)),
    if_neg (hk.ne (by decide)), if_neg (hk.ne (by decide)), if_pos (isEndKeyword_iff.mpr hk.2)]
  rfl

theorem readAssignment_cons {n sign : Token} (hn : n.kind = .word) (hsign : sign.kind = .operator) :
    readAssignment levels opener (n :: sign :: rest) =
      (readBlockEnd levels rest).andThen fun e left =>
        .accepted (.assign n.text sign.text e) left := by
  have hword : (n.kind == TokenKind.word) = true := by rw [hn]; rfl
  have hoperator : (sign.kind == TokenKind.operator) = true := by rw [hsign]; rfl
  unfold readAssignment readWord
  rw [bind_apply, readPart_cons hword, Outcome.andThen_accepted, bind_apply,
    readPart_cons hoperator]
  rfl

theorem readConditional_apply :
    readConditional levels body opener k rest =
      (readBlockEnd levels rest).andThen fun e left =>
        (readBody body opener k left).andThen fun nodes left =>
          .accepted (.conditional e nodes) left := rfl

theorem readLoop_cons {n sep : Token} (hn : n.kind = .word) (hsep : sep.Is .word "in") :
    readLoop levels body opener k (n :: sep :: rest) =
      (readBlockEnd levels rest).andThen fun e left =>
        (readBody body opener k left).andThen fun nodes left =>
          .accepted (.loop n.text e nodes) left := by
  have hword : (n.kind == TokenKind.word) = true := by rw [hn]; rfl
  unfold readLoop readWord
  rw [bind_apply, readPart_cons hword, Outcome.andThen_accepted, bind_apply,
    readPart_cons (Token.isExactly_iff.mpr hsep)]
  rfl

/-- The parts that an accepted assignment has. -/
theorem readAssignment_accepted {n : Node} {left : List Token}
    (h : readAssignment levels opener rest = .accepted n left) :
    ∃ name sign more e, rest = name :: sign :: more ∧ name.kind = .word ∧ sign.kind = .operator ∧
      readBlockEnd levels more = .accepted e left ∧ n = .assign name.text sign.text e := by
  obtain ⟨name, behind, hname, hrest⟩ := Outcome.andThen_eq_accepted_iff.mp h
  obtain ⟨hword, rfl⟩ := readPart_eq_accepted_iff.mp hname
  obtain ⟨sign, more, hsign, hvalue⟩ := Outcome.andThen_eq_accepted_iff.mp hrest
  obtain ⟨hoperator, rfl⟩ := readPart_eq_accepted_iff.mp hsign
  obtain ⟨e, after, he, hpure⟩ := Outcome.andThen_eq_accepted_iff.mp hvalue
  cases hpure
  exact ⟨name, sign, more, e, rfl, beq_iff_eq.mp hword, beq_iff_eq.mp hoperator, he, rfl⟩

/-- The parts that an accepted conditional has. -/
theorem readConditional_accepted {n : Node} {left : List Token}
    (h : readConditional levels body opener k rest = .accepted n left) :
    ∃ e inner nodes tag, readBlockEnd levels rest = .accepted e inner ∧
      body inner = .accepted ⟨nodes, some tag⟩ left ∧ n = .conditional e nodes := by
  obtain ⟨e, inner, he, hrest⟩ := Outcome.andThen_eq_accepted_iff.mp h
  obtain ⟨nodes, after, hbody, hpure⟩ := Outcome.andThen_eq_accepted_iff.mp hrest
  cases hpure
  obtain ⟨tag, hnodes⟩ := readBody_eq_accepted_iff.mp hbody
  exact ⟨e, inner, nodes, tag, he, hnodes, rfl⟩

/-- The parts that an accepted loop has. -/
theorem readLoop_accepted {n : Node} {left : List Token}
    (h : readLoop levels body opener k rest = .accepted n left) :
    ∃ name sep more e inner nodes tag, rest = name :: sep :: more ∧ name.kind = .word ∧
      sep.Is .word "in" ∧ readBlockEnd levels more = .accepted e inner ∧
      body inner = .accepted ⟨nodes, some tag⟩ left ∧ n = .loop name.text e nodes := by
  obtain ⟨name, behind, hname, hrest⟩ := Outcome.andThen_eq_accepted_iff.mp h
  obtain ⟨hword, rfl⟩ := readPart_eq_accepted_iff.mp hname
  obtain ⟨sep, more, hsep, hitems⟩ := Outcome.andThen_eq_accepted_iff.mp hrest
  obtain ⟨hin, rfl⟩ := readPart_eq_accepted_iff.mp hsep
  obtain ⟨e, inner, he, hbody⟩ := Outcome.andThen_eq_accepted_iff.mp hitems
  obtain ⟨nodes, after, hnodes, hpure⟩ := Outcome.andThen_eq_accepted_iff.mp hbody
  cases hpure
  obtain ⟨tag, htag⟩ := readBody_eq_accepted_iff.mp hnodes
  exact ⟨name, sep, more, e, inner, nodes, tag, rfl, beq_iff_eq.mp hword,
    Token.isExactly_iff.mp hin, he, htag, rfl⟩

end Statements

/-! ## Items -/

/-- **`Leads levels body t rest found left`** — the token `t` before the tokens `rest` leads to the
item `found` and leaves `left`. -/
inductive Leads (levels : Nat) (body : Token → TokenReader Section) (t : Token) :
    List Token → Item → List Token → Prop
  | literal {rest : List Token} (ht : t.kind ≠ .delimiter) :
      Leads levels body t rest (.node (.literal t.text)) rest
  | stray {rest : List Token} (ht : t.kind = .delimiter) (houtput : t.text ≠ "\x7b\x7b")
      (hstatement : t.text ≠ "\x7b%") : Leads levels body t rest .skip rest
  | output {c : Token} {rest left : List Token} {e : Expr} (ht : t.Is .delimiter "\x7b\x7b")
      (he : Expr.read levels 0 rest = .accepted e (c :: left)) (hc : c.Is .delimiter "\x7d\x7d") :
      Leads levels body t rest (.node (.output e)) left
  | assign {k name sign : Token} {more left : List Token} {e : Expr} (ht : t.Is .delimiter "\x7b%")
      (hk : k.Is .word "set") (hname : name.kind = .word) (hsign : sign.kind = .operator)
      (he : readBlockEnd levels more = .accepted e left) :
      Leads levels body t (k :: name :: sign :: more) (.node (.assign name.text sign.text e)) left
  | conditional {k tag : Token} {rest inner left : List Token} {e : Expr} {nodes : List Node}
      (ht : t.Is .delimiter "\x7b%") (hk : k.Is .word "if")
      (he : readBlockEnd levels rest = .accepted e inner)
      (hbody : body t inner = .accepted ⟨nodes, some tag⟩ left) :
      Leads levels body t (k :: rest) (.node (.conditional e nodes)) left
  | loop {k name sep tag : Token} {more inner left : List Token} {e : Expr} {nodes : List Node}
      (ht : t.Is .delimiter "\x7b%") (hk : k.Is .word "for") (hname : name.kind = .word)
      (hsep : sep.Is .word "in") (he : readBlockEnd levels more = .accepted e inner)
      (hbody : body t inner = .accepted ⟨nodes, some tag⟩ left) :
      Leads levels body t (k :: name :: sep :: more) (.node (.loop name.text e nodes)) left
  | endTag {k c : Token} {left : List Token} (ht : t.Is .delimiter "\x7b%") (hk : IsEndTag k)
      (hc : c.Is .delimiter "%\x7d") : Leads levels body t (k :: c :: left) (.endTag k) left

section Items

variable {levels : Nat} {body : Token → TokenReader Section} {t : Token} {rest : List Token}

theorem readItem_literal (ht : t.kind ≠ .delimiter) :
    readItem levels body t rest = .accepted (.node (.literal t.text)) rest := by
  have hstatement : ¬ t.isDelimiter (Delimiter.opening .statement).text = true :=
    fun h => ht (Token.isDelimiter_iff.mp h).1
  have houtput : ¬ t.isDelimiter (Delimiter.opening .output).text = true :=
    fun h => ht (Token.isDelimiter_iff.mp h).1
  have hkind : ¬ (t.kind == TokenKind.delimiter) = true := by rwa [beq_iff_eq]
  unfold readItem
  rw [if_neg hstatement, if_neg houtput, if_neg hkind]
  rfl

theorem readItem_stray (ht : t.kind = .delimiter) (houtput : t.text ≠ "\x7b\x7b")
    (hstatement : t.text ≠ "\x7b%") : readItem levels body t rest = .accepted .skip rest := by
  have hs : ¬ t.isDelimiter (Delimiter.opening .statement).text = true :=
    fun h => hstatement (Token.isDelimiter_iff.mp h).2
  have ho : ¬ t.isDelimiter (Delimiter.opening .output).text = true :=
    fun h => houtput (Token.isDelimiter_iff.mp h).2
  have hkind : (t.kind == TokenKind.delimiter) = true := by rwa [beq_iff_eq]
  unfold readItem
  rw [if_neg hs, if_neg ho, if_pos hkind]
  rfl

theorem readItem_output (ht : t.Is .delimiter "\x7b\x7b") :
    readItem levels body t rest =
      (Expr.read levels 0 rest).andThen fun e left =>
        (expectBlockEnd .output left).andThen fun _ left => .accepted (.node (.output e)) left := by
  have hs : ¬ t.isDelimiter (Delimiter.opening .statement).text = true := by
    rw [Token.isDelimiter_iff]
    rintro ⟨_, htext⟩
    rw [ht.2] at htext
    revert htext
    decide
  have ho : t.isDelimiter (Delimiter.opening .output).text = true := Token.isDelimiter_iff.mpr ht
  unfold readItem
  rw [if_neg hs, if_pos ho]
  rfl

theorem readItem_statement (ht : t.Is .delimiter "\x7b%") :
    readItem levels body t rest = readStatement levels (body t) t rest := by
  have hs : t.isDelimiter (Delimiter.opening .statement).text = true :=
    Token.isDelimiter_iff.mpr ht
  unfold readItem
  rw [if_pos hs]

/-- What a statement block accepts: a keyword and what belongs to it. -/
theorem leads_of_readStatement {found : Item} {left : List Token} (ht : t.Is .delimiter "\x7b%")
    (h : readStatement levels (body t) t rest = .accepted found left) :
    Leads levels body t rest found left := by
  obtain ⟨k, behind, hword, hstatement⟩ := Outcome.andThen_eq_accepted_iff.mp h
  obtain ⟨hk, rfl⟩ := readPart_eq_accepted_iff.mp hword
  have hkind : k.kind = .word := beq_iff_eq.mp hk
  clear h hword
  dsimp only at hstatement
  split at hstatement
  · next hset =>
      obtain ⟨n, more, hn, hpure⟩ := Outcome.andThen_eq_accepted_iff.mp hstatement
      cases hpure
      obtain ⟨name, sign, inner, e, rfl, hname, hsign, he, rfl⟩ := readAssignment_accepted hn
      exact .assign ht ⟨hkind, beq_iff_eq.mp hset⟩ hname hsign he
  · split at hstatement
    · next hif =>
        obtain ⟨n, more, hn, hpure⟩ := Outcome.andThen_eq_accepted_iff.mp hstatement
        cases hpure
        obtain ⟨e, inner, nodes, tag, he, hnodes, rfl⟩ := readConditional_accepted hn
        exact .conditional ht ⟨hkind, beq_iff_eq.mp hif⟩ he hnodes
    · split at hstatement
      · next hfor =>
          obtain ⟨n, more, hn, hpure⟩ := Outcome.andThen_eq_accepted_iff.mp hstatement
          cases hpure
          obtain ⟨name, sep, mid, e, inner, nodes, tag, rfl, hname, hsep, he, hnodes, rfl⟩ :=
            readLoop_accepted hn
          exact .loop ht ⟨hkind, beq_iff_eq.mp hfor⟩ hname hsep he hnodes
      · split at hstatement
        · next hend =>
            obtain ⟨_, more, hclose, hpure⟩ := Outcome.andThen_eq_accepted_iff.mp hstatement
            cases hpure
            obtain ⟨c, hc, rfl⟩ := expectBlockEnd_eq_accepted_iff.mp hclose
            exact .endTag ht ⟨hkind, isEndKeyword_iff.mp hend⟩ hc
        · cases hstatement

/-- **Every accepted item** is one of the seven, and each of them is accepted. -/
theorem readItem_eq_accepted_iff {found : Item} {left : List Token} :
    readItem levels body t rest = .accepted found left ↔ Leads levels body t rest found left := by
  constructor
  · intro h
    by_cases hkind : t.kind = .delimiter
    · by_cases hstatement : t.text = "\x7b%"
      · rw [readItem_statement ⟨hkind, hstatement⟩] at h
        exact leads_of_readStatement ⟨hkind, hstatement⟩ h
      · by_cases houtput : t.text = "\x7b\x7b"
        · rw [readItem_output ⟨hkind, houtput⟩] at h
          obtain ⟨e, more, he, h⟩ := Outcome.andThen_eq_accepted_iff.mp h
          obtain ⟨_, after, hclose, h⟩ := Outcome.andThen_eq_accepted_iff.mp h
          cases h
          obtain ⟨c, hc, rfl⟩ := expectBlockEnd_eq_accepted_iff.mp hclose
          exact .output ⟨hkind, houtput⟩ he hc
        · rw [readItem_stray hkind houtput hstatement] at h
          cases h
          exact .stray hkind houtput hstatement
    · rw [readItem_literal hkind] at h
      cases h
      exact .literal hkind
  · intro h
    cases h with
    | literal ht => exact readItem_literal ht
    | stray ht houtput hstatement => exact readItem_stray ht houtput hstatement
    | output ht he hc =>
        rw [readItem_output ht, he, Outcome.andThen_accepted, expectBlockEnd_cons hc]
        rfl
    | assign ht hk hname hsign he =>
        rw [readItem_statement ht, readStatement_set hk, readAssignment_cons hname hsign, he]
        rfl
    | conditional ht hk he hbody =>
        rw [readItem_statement ht, readStatement_if hk, readConditional_apply, he,
          Outcome.andThen_accepted, readBody_eq_accepted_iff.mpr ⟨_, hbody⟩]
        rfl
    | loop ht hk hname hsep he hbody =>
        rw [readItem_statement ht, readStatement_for hk, readLoop_cons hname hsep, he,
          Outcome.andThen_accepted, readBody_eq_accepted_iff.mpr ⟨_, hbody⟩]
        rfl
    | endTag ht hk hc =>
        rw [readItem_statement ht, readStatement_endTag hk, expectBlockEnd_cons hc]
        rfl

end Items

end Template

end TemplateLang

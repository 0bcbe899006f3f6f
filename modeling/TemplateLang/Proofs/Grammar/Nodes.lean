import TemplateLang.Proofs.Grammar.Item

/-!
# TemplateLang.Proofs.Grammar.Nodes — the grammar of templates, and what nodes are read from

    template ::= node*
    node     ::= any token that is no delimiter
               | any delimiter that opens no block
               | "{{" comparison "}}"
               | "{%" "set" word operator comparison "%}"
               | "{%" "if" comparison "%}" template end
               | "{%" "for" word "in" comparison "%}" template end
    end      ::= "{%" word "%}"                    where the word begins with "end"

A stray delimiter leaves no node. An end tag is no node, so in the grammar it can only close a body;
the reader instead hands it up as data to whoever reads the body. `Behind` is what ties the two
together: the nodes of a section stop at the end of the tokens or at an end tag, and it says which.
Main statement (`spans_of_readNodes`): the nodes that are read derive from the tokens up to there.
-/

namespace TemplateLang

open TokenReader

namespace Template

/-! ## The grammar -/

/-- **`EndTag tokens`** — the three tokens of an end tag. -/
inductive EndTag : List Token → Prop
  | mk {o k c : Token} (ho : o.Is .delimiter "\x7b%") (hk : IsEndTag k)
      (hc : c.Is .delimiter "%\x7d") : EndTag [o, k, c]

/-- **`Derives tokens nodes`** — the tokens are derived from the grammar of templates, and the
derivation builds the nodes. -/
inductive Derives : List Token → Template → Prop
  | nil : Derives [] []
  | literal {t : Token} {ts : List Token} {ns : Template} (ht : t.kind ≠ .delimiter) :
      Derives ts ns → Derives (t :: ts) (.literal t.text :: ns)
  | stray {t : Token} {ts : List Token} {ns : Template} (ht : t.kind = .delimiter)
      (houtput : t.text ≠ "\x7b\x7b") (hstatement : t.text ≠ "\x7b%") :
      Derives ts ns → Derives (t :: ts) ns
  | output {o c : Token} {es ts : List Token} {e : Expr} {ns : Template}
      (ho : o.Is .delimiter "\x7b\x7b") (he : Expr.Derives .comparison es e)
      (hc : c.Is .delimiter "\x7d\x7d") :
      Derives ts ns → Derives (o :: es ++ c :: ts) (.output e :: ns)
  | assign {o k name sign c : Token} {es ts : List Token} {e : Expr} {ns : Template}
      (ho : o.Is .delimiter "\x7b%") (hk : k.Is .word "set") (hname : name.kind = .word)
      (hsign : sign.kind = .operator) (he : Expr.Derives .comparison es e)
      (hc : c.Is .delimiter "%\x7d") :
      Derives ts ns →
        Derives (o :: k :: name :: sign :: es ++ c :: ts) (.assign name.text sign.text e :: ns)
  | conditional {o k c : Token} {es bs tag ts : List Token} {e : Expr} {body ns : Template}
      (ho : o.Is .delimiter "\x7b%") (hk : k.Is .word "if") (he : Expr.Derives .comparison es e)
      (hc : c.Is .delimiter "%\x7d") (htag : EndTag tag) :
      Derives bs body → Derives ts ns →
        Derives (o :: k :: es ++ c :: (bs ++ tag ++ ts)) (.conditional e body :: ns)
  | loop {o k name sep c : Token} {es bs tag ts : List Token} {e : Expr} {body ns : Template}
      (ho : o.Is .delimiter "\x7b%") (hk : k.Is .word "for") (hname : name.kind = .word)
      (hsep : sep.Is .word "in") (he : Expr.Derives .comparison es e)
      (hc : c.Is .delimiter "%\x7d") (htag : EndTag tag) :
      Derives bs body → Derives ts ns →
        Derives (o :: k :: name :: sep :: es ++ c :: (bs ++ tag ++ ts))
          (.loop name.text e body :: ns)

/-- **`Behind endTag tokens rest`** — behind the nodes of a section stand `tokens`: nothing at all,
or the end tag and then `rest`. -/
inductive Behind : Option Token → List Token → List Token → Prop
  | atEnd : Behind none [] []
  | endTag {o k c : Token} {rest : List Token} (ho : o.Is .delimiter "\x7b%") (hk : IsEndTag k)
      (hc : c.Is .delimiter "%\x7d") : Behind (some k) (o :: k :: c :: rest) rest

/-! ## How nodes go on -/

/-- The nodes in front of what a section goes on with. -/
def prepend (nodes : List Node) (o : Outcome Section) : Outcome Section :=
  o.andThen fun more left => .accepted ⟨nodes ++ more.nodes, more.endTag⟩ left

@[simp] theorem prepend_accepted (nodes : List Node) (more : Section) (left : List Token) :
    prepend nodes (.accepted more left) = .accepted ⟨nodes ++ more.nodes, more.endTag⟩ left := rfl

@[simp] theorem prepend_nil (o : Outcome Section) : prepend [] o = o := by
  cases o <;> rfl

theorem prepend_prepend (nodes more : List Node) (o : Outcome Section) :
    prepend nodes (prepend more o) = prepend (nodes ++ more) o := by
  cases o with
  | refused fault rest => rfl
  | accepted s left => simp

theorem prepend_eq_accepted {nodes : List Node} {o : Outcome Section} {s : Section}
    {rest : List Token} (h : prepend nodes o = .accepted s rest) :
    ∃ more, o = .accepted more rest ∧ s.nodes = nodes ++ more.nodes ∧ s.endTag = more.endTag := by
  obtain ⟨more, left, ho, hpure⟩ := Outcome.andThen_eq_accepted_iff.mp h
  cases hpure
  exact ⟨more, ho, rfl, rfl⟩

/-- What an item makes of the nodes behind it. -/
def goOn (levels : Nat) : Item → List Token → Outcome Section
  | .skip, left => readNodes levels left
  | .node n, left => prepend [n] (readNodes levels left)
  | .endTag keyword, left => .accepted ⟨[], some keyword⟩ left

theorem readNodes_nil (levels : Nat) : readNodes levels [] = .accepted ⟨[], none⟩ [] := by
  rw [readNodes_eq]
  rfl

/-- Nodes are an item and the nodes behind it: the count in the reader cuts nothing off. -/
theorem readNodes_cons (levels : Nat) (t : Token) (rest : List Token) :
    readNodes levels (t :: rest) =
      (readItem levels (readEnclosed levels) t rest).andThen (goOn levels) := by
  have hsuffix : ∀ t, LeavesSuffix (readItem levels (readEnclosed levels) t) :=
    leavesSuffix_readItem levels (leavesSuffix_readEnclosed levels)
  have hnodes : readNodes levels (t :: rest) =
      readItems (readItem levels (readEnclosed levels)) (rest.length + 1) (t :: rest) := by
    rw [readNodes_eq]
    rfl
  rw [hnodes, readItems_cons]
  have hs := hsuffix t rest
  cases hitem : readItem levels (readEnclosed levels) t rest with
  | refused fault left => rfl
  | accepted found left =>
      rw [hitem] at hs
      have hleft : left.length ≤ rest.length := hs.length_le
      have hcount : readItems (readItem levels (readEnclosed levels)) rest.length left =
          readNodes levels left := by
        rw [readNodes_eq]
        exact readItems_eq_of_length_le hsuffix hleft (Nat.le_refl _)
      cases found with
      | endTag keyword => rfl
      | skip => exact hcount
      | node n =>
          show (readItems _ rest.length left).andThen _ = prepend [n] (readNodes levels left)
          rw [hcount]
          rfl

/-- An end tag ends the nodes, and is handed up. -/
theorem readNodes_endTag {tag : List Token} (h : EndTag tag) (levels : Nat) (rest : List Token) :
    ∃ keyword, readNodes levels (tag ++ rest) = .accepted ⟨[], some keyword⟩ rest := by
  cases h with
  | @mk o k c ho hk hc =>
      refine ⟨k, ?_⟩
      show readNodes levels (o :: k :: c :: rest) = _
      rw [readNodes_cons, readItem_eq_accepted_iff.mpr (.endTag ho hk hc)]
      rfl

/-! ## What is read is derived -/

/-- **`Spans tokens s rest`** — the tokens derive the nodes of the section, up to where it ends. -/
def Spans (tokens : List Token) (s : Section) (rest : List Token) : Prop :=
  ∃ used behind, tokens = used ++ behind ∧ Derives used s.nodes ∧ Behind s.endTag behind rest

/-- A body that ended at an end tag is derived, with the three tokens of the tag behind it. -/
theorem Spans.of_endTag {tokens rest : List Token} {nodes : List Node} {keyword : Token}
    (h : Spans tokens ⟨nodes, some keyword⟩ rest) :
    ∃ bs tag, tokens = bs ++ tag ++ rest ∧ Derives bs nodes ∧ EndTag tag := by
  obtain ⟨used, behind, rfl, hused, hbehind⟩ := h
  cases hbehind with
  | @endTag o k c rest ho hk hc =>
      exact ⟨used, [o, keyword, c], by simp, hused, .mk ho hk hc⟩

theorem derives_of_readBlockEnd {levels : Nat} {tokens rest : List Token} {e : Expr}
    (h : readBlockEnd levels tokens = .accepted e rest) :
    ∃ es c, tokens = es ++ c :: rest ∧ Expr.Derives .comparison es e ∧
      c.Is .delimiter "%\x7d" := by
  obtain ⟨c, hread, hc⟩ := readBlockEnd_eq_accepted_iff.mp h
  obtain ⟨es, rfl, hes, _⟩ := (Expr.sound levels).read hread
  exact ⟨es, c, rfl, hes, hc⟩

/-- One item in front of what spans a section, given what bodies span. -/
theorem spans_of_leads {levels : Nat} {t : Token} {tokens left rest : List Token} {found : Item}
    {s : Section} (hitem : Leads levels (readEnclosed levels) t tokens found left)
    (hbody : ∀ inner nodes keyword after,
      readEnclosed levels t inner = .accepted ⟨nodes, some keyword⟩ after →
        Spans inner ⟨nodes, some keyword⟩ after)
    (hmore : ∀ more, readNodes levels left = .accepted more rest → Spans left more rest)
    (h : goOn levels found left = .accepted s rest) : Spans (t :: tokens) s rest := by
  have hnode {n : Node} (h : goOn levels (.node n) left = .accepted s rest) :
      ∃ ns used behind, s.nodes = n :: ns ∧ left = used ++ behind ∧ Derives used ns ∧
        Behind s.endTag behind rest := by
    obtain ⟨more, hread, hnodes, htag⟩ := prepend_eq_accepted h
    obtain ⟨used, behind, hleft, hused, hbehind⟩ := hmore more hread
    exact ⟨more.nodes, used, behind, hnodes, hleft, hused, htag ▸ hbehind⟩
  cases hitem with
  | literal ht =>
      obtain ⟨ns, used, behind, hnodes, rfl, hused, hbehind⟩ := hnode h
      exact ⟨t :: used, behind, rfl, hnodes ▸ .literal ht hused, hbehind⟩
  | stray ht houtput hstatement =>
      obtain ⟨used, behind, rfl, hused, hbehind⟩ := hmore s h
      exact ⟨t :: used, behind, rfl, .stray ht houtput hstatement hused, hbehind⟩
  | @output c _ _ e ht he hc =>
      obtain ⟨ns, used, behind, hnodes, rfl, hused, hbehind⟩ := hnode h
      obtain ⟨es, rfl, hes, _⟩ := (Expr.sound levels).read he
      exact ⟨t :: es ++ c :: used, behind, by simp, hnodes ▸ .output ht hes hc hused, hbehind⟩
  | @assign k name sign _ _ e ht hk hname hsign he =>
      obtain ⟨ns, used, behind, hnodes, rfl, hused, hbehind⟩ := hnode h
      obtain ⟨es, c, rfl, hes, hc⟩ := derives_of_readBlockEnd he
      exact ⟨t :: k :: name :: sign :: es ++ c :: used, behind, by simp,
        hnodes ▸ .assign ht hk hname hsign hes hc hused, hbehind⟩
  | @conditional k keyword _ inner _ e nodes ht hk he hinner =>
      obtain ⟨ns, used, behind, hnodes, rfl, hused, hbehind⟩ := hnode h
      obtain ⟨es, c, rfl, hes, hc⟩ := derives_of_readBlockEnd he
      obtain ⟨bs, tag, rfl, hbs, htag⟩ := (hbody _ _ _ _ hinner).of_endTag
      exact ⟨t :: k :: es ++ c :: (bs ++ tag ++ used), behind, by simp,
        hnodes ▸ .conditional ht hk hes hc htag hbs hused, hbehind⟩
  | @loop k name sep keyword _ inner _ e nodes ht hk hname hsep he hinner =>
      obtain ⟨ns, used, behind, hnodes, rfl, hused, hbehind⟩ := hnode h
      obtain ⟨es, c, rfl, hes, hc⟩ := derives_of_readBlockEnd he
      obtain ⟨bs, tag, rfl, hbs, htag⟩ := (hbody _ _ _ _ hinner).of_endTag
      exact ⟨t :: k :: name :: sep :: es ++ c :: (bs ++ tag ++ used), behind, by simp,
        hnodes ▸ .loop ht hk hname hsep hes hc htag hbs hused, hbehind⟩
  | @endTag k c _ ht hk hc =>
      cases h
      exact ⟨[], t :: k :: c :: left, rfl, .nil, .endTag ht hk hc⟩

/-- Sections of one level, given what the bodies in them span. -/
theorem spans_of_readNodes_level {levels : Nat}
    (hbody : ∀ opener inner nodes keyword after,
      readEnclosed levels opener inner = .accepted ⟨nodes, some keyword⟩ after →
        Spans inner ⟨nodes, some keyword⟩ after) :
    ∀ (bound : Nat) {tokens rest : List Token} {s : Section}, tokens.length ≤ bound →
      readNodes levels tokens = .accepted s rest → Spans tokens s rest := by
  intro bound
  induction bound with
  | zero =>
      intro tokens rest s hlen h
      obtain rfl : tokens = [] := List.length_eq_zero_iff.mp (by omega)
      rw [readNodes_nil] at h
      cases h
      exact ⟨[], [], rfl, .nil, .atEnd⟩
  | succ bound ih =>
      intro tokens rest s hlen h
      cases tokens with
      | nil =>
          rw [readNodes_nil] at h
          cases h
          exact ⟨[], [], rfl, .nil, .atEnd⟩
      | cons t more =>
          rw [readNodes_cons] at h
          obtain ⟨found, left, hitem, hgo⟩ := Outcome.andThen_eq_accepted_iff.mp h
          have hsuffix := leavesSuffix_readItem levels (leavesSuffix_readEnclosed levels) t more
          rw [hitem] at hsuffix
          have hleft : left.length ≤ more.length := hsuffix.length_le
          have hlen' : left.length ≤ bound := by
            simp only [List.length_cons] at hlen
            omega
          exact spans_of_leads (readItem_eq_accepted_iff.mp hitem)
            (fun inner nodes keyword after => hbody t inner nodes keyword after)
            (fun _ hread => ih hlen' hread) hgo

/-- **Soundness.** The nodes that are read derive from the tokens up to the end of the section. -/
theorem spans_of_readNodes {levels : Nat} {tokens rest : List Token} {s : Section}
    (h : readNodes levels tokens = .accepted s rest) : Spans tokens s rest := by
  induction levels generalizing tokens rest s with
  | zero =>
      have hbody : ∀ opener inner nodes keyword after,
          readEnclosed 0 opener inner = .accepted ⟨nodes, some keyword⟩ after →
            Spans inner ⟨nodes, some keyword⟩ after := by
        intro opener inner nodes keyword after h
        cases h
      exact spans_of_readNodes_level hbody tokens.length (Nat.le_refl _) h
  | succ levels ih =>
      have hbody : ∀ opener inner nodes keyword after,
          readEnclosed (levels + 1) opener inner = .accepted ⟨nodes, some keyword⟩ after →
            Spans inner ⟨nodes, some keyword⟩ after := by
        intro opener inner nodes keyword after h
        exact ih h
      exact spans_of_readNodes_level hbody tokens.length (Nat.le_refl _) h

end Template

end TemplateLang

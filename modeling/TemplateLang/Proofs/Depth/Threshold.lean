import TemplateLang.Proofs.Grammar.Nodes

/-!
# TemplateLang.Proofs.Depth.Threshold — the least limit under which a template compiles

Two things take levels in a template. A body takes one for itself, and what stands in it, bodies and
expressions alike, has one level less; an expression takes, for as long as it is read, the levels
that it needs. The condition of a conditional and the items of a loop are read before the body takes
its level, so they stand at the depth outside it. A derivation of a template shows both: at which
depths its bodies are nested (`bodyDepths`), and at which depth each expression stands, with its
need (`expressions`).

Main statement (`readTemplate_ok_iff_within`): what derives a template is read under a limit exactly
if no body is nested deeper than the limit and every expression has, at its depth, the levels that
it needs; and otherwise reading fails because the nesting exceeds that very limit. It is an
induction on the derivation over nodes read at a depth: with `levels` left at `depth`, the limit is
`depth + levels`.
-/

namespace TemplateLang

open TokenReader

namespace Template

/-! ## Derivations -/

/-- **`Derivation tokens nodes`** — a derivation of the tokens from the grammar of templates, which
builds the nodes. -/
inductive Derivation : List Token → Template → Type
  | nil : Derivation [] []
  | literal {t : Token} {ts : List Token} {ns : Template} (ht : t.kind ≠ .delimiter)
      (more : Derivation ts ns) : Derivation (t :: ts) (.literal t.text :: ns)
  | stray {t : Token} {ts : List Token} {ns : Template} (ht : t.kind = .delimiter)
      (houtput : t.text ≠ "\x7b\x7b") (hstatement : t.text ≠ "\x7b%")
      (more : Derivation ts ns) : Derivation (t :: ts) ns
  | output {o c : Token} {es ts : List Token} {e : Expr} {ns : Template}
      (ho : o.Is .delimiter "\x7b\x7b") (value : Expr.Derivation 0 es e)
      (hc : c.Is .delimiter "\x7d\x7d") (more : Derivation ts ns) :
      Derivation (o :: es ++ c :: ts) (.output e :: ns)
  | assign {o k name sign c : Token} {es ts : List Token} {e : Expr} {ns : Template}
      (ho : o.Is .delimiter "\x7b%") (hk : k.Is .word "set") (hname : name.kind = .word)
      (hsign : sign.kind = .operator) (value : Expr.Derivation 0 es e)
      (hc : c.Is .delimiter "%\x7d") (more : Derivation ts ns) :
      Derivation (o :: k :: name :: sign :: es ++ c :: ts) (.assign name.text sign.text e :: ns)
  | conditional {o k c : Token} {es bs tag ts : List Token} {e : Expr} {nodes ns : Template}
      (ho : o.Is .delimiter "\x7b%") (hk : k.Is .word "if") (condition : Expr.Derivation 0 es e)
      (hc : c.Is .delimiter "%\x7d") (htag : EndTag tag) (body : Derivation bs nodes)
      (more : Derivation ts ns) :
      Derivation (o :: k :: es ++ c :: (bs ++ tag ++ ts)) (.conditional e nodes :: ns)
  | loop {o k name sep c : Token} {es bs tag ts : List Token} {e : Expr} {nodes ns : Template}
      (ho : o.Is .delimiter "\x7b%") (hk : k.Is .word "for") (hname : name.kind = .word)
      (hsep : sep.Is .word "in") (items : Expr.Derivation 0 es e)
      (hc : c.Is .delimiter "%\x7d") (htag : EndTag tag) (body : Derivation bs nodes)
      (more : Derivation ts ns) :
      Derivation (o :: k :: name :: sep :: es ++ c :: (bs ++ tag ++ ts))
        (.loop name.text e nodes :: ns)

theorem Derivation.derives {ts : List Token} {ns : Template} (d : Derivation ts ns) :
    Derives ts ns := by
  induction d with
  | nil => exact .nil
  | literal ht _ ih => exact .literal ht ih
  | stray ht houtput hstatement _ ih => exact .stray ht houtput hstatement ih
  | output ho value hc _ ih => exact .output ho value.derives hc ih
  | assign ho hk hname hsign value hc _ ih =>
      exact .assign ho hk hname hsign value.derives hc ih
  | conditional ho hk condition hc htag _ _ ihbody ih =>
      exact .conditional ho hk condition.derives hc htag ihbody ih
  | loop ho hk hname hsep items hc htag _ _ ihbody ih =>
      exact .loop ho hk hname hsep items.derives hc htag ihbody ih

theorem Derives.nonempty_derivation {ts : List Token} {ns : Template} (h : Derives ts ns) :
    Nonempty (Derivation ts ns) := by
  have hexpr {es : List Token} {e : Expr} (he : Expr.Derives .comparison es e) :
      Nonempty (Expr.Derivation 0 es e) := Expr.nonempty_derivation_iff.mpr he
  induction h with
  | nil => exact ⟨.nil⟩
  | literal ht _ ih =>
      obtain ⟨more⟩ := ih
      exact ⟨.literal ht more⟩
  | stray ht houtput hstatement _ ih =>
      obtain ⟨more⟩ := ih
      exact ⟨.stray ht houtput hstatement more⟩
  | output ho he hc _ ih =>
      obtain ⟨value⟩ := hexpr he
      obtain ⟨more⟩ := ih
      exact ⟨.output ho value hc more⟩
  | assign ho hk hname hsign he hc _ ih =>
      obtain ⟨value⟩ := hexpr he
      obtain ⟨more⟩ := ih
      exact ⟨.assign ho hk hname hsign value hc more⟩
  | conditional ho hk he hc htag _ _ ihbody ih =>
      obtain ⟨condition⟩ := hexpr he
      obtain ⟨body⟩ := ihbody
      obtain ⟨more⟩ := ih
      exact ⟨.conditional ho hk condition hc htag body more⟩
  | loop ho hk hname hsep he hc htag _ _ ihbody ih =>
      obtain ⟨items⟩ := hexpr he
      obtain ⟨body⟩ := ihbody
      obtain ⟨more⟩ := ih
      exact ⟨.loop ho hk hname hsep items hc htag body more⟩

/-- **Derivations are what the grammar derives.** -/
theorem nonempty_derivation_iff {ts : List Token} {ns : Template} :
    Nonempty (Derivation ts ns) ↔ Derives ts ns := by
  constructor
  · rintro ⟨d⟩
    exact d.derives
  · exact Derives.nonempty_derivation

/-! ## What stands how deep -/

namespace Derivation

/-- The depths of all bodies, where the nodes stand at `depth`. -/
def bodyDepths {ts : List Token} {ns : Template} (depth : Nat) : Derivation ts ns → List Nat
  | .nil => []
  | .literal _ more => more.bodyDepths depth
  | .stray _ _ _ more => more.bodyDepths depth
  | .output _ _ _ more => more.bodyDepths depth
  | .assign _ _ _ _ _ _ more => more.bodyDepths depth
  | .conditional _ _ _ _ _ body more =>
      (depth + 1) :: body.bodyDepths (depth + 1) ++ more.bodyDepths depth
  | .loop _ _ _ _ _ _ _ body more =>
      (depth + 1) :: body.bodyDepths (depth + 1) ++ more.bodyDepths depth

/-- The depths of all expressions, each with its need, where the nodes stand at `depth`. -/
def expressions {ts : List Token} {ns : Template} (depth : Nat) :
    Derivation ts ns → List (Nat × Nat)
  | .nil => []
  | .literal _ more => more.expressions depth
  | .stray _ _ _ more => more.expressions depth
  | .output _ value _ more => (depth, value.need) :: more.expressions depth
  | .assign _ _ _ _ value _ more => (depth, value.need) :: more.expressions depth
  | .conditional _ _ condition _ _ body more =>
      (depth, condition.need) :: body.expressions (depth + 1) ++ more.expressions depth
  | .loop _ _ _ _ items _ _ body more =>
      (depth, items.need) :: body.expressions (depth + 1) ++ more.expressions depth

end Derivation

/-- **`Fit bodies expressions limit`** — no body is nested deeper than the limit, and every
expression has, at its depth, the levels that it needs. -/
structure Fit (bodies : List Nat) (expressions : List (Nat × Nat)) (limit : Nat) : Prop where
  bodies : ∀ depth ∈ bodies, depth ≤ limit
  expressions : ∀ standing ∈ expressions, standing.1 + standing.2 ≤ limit

section Fit

variable {bodies more : List Nat} {exprs further : List (Nat × Nat)} {depth need limit : Nat}

theorem fit_nil : Fit [] [] limit := ⟨nofun, nofun⟩

theorem fit_expression_iff :
    Fit bodies ((depth, need) :: exprs) limit ↔
      depth + need ≤ limit ∧ Fit bodies exprs limit := by
  constructor
  · rintro ⟨hbodies, hexprs⟩
    obtain ⟨hneed, hrest⟩ := List.forall_mem_cons.mp hexprs
    exact ⟨hneed, hbodies, hrest⟩
  · rintro ⟨hneed, hbodies, hexprs⟩
    exact ⟨hbodies, List.forall_mem_cons.mpr ⟨hneed, hexprs⟩⟩

theorem fit_body_iff :
    Fit (depth :: bodies) exprs limit ↔ depth ≤ limit ∧ Fit bodies exprs limit := by
  constructor
  · rintro ⟨hbodies, hexprs⟩
    obtain ⟨hdepth, hrest⟩ := List.forall_mem_cons.mp hbodies
    exact ⟨hdepth, hrest, hexprs⟩
  · rintro ⟨hdepth, hbodies, hexprs⟩
    exact ⟨List.forall_mem_cons.mpr ⟨hdepth, hbodies⟩, hexprs⟩

theorem fit_append_iff :
    Fit (bodies ++ more) (exprs ++ further) limit ↔
      Fit bodies exprs limit ∧ Fit more further limit := by
  constructor
  · rintro ⟨hbodies, hexprs⟩
    obtain ⟨hb, hm⟩ := List.forall_mem_append.mp hbodies
    obtain ⟨he, hf⟩ := List.forall_mem_append.mp hexprs
    exact ⟨⟨hb, he⟩, hm, hf⟩
  · rintro ⟨⟨hb, he⟩, hm, hf⟩
    exact ⟨List.forall_mem_append.mpr ⟨hb, hm⟩, List.forall_mem_append.mpr ⟨he, hf⟩⟩

/-- A block with a body: its expression, the body, and what follows the block. -/
theorem fit_block_iff {body : Nat} :
    Fit (body :: bodies ++ more) ((depth, need) :: exprs ++ further) limit ↔
      (depth + need ≤ limit ∧ body ≤ limit ∧ Fit bodies exprs limit) ∧
        Fit more further limit := by
  rw [fit_append_iff, fit_expression_iff, fit_body_iff]

end Fit

/-- **`d.Within depth limit`** — what the derivation nests, with its nodes at `depth`, fits. -/
def Derivation.Within {ts : List Token} {ns : Template} (d : Derivation ts ns)
    (depth limit : Nat) : Prop :=
  Fit (d.bodyDepths depth) (d.expressions depth) limit

/-- What the levels decide about the tokens of a derivation: with its nodes at some depth, the limit
is the levels that are left above that depth. -/
def Derivation.ReadsWhereFit {used : List Token} {ns : Template} (d : Derivation used ns) : Prop :=
  ∀ depth levels rest, (readNodes levels (used ++ rest)).Decided (d.Within depth (depth + levels))
    (prepend ns (readNodes levels rest))

/-! ## Blocks -/

section Blocks

variable {levels depth : Nat} {es bs tag rest : List Token} {e : Expr} {c : Token}
  {nodes : List Node}

/-- The closer of a block is no operator, so the levels decide about an expression in front of
it. -/
theorem decided_read_of_closer {text : String} (d : Expr.Derivation 0 es e)
    (hc : c.Is .delimiter text) :
    (Expr.read levels 0 (es ++ c :: rest)).Decided (depth + d.need ≤ depth + levels)
      (.accepted e (c :: rest)) :=
  (d.decided_read (Expr.stops_of_ne_symbol hc (Or.inl nofun)) levels).congr
    Nat.add_le_add_iff_left.symm

theorem decided_readBlockEnd (d : Expr.Derivation 0 es e) (hc : c.Is .delimiter "%\x7d") :
    (readBlockEnd levels (es ++ c :: rest)).Decided (depth + d.need ≤ depth + levels)
      (.accepted e rest) := by
  apply (decided_read_of_closer d hc).followed
  show (expectBlockEnd .statement (c :: rest)).andThen _ = _
  rw [expectBlockEnd_cons hc]
  rfl

/-- A body takes a level, and its nodes are read with those below it. -/
theorem decided_readBody_enclosed {body : Derivation bs nodes} (hbody : body.ReadsWhereFit)
    (htag : EndTag tag) (opener keyword : Token) :
    (readBody (readEnclosed levels opener) opener keyword (bs ++ tag ++ rest)).Decided
      (depth + 1 ≤ depth + levels ∧ body.Within (depth + 1) (depth + levels))
      (.accepted nodes rest) := by
  cases levels with
  | zero =>
      have hnot : ¬ (depth + 1 ≤ depth + 0 ∧ body.Within (depth + 1) (depth + 0)) := by
        rintro ⟨hlevel, _⟩
        omega
      exact Outcome.decided_tooDeep hnot ⟨opener, _, rfl⟩ _
  | succ inner =>
      obtain ⟨closing, hclosing⟩ := readNodes_endTag htag inner rest
      have hread := hbody (depth + 1) inner (tag ++ rest)
      rw [hclosing, prepend_accepted, List.append_nil, ← List.append_assoc] at hread
      have hlimit : depth + 1 + inner = depth + (inner + 1) := by omega
      rw [hlimit] at hread
      have henclosed : (readBody (readEnclosed (inner + 1) opener) opener keyword
          (bs ++ tag ++ rest)).Decided (body.Within (depth + 1) (depth + (inner + 1)))
            (.accepted nodes rest) := hread.followed rfl
      exact henclosed.congr ⟨fun h => ⟨by omega, h⟩, And.right⟩

/-- The expression of a block, read at the depth outside its body, and the body behind it. -/
theorem decided_block (make : Expr → List Node → Node) (d : Expr.Derivation 0 es e)
    (hc : c.Is .delimiter "%\x7d") {body : Derivation bs nodes} (hbody : body.ReadsWhereFit)
    (htag : EndTag tag) (opener keyword : Token) :
    ((readBlockEnd levels (es ++ c :: (bs ++ tag ++ rest))).andThen fun e left =>
      (readBody (readEnclosed levels opener) opener keyword left).andThen fun nodes left =>
        .accepted (make e nodes) left).Decided
          (depth + d.need ≤ depth + levels ∧
            depth + 1 ≤ depth + levels ∧ body.Within (depth + 1) (depth + levels))
          (.accepted (make e nodes) rest) := by
  apply (decided_readBlockEnd d hc).step
  intro _
  exact (decided_readBody_enclosed hbody htag opener keyword).followed rfl

end Blocks

/-! ## Nodes -/

/-- A token and the rest of its block come out as a node, in front of what the levels decide. -/
theorem decided_cons {levels : Nat} {t : Token} {block left : List Token} {n : Node}
    {ns : List Node} {enough further : Prop} {rest : Outcome Section}
    (hitem : (readItem levels (readEnclosed levels) t (block ++ left)).Decided enough
      (.accepted (.node n) left))
    (hmore : (readNodes levels left).Decided further (prepend ns rest)) :
    (readNodes levels (t :: (block ++ left))).Decided (enough ∧ further)
      (prepend (n :: ns) rest) := by
  rw [readNodes_cons]
  apply hitem.step
  intro _
  have hnode : (prepend [n] (readNodes levels left)).Decided further
      (prepend [n] (prepend ns rest)) := hmore.andThen _
  rwa [prepend_prepend] at hnode

/-- **A derivation is read exactly where it fits.** -/
theorem Derivation.readsWhereFit {used : List Token} {ns : Template} (d : Derivation used ns) :
    d.ReadsWhereFit := by
  induction d with
  | nil =>
      intro depth levels rest
      rw [List.nil_append, prepend_nil]
      exact Outcome.decided_self fit_nil _
  | @literal t ts ns ht more ih =>
      intro depth levels rest
      have hitem : (readItem levels (readEnclosed levels) t ([] ++ (ts ++ rest))).Decided True
          (.accepted (.node (.literal t.text)) (ts ++ rest)) := by
        rw [List.nil_append, readItem_literal ht]
        exact Outcome.decided_self trivial _
      exact (decided_cons hitem (ih depth levels rest)).congr (iff_of_eq (true_and _))
  | @stray t ts ns ht houtput hstatement more ih =>
      intro depth levels rest
      rw [List.cons_append, readNodes_cons, readItem_stray ht houtput hstatement]
      exact ih depth levels rest
  | @output o c es ts e ns ho value hc more ih =>
      intro depth levels rest
      have hitem : (readItem levels (readEnclosed levels) o (es ++ [c] ++ (ts ++ rest))).Decided
          (depth + value.need ≤ depth + levels)
          (.accepted (.node (.output e)) (ts ++ rest)) := by
        rw [List.append_assoc, List.singleton_append, readItem_output ho]
        apply (decided_read_of_closer value hc).followed
        rw [expectBlockEnd_cons hc]
        rfl
      have hblock : o :: es ++ c :: ts ++ rest =
          o :: (es ++ [c] ++ (ts ++ rest)) := by simp
      rw [hblock]
      exact (decided_cons hitem (ih depth levels rest)).congr fit_expression_iff.symm
  | @assign o k name sign c es ts e ns ho hk hname hsign value hc more ih =>
      intro depth levels rest
      have hitem : (readItem levels (readEnclosed levels) o
          (k :: name :: sign :: (es ++ [c]) ++ (ts ++ rest))).Decided
            (depth + value.need ≤ depth + levels)
            (.accepted (.node (.assign name.text sign.text e)) (ts ++ rest)) := by
        have hsplit : k :: name :: sign :: (es ++ [c]) ++ (ts ++ rest) =
            k :: name :: sign :: (es ++ c :: (ts ++ rest)) := by simp
        rw [hsplit, readItem_statement ho, readStatement_set hk, readAssignment_cons hname hsign]
        exact ((decided_readBlockEnd value hc).andThen _).andThen _
      have hblock : o :: k :: name :: sign :: es ++ c :: ts ++ rest =
          o :: (k :: name :: sign :: (es ++ [c]) ++ (ts ++ rest)) := by simp
      rw [hblock]
      exact (decided_cons hitem (ih depth levels rest)).congr fit_expression_iff.symm
  | @conditional o k c es bs tag ts e nodes ns ho hk condition hc htag body more ihbody ih =>
      intro depth levels rest
      have hitem : (readItem levels (readEnclosed levels) o
          (k :: (es ++ c :: (bs ++ tag)) ++ (ts ++ rest))).Decided
            (depth + condition.need ≤ depth + levels ∧
              depth + 1 ≤ depth + levels ∧ body.Within (depth + 1) (depth + levels))
            (.accepted (.node (.conditional e nodes)) (ts ++ rest)) := by
        have hsplit : k :: (es ++ c :: (bs ++ tag)) ++ (ts ++ rest) =
            k :: (es ++ c :: (bs ++ tag ++ (ts ++ rest))) := by simp
        rw [hsplit, readItem_statement ho, readStatement_if hk, readConditional_apply]
        exact (decided_block .conditional condition hc ihbody htag o k).followed rfl
      have hblock : o :: k :: es ++ c :: (bs ++ tag ++ ts) ++ rest =
          o :: (k :: (es ++ c :: (bs ++ tag)) ++ (ts ++ rest)) := by simp
      rw [hblock]
      exact (decided_cons hitem (ih depth levels rest)).congr fit_block_iff.symm
  | @loop o k name sep c es bs tag ts e nodes ns ho hk hname hsep items hc htag body more ihbody
      ih =>
      intro depth levels rest
      have hitem : (readItem levels (readEnclosed levels) o
          (k :: name :: sep :: (es ++ c :: (bs ++ tag)) ++ (ts ++ rest))).Decided
            (depth + items.need ≤ depth + levels ∧
              depth + 1 ≤ depth + levels ∧ body.Within (depth + 1) (depth + levels))
            (.accepted (.node (.loop name.text e nodes)) (ts ++ rest)) := by
        have hsplit : k :: name :: sep :: (es ++ c :: (bs ++ tag)) ++ (ts ++ rest) =
            k :: name :: sep :: (es ++ c :: (bs ++ tag ++ (ts ++ rest))) := by simp
        rw [hsplit, readItem_statement ho, readStatement_for hk, readLoop_cons hname hsep]
        exact (decided_block (.loop name.text) items hc ihbody htag o k).followed rfl
      have hblock : o :: k :: name :: sep :: es ++ c :: (bs ++ tag ++ ts) ++ rest =
          o :: (k :: name :: sep :: (es ++ c :: (bs ++ tag)) ++ (ts ++ rest)) := by simp
      rw [hblock]
      exact (decided_cons hitem (ih depth levels rest)).congr fit_block_iff.symm

/-- **The limit decides** whether what derives a template is read as it. -/
theorem Derivation.decided_read {tokens : List Token} {nodes : Template}
    (d : Derivation tokens nodes) (limit : Nat) :
    (read limit tokens).Decided (d.Within 0 limit) (.accepted nodes []) := by
  have hread := d.readsWhereFit 0 limit []
  rw [readNodes_nil, prepend_accepted, List.append_nil, List.append_nil, Nat.zero_add] at hread
  exact hread.followed rfl

end Template

/-! ## Streams -/

namespace TokenStream

/-- **The exact threshold.** What derives a template is read under a limit exactly if no body is
nested deeper than the limit and every expression, at the depth where it stands, needs no more
levels than are left there. Otherwise reading fails because the nesting exceeds that limit. -/
theorem readTemplate_ok_iff_within (options : Options) (s : TokenStream) (nodes : Template)
    (h : Template.Derives s.remaining nodes) :
    Nonempty (Template.Derivation s.remaining nodes) ∧
      ∀ d : Template.Derivation s.remaining nodes,
        ((∃ compiled, (s.readTemplate options).1 = .ok compiled) ↔ d.Within 0 options.maxDepth) ∧
          (d.Within 0 options.maxDepth → (s.readTemplate options).1 = .ok nodes) ∧
          (¬ d.Within 0 options.maxDepth → ∃ span, (s.readTemplate options).1 =
            .error (.located (.nestingTooDeep options.maxDepth) span s.source)) := by
  refine ⟨Template.nonempty_derivation_iff.mpr h, fun d => ?_⟩
  have hdecided := d.decided_read options.maxDepth
  have hok (hwithin : d.Within 0 options.maxDepth) : (s.readTemplate options).1 = .ok nodes := by
    unfold readTemplate read
    rw [hdecided.eq_of_enough hwithin]
  have herror (hnot : ¬ d.Within 0 options.maxDepth) : ∃ span, (s.readTemplate options).1 =
      .error (.located (.nestingTooDeep options.maxDepth) span s.source) := by
    obtain ⟨place, rest, ho⟩ := hdecided.tooDeep_of_not hnot
    unfold readTemplate read
    rw [ho]
    exact ⟨place.span, rfl⟩
  refine ⟨⟨?_, fun hwithin => ⟨nodes, hok hwithin⟩⟩, hok, herror⟩
  rintro ⟨compiled, hcompiled⟩
  by_cases hwithin : d.Within 0 options.maxDepth
  · exact hwithin
  · obtain ⟨span, hspan⟩ := herror hwithin
    rw [hspan] at hcompiled
    cases hcompiled

/-- The tokens of `{% if a %}{{ ( b ) + c * d }}{% endif %}`. -/
def guardedStream : TokenStream where
  source := ⟨"template", "\x7b% if a %\x7d\x7b\x7b ( b ) + c * d \x7d\x7d\x7b% endif %\x7d"⟩
  tokens :=
    [⟨.delimiter, "\x7b%", 0⟩, ⟨.word, "if", 3⟩, ⟨.word, "a", 6⟩, ⟨.delimiter, "%\x7d", 8⟩,
      ⟨.delimiter, "\x7b\x7b", 10⟩, ⟨.operator, "(", 13⟩, ⟨.word, "b", 15⟩,
      ⟨.operator, ")", 17⟩, ⟨.operator, "+", 19⟩, ⟨.word, "c", 21⟩, ⟨.operator, "*", 23⟩,
      ⟨.word, "d", 25⟩, ⟨.delimiter, "\x7d\x7d", 27⟩,
      ⟨.delimiter, "\x7b%", 29⟩, ⟨.word, "endif", 32⟩, ⟨.delimiter, "%\x7d", 38⟩]
  position := 0
  tokens_ne_nil := by decide
  position_le := by decide

/-- The tree of `( b ) + c * d`. -/
def guardedTree : Expr :=
  .binary .add (.leaf ⟨.word, "b", 15⟩)
    (.binary .multiply (.leaf ⟨.word, "c", 21⟩) (.leaf ⟨.word, "d", 25⟩))

/-- The derivation of `( b ) + c * d`: the group needs one level, and the product, behind the
operator in front of it, two. -/
def guardedValue : Expr.Derivation 0
    [⟨.operator, "(", 13⟩, ⟨.word, "b", 15⟩, ⟨.operator, ")", 17⟩, ⟨.operator, "+", 19⟩,
      ⟨.word, "c", 21⟩, ⟨.operator, "*", 23⟩, ⟨.word, "d", 25⟩] guardedTree :=
  let sum : Expr.Derivation 1 _ _ :=
    @Expr.Derivation.group 1 ⟨.operator, "(", 13⟩ ⟨.operator, ")", 17⟩ _ _ ⟨rfl, rfl⟩
      (.leaf (t := ⟨.word, "b", 15⟩) (Or.inl rfl)) ⟨rfl, rfl⟩
  let product : Expr.Derivation 2 _ _ :=
    @Expr.Derivation.binary 2 .multiply _ _ ⟨.operator, "*", 23⟩ _ _ (Nat.le_refl 2)
      (.leaf (t := ⟨.word, "c", 21⟩) (Or.inl rfl)) ⟨rfl, rfl⟩
      (.leaf (t := ⟨.word, "d", 25⟩) (Or.inl rfl))
  @Expr.Derivation.binary 0 .add _ _ ⟨.operator, "+", 19⟩ _ _ (Nat.zero_le 1) sum ⟨rfl, rfl⟩ product

/-- The conditional, with the output in its body. -/
def guardedNodes : Template :=
  [.conditional (.leaf ⟨.word, "a", 6⟩) [.output guardedTree]]

/-- The derivation of the whole: the output stands one deep, behind the opener of its block. -/
def guardedDerivation : Template.Derivation guardedStream.remaining guardedNodes :=
  @Template.Derivation.conditional ⟨.delimiter, "\x7b%", 0⟩ ⟨.word, "if", 3⟩
    ⟨.delimiter, "%\x7d", 8⟩ _ _ _ _ _ _ _ ⟨rfl, rfl⟩ ⟨rfl, rfl⟩
    (.leaf (t := ⟨.word, "a", 6⟩) (Or.inl rfl)) ⟨rfl, rfl⟩
    (.mk (o := ⟨.delimiter, "\x7b%", 29⟩) (k := ⟨.word, "endif", 32⟩)
      (c := ⟨.delimiter, "%\x7d", 38⟩) ⟨rfl, rfl⟩ ⟨rfl, by decide⟩ ⟨rfl, rfl⟩)
    (@Template.Derivation.output ⟨.delimiter, "\x7b\x7b", 10⟩ ⟨.delimiter, "\x7d\x7d", 27⟩
      _ _ _ _ ⟨rfl, rfl⟩ guardedValue ⟨rfl, rfl⟩ .nil) .nil

/-- The output stands one deep and needs two levels: three are enough, and two are not. -/
theorem guardedStream_threshold :
    Template.Derives guardedStream.remaining guardedNodes ∧
      (guardedStream.readTemplate ⟨3, "template"⟩).1 = .ok guardedNodes ∧
      ∃ span, (guardedStream.readTemplate ⟨2, "template"⟩).1 =
        .error (.located (.nestingTooDeep 2) span guardedStream.source) := by
  have hderives := guardedDerivation.derives
  obtain ⟨_, hthree⟩ :=
    readTemplate_ok_iff_within ⟨3, "template"⟩ guardedStream guardedNodes hderives
  obtain ⟨_, htwo⟩ :=
    readTemplate_ok_iff_within ⟨2, "template"⟩ guardedStream guardedNodes hderives
  have hwithin : guardedDerivation.Within 0 3 := ⟨by decide, by decide⟩
  have hnot : ¬ guardedDerivation.Within 0 2 := fun h => absurd h.expressions (by decide)
  exact ⟨hderives, (hthree guardedDerivation).2.1 hwithin, (htwo guardedDerivation).2.2 hnot⟩

end TokenStream

end TemplateLang

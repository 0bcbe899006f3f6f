import TemplateLang.Proofs.Entry
import TemplateLang.Proofs.Grammar.Template
import TemplateLang.Proofs.Printing
import TemplateLang.Proofs.Relocation
import TemplateLang.Proofs.Scan.Spacing

/-!
# TemplateLang.Proofs.Depth.Height — how high trees get under a depth limit

The depth limit is there to bound the trees that a renderer walks down, but it does not bound their
height. A group gives its level back before the operators behind it are counted, so the heights of
groups on the left edge add up: behind a group that needs `n` levels there is room for `n + 1`
operators under a limit of `n + 1`, each of them above the group. What a limit of `n` allows is the
`n`-th triangular number.

Main statement (`compileTemplate_height`): in a compiled template no body is nested deeper than the
limit, an expression at the depth `b` has no more operators on a path than the triangular number of
the levels left there, and under every limit some template comes up to this number. The bound is an
induction on the derivation (`Derivation.branch_le`) in which the operators on the left edge are
counted apart, and the texts that attain it are towers: `( … ) + a + … + a` around the next lower
one.
-/

namespace TemplateLang

open TokenReader

/-! ## Triangular numbers -/

/-- The sum of the numbers up to `n`. -/
def triangle (n : Nat) : Nat :=
  n * (n + 1) / 2

theorem triangle_succ (n : Nat) : triangle (n + 1) = triangle n + (n + 1) := by
  have hsplit : (n + 1) * (n + 1 + 1) = n * (n + 1) + (n + 1) * 2 := by
    simp only [Nat.add_mul, Nat.mul_add]
    omega
  unfold triangle
  rw [hsplit, Nat.add_mul_div_right _ _ (by decide)]

theorem triangle_mono {m n : Nat} (h : m ≤ n) : triangle m ≤ triangle n :=
  Nat.div_le_div_right (Nat.mul_le_mul h (Nat.succ_le_succ h))

/-! ## Paths in an expression -/

namespace Expr

/-- **`e.Branch n`** — a path from the root of the tree to one of its leaves goes through `n`
operators. -/
inductive Branch : Expr → Nat → Prop
  | leaf (t : Token) : Branch (.leaf t) 0
  | left {op : Operator} {l r : Expr} {n : Nat} : Branch l n → Branch (.binary op l r) (n + 1)
  | right {op : Operator} {l r : Expr} {n : Nat} : Branch r n → Branch (.binary op l r) (n + 1)

/-- The paths of a tree do not depend on its tokens. -/
theorem branch_mapTokens_iff {f : Token → Token} {e : Expr} {n : Nat} :
    (e.mapTokens f).Branch n ↔ e.Branch n := by
  induction e generalizing n with
  | leaf t =>
      constructor
      · intro h
        cases h
        exact .leaf t
      · intro h
        cases h
        exact .leaf (f t)
  | binary op l r ihl ihr =>
      constructor
      · intro h
        cases h with
        | left h => exact .left (ihl.mp h)
        | right h => exact .right (ihr.mp h)
      · intro h
        cases h with
        | left h => exact .left (ihl.mpr h)
        | right h => exact .right (ihr.mpr h)

namespace Derivation

variable {p : Nat} {ts : List Token} {e : Expr}

/-- The operators on the left edge are no more than the level that the bound leaves out. -/
theorem spine_add_triangle_le (d : Derivation p ts e) :
    d.spine + triangle (d.need - 1) ≤ triangle d.need := by
  have hspine := d.spine_le_need
  cases hneed : d.need with
  | zero =>
      show d.spine + triangle 0 ≤ triangle 0
      omega
  | succ n =>
      rw [triangle_succ, Nat.add_sub_cancel]
      omega

/-- A path goes through the operators on the left edge, and leaves them for something that needs a
level less. -/
theorem branch_le (d : Derivation p ts e) {n : Nat} (h : e.Branch n) :
    n ≤ d.spine + triangle (d.need - 1) := by
  induction d generalizing n with
  | leaf ht =>
      cases h
      exact Nat.zero_le _
  | group ho inner hc ih =>
      show n ≤ 0 + triangle (1 + inner.need - 1)
      rw [Nat.zero_add, Nat.add_sub_cancel_left]
      exact Nat.le_trans (ih h) inner.spine_add_triangle_le
  | opener ho inner ih =>
      show n ≤ 0 + triangle (1 + inner.need - 1)
      rw [Nat.zero_add, Nat.add_sub_cancel_left]
      exact Nat.le_trans (ih h) inner.spine_add_triangle_le
  | binary hp left ho right ihl ihr =>
      show n ≤ left.spine + 1 + triangle (max left.need (left.spine + 1 + right.need) - 1)
      cases h with
      | left h =>
          have hn := ihl h
          have hmono : triangle (left.need - 1) ≤
              triangle (max left.need (left.spine + 1 + right.need) - 1) :=
            triangle_mono (by omega)
          omega
      | right h =>
          have hn := Nat.le_trans (ihr h) right.spine_add_triangle_le
          have hmono : triangle right.need ≤
              triangle (max left.need (left.spine + 1 + right.need) - 1) :=
            triangle_mono (by omega)
          omega

/-- **What needs `n` levels has no more than the `n`-th triangular number of operators on a
path.** -/
theorem branch_le_triangle (d : Derivation p ts e) {n : Nat} (h : e.Branch n) :
    n ≤ triangle d.need :=
  Nat.le_trans (d.branch_le h) d.spine_add_triangle_le

end Derivation

end Expr

/-! ## Bodies in a template -/

/-- The expression of a node, if it has one. -/
def Node.expr? : Node → Option Expr
  | .literal _ => none
  | .output value => some value
  | .assign _ _ value => some value
  | .conditional condition _ => some condition
  | .loop _ items _ => some items

/-- The body of a node, if it has one. -/
def Node.body? : Node → Option Template
  | .literal _ => none
  | .output _ => none
  | .assign _ _ _ => none
  | .conditional _ body => some body
  | .loop _ _ body => some body

namespace Template

/-- **`Encloses nodes depth inner`** — the nodes `inner` are a body in the nodes, `depth` blocks
deep; no block deep they are the nodes themselves. -/
inductive Encloses : Template → Nat → Template → Prop
  | refl (nodes : Template) : Encloses nodes 0 nodes
  | body {nodes body inner : Template} {n : Node} {depth : Nat} (hn : n ∈ nodes)
      (hbody : n.body? = some body) : Encloses body depth inner → Encloses nodes (depth + 1) inner

/-- **`StandsAt nodes depth limit`** — the nodes have a derivation that fits at the depth. -/
def StandsAt (nodes : Template) (depth limit : Nat) : Prop :=
  ∃ ts, ∃ d : Derivation ts nodes, d.Within depth limit

/-- What the limit allows a node at a depth: its expression has the levels that it needs, and its
body fits one deeper. -/
structure NodeStandsAt (n : Node) (depth limit : Nat) : Prop where
  expression : ∀ e, n.expr? = some e →
    ∃ es, ∃ d : Expr.Derivation 0 es e, depth + d.need ≤ limit
  body : ∀ nodes, n.body? = some nodes → depth + 1 ≤ limit ∧ StandsAt nodes (depth + 1) limit

section NodeStandsAt

variable {depth limit : Nat} {n : Node}

theorem nodeStandsAt_of_expr {es : List Token} {e : Expr} (hexpr : n.expr? = some e)
    (d : Expr.Derivation 0 es e) (h : depth + d.need ≤ limit)
    (hbody : ∀ nodes, n.body? = some nodes → depth + 1 ≤ limit ∧ StandsAt nodes (depth + 1) limit) :
    NodeStandsAt n depth limit := by
  refine ⟨fun e' he' => ?_, hbody⟩
  cases hexpr.symm.trans he'
  exact ⟨es, d, h⟩

/-- Every node of a derivation that fits. -/
theorem Derivation.nodeStandsAt {ts : List Token} {ns : Template} (d : Derivation ts ns)
    (h : d.Within depth limit) : ∀ n ∈ ns, NodeStandsAt n depth limit := by
  induction d generalizing depth with
  | nil => nofun
  | literal ht more ih => exact List.forall_mem_cons.mpr ⟨⟨nofun, nofun⟩, ih h⟩
  | stray ht houtput hstatement more ih => exact ih h
  | output ho value hc more ih =>
      obtain ⟨hvalue, hmore⟩ := fit_expression_iff.mp h
      exact List.forall_mem_cons.mpr ⟨nodeStandsAt_of_expr rfl value hvalue nofun, ih hmore⟩
  | assign ho hk hname hsign value hc more ih =>
      obtain ⟨hvalue, hmore⟩ := fit_expression_iff.mp h
      exact List.forall_mem_cons.mpr ⟨nodeStandsAt_of_expr rfl value hvalue nofun, ih hmore⟩
  | conditional ho hk condition hc htag body more ihbody ih =>
      obtain ⟨⟨hcondition, hdepth, hbody⟩, hmore⟩ := fit_block_iff.mp h
      refine List.forall_mem_cons.mpr ⟨nodeStandsAt_of_expr rfl condition hcondition ?_, ih hmore⟩
      rintro nodes ⟨⟩
      exact ⟨hdepth, _, body, hbody⟩
  | loop ho hk hname hsep items hc htag body more ihbody ih =>
      obtain ⟨⟨hitems, hdepth, hbody⟩, hmore⟩ := fit_block_iff.mp h
      refine List.forall_mem_cons.mpr ⟨nodeStandsAt_of_expr rfl items hitems ?_, ih hmore⟩
      rintro nodes ⟨⟩
      exact ⟨hdepth, _, body, hbody⟩

/-- A body of what fits is nested no deeper than the limit, and fits where it is. -/
theorem Encloses.standsAt {nodes inner : Template} {inside : Nat} (h : Encloses nodes inside inner)
    (hdepth : depth ≤ limit) (hstands : StandsAt nodes depth limit) :
    depth + inside ≤ limit ∧ StandsAt inner (depth + inside) limit := by
  induction h generalizing depth with
  | refl nodes => exact ⟨hdepth, hstands⟩
  | @body nodes body inner n inside hn hbody _ ih =>
      obtain ⟨ts, d, hwithin⟩ := hstands
      obtain ⟨hbelow, hinner⟩ := (d.nodeStandsAt hwithin n hn).body body hbody
      have hnext := ih hbelow hinner
      rwa [Nat.add_assoc, Nat.add_comm 1 inside] at hnext

end NodeStandsAt

/-- What is read under a limit fits it. -/
theorem standsAt_of_read {limit : Nat} {tokens rest : List Token} {nodes : Template}
    (h : read limit tokens = .accepted nodes rest) : StandsAt nodes 0 limit := by
  obtain ⟨d⟩ := (derives_of_read h).1.nonempty_derivation
  exact ⟨tokens, d, (d.decided_read limit).enough_of_accepted h⟩

/-- An expression that stands in a body has no more operators on a path than the levels left there
allow. -/
theorem StandsAt.branch_le {nodes : Template} {depth limit k : Nat} (h : StandsAt nodes depth limit)
    {n : Node} (hn : n ∈ nodes) {e : Expr} (he : n.expr? = some e) (hk : e.Branch k) :
    k ≤ triangle (limit - depth) := by
  obtain ⟨ts, d, hwithin⟩ := h
  obtain ⟨es, de, hneed⟩ := (d.nodeStandsAt hwithin n hn).expression e he
  exact Nat.le_trans (de.branch_le_triangle hk) (triangle_mono (by omega))

end Template

/-! ## Towers -/

namespace Expr

/-- A sum, with `count` times `+ a` behind the first term. -/
def sumTokens (first : List Token) : Nat → List Token
  | 0 => first
  | count + 1 => sumTokens first count ++ ⟨.operator, "+", 0⟩ :: [⟨.word, "a", 0⟩]

/-- The tree of a sum. -/
def sumTree (first : Expr) : Nat → Expr
  | 0 => first
  | count + 1 => .binary .add (sumTree first count) (.leaf ⟨.word, "a", 0⟩)

/-- The tower of height `n`: each group is the first term of a sum with as many operators as it has
storeys. -/
def towerTokens : Nat → List Token
  | 0 => [⟨.word, "a", 0⟩]
  | n + 1 =>
      sumTokens (⟨.operator, "(", 0⟩ :: towerTokens n ++ [⟨.operator, ")", 0⟩]) (n + 1)

/-- The tree of a tower. -/
def towerTree : Nat → Expr
  | 0 => .leaf ⟨.word, "a", 0⟩
  | n + 1 => sumTree (towerTree n) (n + 1)

/-! ### What a tower needs -/

/-- The derivation of a sum, from that of its first term. -/
def Derivation.sum {ts : List Token} {e : Expr} (d : Derivation 1 ts e) :
    (count : Nat) → Derivation 1 (sumTokens ts count) (sumTree e count)
  | 0 => d
  | count + 1 =>
      .binary (Nat.le_refl 1) (d.sum count) ⟨rfl, rfl⟩ (.leaf (Or.inl rfl))

/-- The derivation of a tower. -/
def tower : (n : Nat) → Derivation 1 (towerTokens n) (towerTree n)
  | 0 => .leaf (Or.inl rfl)
  | n + 1 => .sum (.group ⟨rfl, rfl⟩ ((tower n).loosen (Nat.zero_le 1)) ⟨rfl, rfl⟩) (n + 1)

section Sum

variable {ts : List Token} {e : Expr}

theorem Derivation.spine_sum (d : Derivation 1 ts e) (count : Nat) :
    (d.sum count).spine = d.spine + count := by
  induction count with
  | zero => rfl
  | succ count ih =>
      show (d.sum count).spine + 1 = _
      rw [ih, Nat.add_assoc]

theorem Derivation.need_sum (d : Derivation 1 ts e) (count : Nat) :
    (d.sum count).need = max d.need (d.spine + count) := by
  induction count with
  | zero =>
      have hspine := d.spine_le_need
      show d.need = _
      omega
  | succ count ih =>
      show max (d.sum count).need ((d.sum count).spine + 1 + 0) = _
      rw [ih, d.spine_sum]
      omega

theorem Branch.sum {n : Nat} (h : e.Branch n) (count : Nat) :
    (sumTree e count).Branch (n + count) := by
  induction count with
  | zero => exact h
  | succ count ih => exact ih.left

end Sum

theorem need_tower (n : Nat) : (tower n).need = n := by
  induction n with
  | zero => rfl
  | succ n ih =>
      have hstorey : (tower (n + 1)).need =
          max (1 + ((tower n).loosen (Nat.zero_le 1)).need) (0 + (n + 1)) :=
        Derivation.need_sum _ _
      rw [hstorey, Derivation.need_loosen, ih]
      omega

/-- **A tower is as high as its need allows.** -/
theorem branch_tower (n : Nat) : (towerTree n).Branch (triangle n) := by
  induction n with
  | zero => exact .leaf _
  | succ n ih =>
      rw [triangle_succ]
      exact ih.sum (n + 1)

/-! ### The text of a tower -/

theorem towerTokens_ne_nil (n : Nat) : towerTokens n ≠ [] := by
  cases n with
  | zero => exact List.cons_ne_nil _ _
  | succ n => exact List.append_ne_nil_of_right_ne_nil _ (List.cons_ne_nil _ _)

theorem writable_sumTokens {first : List Token} (h : ∀ t ∈ first, t.Writable) (count : Nat) :
    ∀ t ∈ sumTokens first count, t.Writable := by
  have hplus : Token.Writable ⟨.operator, "+", 0⟩ := ⟨isSign_symbol .add, by decide⟩
  have hname : Token.Writable ⟨.word, "a", 0⟩ := isName_of_isWordChar (by decide) (by decide)
  induction count with
  | zero => exact h
  | succ count ih =>
      have hterm := List.forall_mem_cons.mpr ⟨hplus, List.forall_mem_singleton.mpr hname⟩
      exact List.forall_mem_append.mpr ⟨ih, hterm⟩

theorem writable_towerTokens (n : Nat) : ∀ t ∈ towerTokens n, t.Writable := by
  have hopen : Token.Writable ⟨.operator, "(", 0⟩ := ⟨by decide, by decide⟩
  have hclose : Token.Writable ⟨.operator, ")", 0⟩ := ⟨by decide, by decide⟩
  induction n with
  | zero => exact List.forall_mem_singleton.mpr (isName_of_isWordChar (by decide) (by decide))
  | succ n ih =>
      apply writable_sumTokens
      have hclosed := List.forall_mem_append.mpr ⟨ih, List.forall_mem_singleton.mpr hclose⟩
      exact List.forall_mem_cons.mpr ⟨hopen, hclosed⟩

end Expr

/-! ## Templates under a limit -/

theorem relocates_unplaced : Relocates Token.unplaced := ⟨fun _ => rfl, fun _ => rfl⟩

/-- A template that is one output, but for the places of its tokens, is one output. -/
theorem Template.eq_output_of_unplaced_eq {nodes : Template} {e : Expr}
    (h : nodes.unplaced = unplaced [.output e]) :
    ∃ e', nodes = [.output e'] ∧ e'.unplaced = e.unplaced := by
  cases nodes with
  | nil => cases h
  | cons n more =>
      obtain ⟨hn, hmore⟩ := List.cons.inj h
      cases more with
      | cons _ _ => cases hmore
      | nil =>
          cases n with
          | output e' =>
              injection hn with he
              exact ⟨e', rfl, he⟩
          | literal text => cases hn
          | assign name sign value => cases hn
          | conditional condition body => cases hn
          | loop name items body => cases hn

/-- What an output block is read as does not depend on where its tokens are placed. -/
theorem Template.read_outputBlock {tokens placed : List Token} {e : Expr}
    (d : Expr.Derivation 0 tokens e) {opened closed : Token}
    (hopened : opened.Is .delimiter "\x7b\x7b")
    (hplaced : placed.map Token.unplaced = tokens.map Token.unplaced)
    (hclosed : closed.Is .delimiter "\x7d\x7d") :
    ∃ e', read d.need (opened :: placed ++ [closed]) = .accepted [.output e'] [] ∧
      e'.unplaced = e.unplaced := by
  have hfit : (Derivation.output hopened d hclosed .nil).Within 0 d.need :=
    fit_expression_iff.mpr ⟨by omega, fit_nil⟩
  have hread := ((Derivation.output hopened d hclosed .nil).decided_read d.need).eq_of_enough hfit
  have hmap : (opened :: placed ++ [closed]).map Token.unplaced =
      (opened :: tokens ++ [closed]).map Token.unplaced := by simp [hplaced]
  have hmoved := follows_read relocates_unplaced d.need (opened :: tokens ++ [closed])
  rw [hread, ← hmap, follows_read relocates_unplaced] at hmoved
  cases ho : read d.need (opened :: placed ++ [closed]) with
  | refused fault rest =>
      rw [ho] at hmoved
      cases hmoved
  | accepted nodes rest =>
      rw [ho] at hmoved
      injection hmoved with hnodes hrest
      obtain ⟨e', rfl, he'⟩ := eq_output_of_unplaced_eq hnodes
      obtain rfl := List.map_eq_nil_iff.mp hrest
      exact ⟨e', rfl, he'⟩

/-- **What a tree needs is enough for its output block**, whatever its text. -/
theorem compileTemplate_outputBlock {tokens : List Token} {e : Expr}
    (d : Expr.Derivation 0 tokens e) (hw : ∀ t ∈ tokens, t.Writable) {text : String}
    (h : OutputBlock tokens text.toList) (name : String) :
    ∃ e', compileTemplate text ⟨d.need, name⟩ = .ok [.output e'] ∧ e'.unplaced = e.unplaced := by
  obtain ⟨opened, placed, closed, hopened, hplaced, hclosed, hscan⟩ := h.ofText_eq hw
  obtain ⟨e', hread, he'⟩ := Template.read_outputBlock d hopened hplaced hclosed
  exact ⟨e', compileWith_of_accepted hscan (List.cons_ne_nil _ _) hread, he'⟩

/-- Under every limit some template holds a path with as many operators as the triangular number of
the limit. -/
theorem exists_compileTemplate_tower (limit : Nat) (name : String) :
    ∃ text e, compileTemplate text ⟨limit, name⟩ = .ok [.output e] ∧
      e.Branch (triangle limit) := by
  have hw := Expr.writable_towerTokens limit
  obtain ⟨cs, hcs⟩ := exists_outputBlock (Expr.towerTokens_ne_nil limit) hw
  rw [← String.toList_ofList (l := cs)] at hcs
  obtain ⟨e, hcompiled, he⟩ :=
    compileTemplate_outputBlock ((Expr.tower limit).loosen (Nat.zero_le 1)) hw hcs name
  rw [Expr.Derivation.need_loosen, Expr.need_tower] at hcompiled
  refine ⟨_, e, hcompiled, ?_⟩
  have hbranch : (Expr.towerTree limit).unplaced.Branch (triangle limit) :=
    Expr.branch_mapTokens_iff.mpr (Expr.branch_tower limit)
  rw [← he] at hbranch
  exact Expr.branch_mapTokens_iff.mp hbranch

/-- **The height of compiled trees.** In a compiled template no more bodies are nested in one
another than the limit says, and an expression that stands `depth` bodies deep has no more operators
on a path than the triangular number of the levels left there. Under every limit this is attained:
the height is bounded quadratically, and no better. -/
theorem compileTemplate_height (limit : Nat) (name : String) :
    (∀ text nodes, compileTemplate text ⟨limit, name⟩ = .ok nodes →
      ∀ depth inner, Template.Encloses nodes depth inner →
        depth ≤ limit ∧ ∀ n ∈ inner, ∀ e, n.expr? = some e → ∀ k, e.Branch k →
          k ≤ (limit - depth) * (limit - depth + 1) / 2) ∧
      ∃ text nodes e, compileTemplate text ⟨limit, name⟩ = .ok nodes ∧
        Node.output e ∈ nodes ∧ e.Branch (limit * (limit + 1) / 2) := by
  constructor
  · intro text nodes hcompiled depth inner hencloses
    rw [compileTemplate_eq_compileWith] at hcompiled
    obtain ⟨stream, left, -, hread⟩ := compileWith_eq_ok_iff.mp hcompiled
    obtain ⟨hdepth, hstands⟩ :=
      hencloses.standsAt (Nat.zero_le limit) (Template.standsAt_of_read hread)
    rw [Nat.zero_add] at hdepth hstands
    exact ⟨hdepth, fun n hn e he k hk => hstands.branch_le hn he hk⟩
  · obtain ⟨text, e, hcompiled, hbranch⟩ := exists_compileTemplate_tower limit name
    exact ⟨text, [.output e], e, hcompiled, List.mem_singleton.mpr rfl, hbranch⟩

end TemplateLang

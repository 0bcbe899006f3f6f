import TemplateLang.Proofs.Depth.Balance

/-!
# TemplateLang.Proofs.Depth.Calls — how many calls are active at once

Whatever the tokens, reading under a limit of `D` levels has at most `2 * D + 3` calls active at
once: the nodes of the outermost section, an expression in it and a primary of that, and two more
for every level in use. Main statement (`readsWithin`): with so many calls the counted reading is
never broken off and comes to the result and the cursor of the plain one. It is the balance of calls
(`Call.steady_perform`) for a counter that is a number, which never overflows, so that running out of
calls is what may break reading off.

The second half shows that no smaller bound would do (`exists_outOfCalls`): an output with as many
groups around a word as there are levels takes every one of these calls.
-/

namespace TemplateLang

open TokenReader CountedReader
open Template (Section)
open LevelCounter (toNat up)

/-! ## Streams -/

namespace TokenStream

/-- A stream is read the same by a counted reader that is steady beside the plain one. -/
theorem readCounted_of_steady {α : Type} {options : Options} {counted : CountedReader Nat α}
    {reader : Nat → TokenReader α}
    (h : Steady options.maxDepth 0 counted (reader options.maxDepth)) (s : TokenStream) :
    s.readCounted options counted = .ok (s.read options reader) := by
  obtain ⟨_, _, hrun, _⟩ := h s.remaining
  rw [readCounted, hrun, read_eq_conclude]

/-- **`2 * D + 3` calls are enough** under a limit of `D` levels, whatever the tokens. -/
theorem readsWithin (options : Options) (s : TokenStream) :
    (∀ minPrecedence,
      s.readExprWithin options (2 * options.maxDepth + 3) minPrecedence =
        .ok (s.readExpr options minPrecedence)) ∧
      s.readTemplateWithin options (2 * options.maxDepth + 3) =
        .ok (s.readTemplate options) := by
  have hlimit : toNat 0 + options.maxDepth = toNat options.maxDepth := Nat.zero_add _
  constructor
  · intro minPrecedence
    let reader (levels : Nat) : TokenReader Expr := Expr.read levels minPrecedence
    have hexpr : Steady options.maxDepth 0
        ((Call.expression minPrecedence).perform options.maxDepth (2 * options.maxDepth + 3))
        (reader options.maxDepth) :=
      Call.steady_perform _ (.expression minPrecedence) hlimit (Nat.le_succ _)
    exact readCounted_of_steady hexpr s
  · have hnodes := Call.steady_perform (2 * options.maxDepth + 3) .nodes hlimit (Nat.le_refl _)
    exact readCounted_of_steady (Call.steady_templateSteps hnodes) s

end TokenStream

/-! ## No fewer calls are enough -/

namespace CountedReader

variable {ν α : Type} {depth above : ν} {breach : Breach} {tokens : List Token}

theorem restoring_of_error {reader : CountedReader ν α} (h : reader depth tokens = .error breach) :
    restoring reader depth tokens = .error breach := by
  rw [restoring, h]

/-- Where reading is broken off inside a level it is broken off as a whole. -/
theorem enclosed_of_error [LevelCounter ν] {limit : ν} {reader : CountedReader ν α}
    (hfree : toNat depth < toNat limit) (hup : up depth = .ok above)
    (h : reader above tokens = .error breach) (t : Token) :
    enclosed limit t reader depth tokens = .error breach := by
  simp only [enclosed, bind, enter_of_lt hfree hup, thenLeave, h]

end CountedReader

/-- A parenthesis that opens a group. -/
def groupOpener : Token :=
  ⟨.operator, "(", 0⟩

/-- An output opener. -/
def outputOpener : Token :=
  ⟨.delimiter, "\x7b\x7b", 0⟩

namespace Call

variable {ν : Type} [LevelCounter ν] {limit depth : ν} {calls : Nat} {breach : Breach}
  {tokens : List Token}

theorem expression_of_primary_error {minPrecedence : Nat}
    (h : primary.perform limit calls depth tokens = .error breach) :
    (expression minPrecedence).perform limit (calls + 1) depth tokens = .error breach := by
  rw [perform, steps, expressionSteps]
  exact restoring_of_error (bind_of_error h _)

theorem primary_of_group_error
    (h : enclosed limit groupOpener ((expression 0).perform limit calls) depth tokens =
      .error breach) :
    primary.perform limit (calls + 1) depth (groupOpener :: tokens) = .error breach := by
  have hnext : next? (groupOpener :: tokens) = .accepted (some groupOpener) tokens := rfl
  rw [perform, steps, primarySteps, lift_bind_of_accepted hnext]
  dsimp only
  rw [if_neg (by decide), if_neg (by decide), if_pos (by decide)]
  exact bind_of_error h _

theorem nodes_of_output_error
    (h : (expression 0).perform limit calls depth tokens = .error breach) :
    nodes.perform limit (calls + 1) depth (outputOpener :: tokens) = .error breach := by
  have hitem (inner : CountedReader ν Section) :
      itemSteps limit ((expression 0).perform limit calls) inner outputOpener depth tokens =
        .error breach := by
    rw [itemSteps, if_neg (by decide), if_pos (by decide)]
    exact bind_of_error h _
  have hnext : next? (outputOpener :: tokens) = .accepted (some outputOpener) tokens := rfl
  rw [perform, steps, nodesSteps, List.length_cons, itemsSteps, lift_bind_of_accepted hnext]
  exact bind_of_error (hitem _) _

/-- Groups inside one another take two calls each, and none is left for the innermost primary. -/
theorem expression_outOfCalls (groups : Nat) (rest : List Token) :
    ∀ {depth : ν}, toNat depth + groups ≤ toNat limit →
      (expression 0).perform limit (2 * groups + 1) depth
          (List.replicate groups groupOpener ++ rest) =
        .error .outOfCalls := by
  induction groups with
  | zero =>
      intro depth _
      have hprimary : primary.perform limit 0 depth rest = .error .outOfCalls := rfl
      exact expression_of_primary_error hprimary
  | succ groups ih =>
      intro depth hlimit
      have hfree : toNat depth < toNat limit := by omega
      obtain ⟨above, hup⟩ := LevelCounter.exists_up_of_lt hfree
      have habove := LevelCounter.toNat_of_up hup
      have hgroup := enclosed_of_error hfree hup (ih (by omega)) groupOpener
      exact expression_of_primary_error (primary_of_group_error hgroup)

end Call

/-- An output of a word with as many groups around it as given. -/
def groupedOutput (groups : Nat) : List Token :=
  outputOpener :: (List.replicate groups groupOpener ++
    (⟨.word, "a", 0⟩ :: List.replicate groups ⟨.operator, ")", 0⟩ ++
      [⟨.delimiter, "\x7d\x7d", 0⟩]))

/-- **The bound is reached**: under every limit there is a template that `2 * D + 2` calls do not
read, an output with as many groups in it as there are levels. -/
theorem TokenStream.exists_outOfCalls (options : Options) :
    ∃ s : TokenStream,
      s.readTemplateWithin options (2 * options.maxDepth + 2) = .error .outOfCalls := by
  let s : TokenStream :=
    ⟨⟨options.name, ""⟩, groupedOutput options.maxDepth, 0, nofun, Nat.zero_le _⟩
  have hlevels : toNat 0 + options.maxDepth ≤ toNat options.maxDepth :=
    Nat.le_of_eq (Nat.zero_add _)
  have hexpr := Call.expression_outOfCalls options.maxDepth
    (⟨.word, "a", 0⟩ :: List.replicate options.maxDepth ⟨.operator, ")", 0⟩ ++
      [⟨.delimiter, "\x7d\x7d", 0⟩]) hlevels
  have hnodes : Call.nodes.perform options.maxDepth (2 * options.maxDepth + 2) 0 s.remaining =
      .error .outOfCalls :=
    Call.nodes_of_output_error hexpr
  have hread : Call.templateSteps (Call.nodes.perform options.maxDepth (2 * options.maxDepth + 2))
      0 s.remaining = .error .outOfCalls :=
    bind_of_error hnodes _
  refine ⟨s, ?_⟩
  rw [readTemplateWithin, readCounted, hread]

end TemplateLang

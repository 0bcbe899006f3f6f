import TemplateLang.Proofs.Depth.Counter
import TemplateLang.Proofs.Grammar.Expression

/-!
# TemplateLang.Proofs.Depth.Balance — every call gives back the levels that it takes

Main statement (`Call.keepsDepth`): with any number of levels in use up to the limit, whatever the
tokens, each of the six kinds of calls comes to the outcome of the reader that it stands for, leaves the
counter as it was, be the outcome a value or a fault, and never takes the counter past the limit on the
way; so counting up never overflows, and counting down never falls below zero. It is stated for machine
words and proved for every counter (`Call.steady_perform`).

The invariant ties the counter to the levels that are left: together they make the limit. What is
enclosed counts up and down around a reading that is itself balanced (`SteadyBelow.enclosed`). Operators
break the balance, each keeps the level that it took, and of them only the outcome and the bound are
shown (`climb_staysWithin`), until the end of the expression sets the counter back
(`steady_expressionSteps`). One statement says that a call is balanced if the calls that it makes are
(`steady_steps`); these have fewer levels left or a lower rank, which carries the induction.
-/

namespace TemplateLang

open TokenReader CountedReader Template
open LevelCounter (toNat up down)

theorem TokenReader.bind_assoc {α β γ : Type} (reader : TokenReader α) (next : α → TokenReader β)
    (last : β → TokenReader γ) :
    (reader >>= next) >>= last = reader >>= fun value => next value >>= last := by
  funext tokens
  simp only [bind_apply]
  cases reader tokens <;> rfl

variable {ν α β : Type} [LevelCounter ν] {limit depth above mid : ν}

/-! ## How reading ends -/

/-- **`StaysWithin limit exit outcome result`** — reading did not break off and came to the outcome, the
counter behind it meets `exit`, and no value that the counter was given passes the limit. -/
def StaysWithin (limit : ν) (exit : ν → Prop) (outcome : Outcome α)
    (result : Except Breach (Course ν α)) : Prop :=
  ∃ after taken, result = .ok ⟨outcome, after, taken⟩ ∧ exit after ∧
    ∀ d ∈ taken, toNat d ≤ toNat limit

namespace StaysWithin

variable {exit : ν → Prop} {outcome : Outcome α} {tokens rest : List Token}

theorem here (h : exit depth) (outcome : Outcome α) :
    StaysWithin limit exit outcome (.ok ⟨outcome, depth, []⟩) :=
  ⟨depth, [], rfl, h, nofun⟩

/-- What is read first leaves the counter at `mid`, and the rest of the reading goes on from there. -/
theorem bind {reader : CountedReader ν α} {next : α → CountedReader ν β}
    {plainNext : α → List Token → Outcome β}
    (h : StaysWithin limit (Eq mid) outcome (reader depth tokens)) (hexit : exit mid)
    (hnext : ∀ value rest, outcome = .accepted value rest →
      StaysWithin limit exit (plainNext value rest) (next value mid rest)) :
    StaysWithin limit exit (outcome.andThen plainNext) ((reader >>= next) depth tokens) := by
  obtain ⟨_, taken, hfirst, rfl, hbound⟩ := h
  cases outcome with
  | refused fault rest =>
      refine ⟨_, taken, ?_, hexit, hbound⟩
      simp only [Bind.bind, hfirst, Outcome.andThen_refused]
  | accepted value rest =>
      obtain ⟨last, more, hsecond, hlast, hmore⟩ := hnext value rest rfl
      refine ⟨last, taken ++ more, ?_, hlast, List.forall_mem_append.mpr ⟨hbound, hmore⟩⟩
      simp only [Bind.bind, hfirst, hsecond, Outcome.andThen_accepted]

theorem enter_bind (hfree : toNat depth < toNat limit) (hup : up depth = .ok above) (t : Token)
    {next : Unit → CountedReader ν α}
    (hnext : StaysWithin limit exit outcome (next () above tokens)) :
    StaysWithin limit exit outcome ((enter limit t >>= next) depth tokens) := by
  have habove : toNat above ≤ toNat limit := by
    rw [LevelCounter.toNat_of_up hup]
    exact hfree
  obtain ⟨after, taken, hsecond, hafter, hbound⟩ := hnext
  refine ⟨after, [above] ++ taken, ?_, hafter, List.forall_mem_cons.mpr ⟨habove, hbound⟩⟩
  simp only [Bind.bind, enter_of_lt hfree hup, hsecond]

theorem enter_bind_refused (hfull : toNat limit ≤ toNat depth) (hexit : exit depth) (t : Token)
    (next : Unit → CountedReader ν α) :
    StaysWithin limit exit (.refused (.tooDeep t) tokens)
      ((enter limit t >>= next) depth tokens) := by
  refine ⟨depth, [], ?_, hexit, nofun⟩
  simp only [Bind.bind, enter_of_le hfull]

/-- Counting down has a result, since the counter is where counting up has brought it. -/
theorem thenLeave {reader : CountedReader ν α} (hfree : toNat depth < toNat limit)
    (hup : up depth = .ok above)
    (h : StaysWithin limit (Eq above) outcome (reader above tokens)) :
    StaysWithin limit (Eq depth) outcome (thenLeave reader above tokens) := by
  obtain ⟨_, taken, hinner, rfl, hbound⟩ := h
  have hdepth : ∀ d ∈ [depth], toNat d ≤ toNat limit :=
    List.forall_mem_singleton.mpr (Nat.le_of_lt hfree)
  refine ⟨depth, taken ++ [depth], ?_, rfl, List.forall_mem_append.mpr ⟨hbound, hdepth⟩⟩
  simp only [CountedReader.thenLeave, hinner, LevelCounter.down_of_up hup]

theorem restoring {reader : CountedReader ν α} (hdepth : toNat depth ≤ toNat limit)
    (h : StaysWithin limit (fun _ => True) outcome (reader depth tokens)) :
    StaysWithin limit (Eq depth) outcome (restoring reader depth tokens) := by
  obtain ⟨after, taken, hinner, _, hbound⟩ := h
  refine ⟨depth, taken ++ [depth], ?_, rfl, ?_⟩
  · rw [CountedReader.restoring, hinner]
  · exact List.forall_mem_append.mpr ⟨hbound, List.forall_mem_singleton.mpr hdepth⟩

end StaysWithin

/-! ## Steady readers -/

/-- **`Steady limit depth reader plain`** — with `depth` levels in use the reader does what the plain
one does, leaves the counter as it was, and gives it no value above the limit on the way. -/
def Steady (limit depth : ν) (reader : CountedReader ν α) (plain : TokenReader α) : Prop :=
  ∀ tokens, StaysWithin limit (Eq depth) (plain tokens) (reader depth tokens)

theorem steady_lift (reader : TokenReader α) :
    Steady limit depth (lift reader) reader :=
  fun tokens => StaysWithin.here rfl (reader tokens)

theorem steady_pure (value : α) :
    Steady limit depth (pure value : CountedReader ν α) (pure value : TokenReader α) :=
  fun tokens => StaysWithin.here rfl (.accepted value tokens)

theorem Steady.bind {reader : CountedReader ν α} {plain : TokenReader α}
    {next : α → CountedReader ν β} {plainNext : α → TokenReader β}
    (h : Steady limit depth reader plain)
    (hnext : ∀ value, Steady limit depth (next value) (plainNext value)) :
    Steady limit depth (reader >>= next) (plain >>= plainNext) :=
  fun tokens => (h tokens).bind rfl fun value rest _ => hnext value rest

theorem steady_enclosed {reader : CountedReader ν α} {plain : TokenReader α}
    (hfree : toNat depth < toNat limit) (hup : up depth = .ok above)
    (h : Steady limit above reader plain) (t : Token) :
    Steady limit depth (enclosed limit t reader) plain :=
  fun tokens => StaysWithin.enter_bind hfree hup t ((h tokens).thenLeave hfree hup)

theorem steady_enclosed_refuse (hfull : toNat limit ≤ toNat depth) (reader : CountedReader ν α)
    (t : Token) : Steady limit depth (enclosed limit t reader) (refuse (.tooDeep t)) :=
  fun _ => StaysWithin.enter_bind_refused hfull rfl t _

/-- **`SteadyBelow limit levels reader plain`** — the reader is steady wherever fewer levels than given
are left, and does there what the plain one does with so many levels. -/
def SteadyBelow (limit : ν) (levels : Nat) (reader : CountedReader ν α)
    (plain : Nat → TokenReader α) : Prop :=
  ∀ inner < levels, ∀ used : ν, toNat used + inner = toNat limit →
    Steady limit used reader (plain inner)

/-- What is enclosed, read with one level less, or refused at the token if there is none. -/
def oneLevelDown (plain : Nat → TokenReader α) (t : Token) : Nat → TokenReader α
  | 0 => refuse (.tooDeep t)
  | inner + 1 => plain inner

theorem SteadyBelow.mono {levels fewer : Nat} {reader : CountedReader ν α}
    {plain : Nat → TokenReader α} (h : SteadyBelow limit levels reader plain)
    (hle : fewer ≤ levels) : SteadyBelow limit fewer reader plain :=
  fun inner hinner => h inner (Nat.lt_of_lt_of_le hinner hle)

section Levels

variable {levels : Nat} (hlimit : toNat depth + levels = toNat limit)
include hlimit

/-- With a level left, what is read behind it is steady one level further down. -/
theorem SteadyBelow.next {inner : Nat} {reader : CountedReader ν α} {plain : Nat → TokenReader α}
    (h : SteadyBelow limit levels reader plain) (hlevels : levels = inner + 1) :
    toNat depth < toNat limit ∧ ∃ above, up depth = .ok above ∧
      toNat above + inner = toNat limit ∧ Steady limit above reader (plain inner) := by
  have hfree : toNat depth < toNat limit := by omega
  obtain ⟨above, hup⟩ := LevelCounter.exists_up_of_lt hfree
  have habove := LevelCounter.toNat_of_up hup
  have hinner : toNat above + inner = toNat limit := by omega
  exact ⟨hfree, above, hup, hinner, h inner (by omega) above hinner⟩

theorem SteadyBelow.enclosed {reader : CountedReader ν α} {plain : Nat → TokenReader α}
    (h : SteadyBelow limit levels reader plain) (t : Token) :
    Steady limit depth (enclosed limit t reader) (oneLevelDown plain t levels) := by
  cases levels with
  | zero => exact steady_enclosed_refuse (by omega) reader t
  | succ inner =>
      obtain ⟨hfree, above, hup, _, hinner⟩ := h.next hlimit rfl
      exact steady_enclosed hfree hup hinner t

end Levels

/-! ## Expressions -/

namespace Call

variable {levels : Nat}

/-- The operators of an expression, given that their right operands are steady wherever fewer levels are
left. The counter stays within the limit, but where it stands in the end is not said. -/
theorem climb_staysWithin {operand : Nat → CountedReader ν Expr} {minPrecedence : Nat} (turns : Nat) :
    ∀ {levels : Nat} {depth : ν} {left : Expr} {tokens : List Token},
      toNat depth + levels = toNat limit →
      (∀ p, SteadyBelow limit levels (operand p) fun inner => Expr.read inner p) →
      tokens.length ≤ turns →
      StaysWithin limit (fun _ => True) (Expr.readTail levels minPrecedence left tokens)
        (climb limit operand minPrecedence turns left depth tokens) := by
  induction turns with
  | zero =>
      intro levels depth left tokens _ _ hturns
      obtain rfl : tokens = [] := List.length_eq_zero_iff.mp (by omega)
      rw [Expr.readTail_apply]
      exact StaysWithin.here trivial _
  | succ turns ih =>
      intro levels depth left tokens hlimit hoperand hturns
      rw [climb]
      rcases Expr.takeOperator?_cases minPrecedence tokens with
        ⟨hstops, htaken⟩ | ⟨op, t, rest, rfl, hop, hp, htaken⟩
      · rw [Expr.readTail_of_stops hstops, lift_bind_of_accepted htaken]
        exact StaysWithin.here trivial _
      · rw [Expr.readTail_operator hop hp, lift_bind_of_accepted htaken]
        cases levels with
        | zero => exact StaysWithin.enter_bind_refused (by omega) trivial t _
        | succ inner =>
            obtain ⟨hfree, above, hup, hinner, hright⟩ :=
              (hoperand (op.precedence + 1)).next hlimit rfl
            have hsuffix := Expr.leavesSuffix_read inner (op.precedence + 1) rest
            refine StaysWithin.enter_bind hfree hup t
              ((hright rest).bind trivial fun right more ho => ?_)
            rw [ho] at hsuffix
            have hmore : more.length ≤ rest.length := hsuffix.length_le
            simp only [List.length_cons] at hturns
            exact ih hinner (fun p => (hoperand p).mono (Nat.le_succ inner)) (by omega)

theorem steady_expressionSteps {primary : CountedReader ν Expr}
    {operand : Nat → CountedReader ν Expr} (hlimit : toNat depth + levels = toNat limit)
    (hprimary : Steady limit depth primary (Expr.readPrimary levels))
    (hoperand : ∀ p, SteadyBelow limit levels (operand p) fun inner => Expr.read inner p)
    (minPrecedence : Nat) :
    Steady limit depth (expressionSteps limit primary operand minPrecedence)
      (Expr.read levels minPrecedence) := by
  intro tokens
  have hdepth : toNat depth ≤ toNat limit := by omega
  refine StaysWithin.restoring hdepth ((hprimary tokens).bind trivial fun first rest _ => ?_)
  exact climb_staysWithin rest.length hlimit hoperand (Nat.le_refl _)

/-- A primary asks for a level before it goes deeper. -/
theorem steady_primarySteps {primary group : CountedReader ν Expr}
    (hlimit : toNat depth + levels = toNat limit)
    (hprimary : SteadyBelow limit levels primary Expr.readPrimary)
    (hgroup : SteadyBelow limit levels group fun inner => Expr.read inner 0) :
    Steady limit depth (primarySteps limit primary group) (Expr.readPrimary levels) := by
  have hend : ∀ grouped, Steady limit depth
      (lift Expr.expectGroupEnd >>= fun _ => (pure grouped : CountedReader ν Expr))
      (Expr.expectGroupEnd >>= fun _ => pure grouped) :=
    fun grouped => (steady_lift _).bind fun _ => steady_pure grouped
  rw [primarySteps, Expr.readPrimary]
  refine (steady_lift next?).bind fun found => ?_
  cases found with
  | none => exact steady_lift _
  | some t =>
      dsimp only
      split
      · exact steady_lift _
      · split
        -- an output opener
        · have hopened := hprimary.enclosed hlimit t
          cases levels <;> exact hopened
        · split
          -- a group
          · have hgrouped := (hgroup.enclosed hlimit t).bind hend
            cases levels with
            | zero => exact hgrouped
            | succ inner =>
                rw [oneLevelDown, Expr.read, TokenReader.bind_assoc] at hgrouped
                exact hgrouped
          · split
            · exact steady_pure _
            · exact steady_lift _

/-! ## Templates -/

/-- A body gives its level back before it is asked for its end tag. -/
theorem steady_bodySteps {nodes : CountedReader ν Section}
    (hlimit : toNat depth + levels = toNat limit)
    (hnodes : SteadyBelow limit levels nodes readNodes) (opener keyword : Token) :
    Steady limit depth (bodySteps limit nodes opener keyword)
      (readBody (readEnclosed levels opener) opener keyword) := by
  have henclosed : readEnclosed levels opener = oneLevelDown readNodes opener levels := by
    cases levels <;> rfl
  rw [henclosed]
  refine (hnodes.enclosed hlimit opener).bind fun inner => ?_
  cases inner.endTag with
  | none => exact steady_lift _
  | some tag => exact steady_pure _

section Statements

variable {expr : CountedReader ν Expr} {nodes : CountedReader ν Section}
  (hlimit : toNat depth + levels = toNat limit)
  (hexpr : Steady limit depth expr (Expr.read levels 0))
  (hnodes : SteadyBelow limit levels nodes readNodes)
include hlimit hexpr hnodes

theorem steady_blockSteps (opener : Token) :
    Steady limit depth (blockSteps limit expr nodes opener)
      (readStatement levels (readEnclosed levels opener) opener) := by
  have hbody := steady_bodySteps hlimit hnodes opener
  -- the plain reader nests the parts of a statement, here they follow one another
  simp only [readStatement, readAssignment, readConditional,
    readLoop, readBlockEnd, TokenReader.bind_assoc]
  refine (steady_lift _).bind fun keyword => ?_
  split
  -- an assignment
  · refine (steady_lift _).bind fun name => (steady_lift _).bind fun sign => ?_
    exact hexpr.bind fun value => (steady_lift _).bind fun _ => steady_pure _
  · split
    -- a conditional
    · refine hexpr.bind fun condition => (steady_lift _).bind fun _ => ?_
      exact (hbody keyword).bind fun inner => steady_pure _
    · split
      -- a loop
      · refine (steady_lift _).bind fun name => (steady_lift _).bind fun _ => ?_
        refine hexpr.bind fun items => (steady_lift _).bind fun _ => ?_
        exact (hbody keyword).bind fun inner => steady_pure _
      · split
        -- an end tag
        · exact (steady_lift _).bind fun _ => steady_pure _
        · exact steady_lift _

theorem steady_itemSteps (t : Token) :
    Steady limit depth (itemSteps limit expr nodes t)
      (readItem levels (readEnclosed levels) t) := by
  unfold itemSteps readItem
  split
  · exact steady_blockSteps hlimit hexpr hnodes t
  · split
    · exact hexpr.bind fun value => (steady_lift _).bind fun _ => steady_pure _
    · split
      · exact steady_pure _
      · exact steady_pure _

end Statements

theorem steady_itemsSteps {item : Token → CountedReader ν Item}
    {plainItem : Token → TokenReader Item}
    (hitem : ∀ t, Steady limit depth (item t) (plainItem t)) (count : Nat) :
    Steady limit depth (itemsSteps item count) (readItems plainItem count) := by
  induction count with
  | zero => exact steady_pure _
  | succ count ih =>
      refine (steady_lift next?).bind fun found => ?_
      cases found with
      | none => exact steady_pure _
      | some t =>
          refine (hitem t).bind fun led => ?_
          cases led with
          | skip => exact ih
          | node n => exact ih.bind fun more => steady_pure _
          | endTag keyword => exact steady_pure _

theorem steady_nodesSteps {expr : CountedReader ν Expr} {nodes : CountedReader ν Section}
    (hlimit : toNat depth + levels = toNat limit)
    (hexpr : Steady limit depth expr (Expr.read levels 0))
    (hnodes : SteadyBelow limit levels nodes readNodes) :
    Steady limit depth (nodesSteps limit expr nodes) (readNodes levels) := by
  intro tokens
  rw [readNodes_eq]
  exact steady_itemsSteps (steady_itemSteps hlimit hexpr hnodes) tokens.length tokens

theorem steady_templateSteps {nodes : CountedReader ν Section}
    (hnodes : Steady limit depth nodes (readNodes levels)) :
    Steady limit depth (templateSteps nodes) (Template.read levels) := by
  refine hnodes.bind fun whole => ?_
  cases whole.endTag with
  | none => exact steady_pure _
  | some keyword => exact steady_lift _

/-! ## Calls of calls -/

theorem rank_pos (call : Call α) : 0 < call.rank := by
  cases call <;> simp [rank]

/-- **What a call does is steady if the calls that it makes are**: with the same levels left those of
lower rank, and with fewer left those whose rank is at most one higher. -/
theorem steady_steps {further : {β : Type} → Call β → CountedReader ν β}
    (hlimit : toNat depth + levels = toNat limit) (call : Call α)
    (hsame : ∀ {β : Type} (made : Call β), made.rank < call.rank →
      Steady limit depth (further made) (made.plain levels))
    (hdeeper : ∀ {β : Type} (made : Call β), made.rank ≤ call.rank + 1 →
      SteadyBelow limit levels (further made) fun inner => made.plain inner) :
    Steady limit depth (call.steps limit further) (call.plain levels) := by
  cases call with
  | expression minPrecedence =>
      exact steady_expressionSteps hlimit (hsame .primary (by simp [rank]))
        (fun p => hdeeper (.expression p) (by simp [rank])) minPrecedence
  | primary =>
      exact steady_primarySteps hlimit (hdeeper .primary (by simp [rank]))
        (hdeeper (.expression 0) (by simp [rank]))
  | body opener keyword =>
      exact steady_bodySteps hlimit (hdeeper .nodes (by simp [rank])) opener keyword
  | block opener =>
      exact steady_blockSteps hlimit (hsame (.expression 0) (by simp [rank]))
        (hdeeper .nodes (by simp [rank])) opener
  | nodes =>
      exact steady_nodesSteps hlimit (hsame (.expression 0) (by simp [rank]))
        (hdeeper .nodes (by simp [rank]))
  | template => exact steady_templateSteps (hsame .nodes (by simp [rank]))

/-- **Every call is steady**, with two calls for every level left and as many as its rank besides. -/
theorem steady_perform (calls : Nat) :
    ∀ {α : Type} (call : Call α) {levels : Nat} {depth : ν},
      toNat depth + levels = toNat limit → 2 * levels + call.rank ≤ calls →
      Steady limit depth (call.perform limit calls) (call.plain levels) := by
  induction calls with
  | zero =>
      intro α call levels depth _ hcalls
      have hpos := call.rank_pos
      omega
  | succ calls ih =>
      intro α call levels depth hlimit hcalls
      refine steady_steps hlimit call (fun made hrank => ?_)
        fun made hrank inner hinner used hused => ?_
      · exact ih made hlimit (by omega)
      · exact ih made hused (by omega)

/-- **Every call gives back the levels that it takes.** With any number of levels in use up to the limit
a call comes to what the plain reader comes to, with a value or with any fault, and leaves the counter
as it was. On the way the counter never passes the limit, and counting up and down always have a
result. -/
theorem keepsDepth {limit depth : UInt64} (call : Call α) (h : depth ≤ limit) {calls : Nat}
    (hcalls : 2 * (limit.toNat - depth.toNat) + call.rank ≤ calls) (tokens : List Token) :
    ∃ taken,
      call.perform limit calls depth tokens =
        .ok ⟨call.plain (limit.toNat - depth.toNat) tokens, depth, taken⟩ ∧
      ∀ d ∈ taken, d ≤ limit := by
  have hle := UInt64.le_iff_toNat_le.mp h
  have hlimit : toNat depth + (limit.toNat - depth.toNat) = toNat limit :=
    Nat.add_sub_of_le hle
  obtain ⟨_, taken, hrun, rfl, hbound⟩ := steady_perform calls call hlimit hcalls tokens
  refine ⟨taken, hrun, fun d hd => ?_⟩
  exact UInt64.le_iff_toNat_le.mpr (hbound d hd)

end Call

/-- A conditional whose body outputs a group with an operator in it, and closes the block before the
group: `if a`, then `( b + c`. -/
def brokenGroup : List Token :=
  [⟨.delimiter, "\x7b%", 0⟩, ⟨.word, "if", 2⟩, ⟨.word, "a", 5⟩, ⟨.delimiter, "%\x7d", 6⟩,
    ⟨.delimiter, "\x7b\x7b", 8⟩, ⟨.operator, "(", 10⟩, ⟨.word, "b", 11⟩, ⟨.operator, "+", 12⟩,
    ⟨.word, "c", 13⟩, ⟨.delimiter, "\x7d\x7d", 14⟩]

/-- The body, the group and the operator count up to the limit, and when the group is refused all three
levels are given back. -/
theorem brokenGroup_keepsDepth :
    (0 : UInt64) ≤ 3 ∧ 2 * (3 - 0) + Call.template.rank ≤ 10 ∧
      (∃ taken,
        Call.template.perform (3 : UInt64) 10 0 brokenGroup =
          .ok ⟨Call.template.plain 3 brokenGroup, 0, taken⟩ ∧ ∀ d ∈ taken, d ≤ 3) ∧
      Call.template.perform (3 : UInt64) 10 0 brokenGroup =
        .ok ⟨.refused (.unexpected .groupEnd ⟨.delimiter, "\x7d\x7d", 14⟩) [], 0,
          [0, 1, 2, 3, 3, 2, 1, 1, 0]⟩ :=
  ⟨by decide, by decide, Call.template.keepsDepth (by decide) (by decide) brokenGroup, rfl⟩

end TemplateLang

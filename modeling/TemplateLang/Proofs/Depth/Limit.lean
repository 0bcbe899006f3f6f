import TemplateLang.Compile

/-!
# TemplateLang.Proofs.Depth.Limit — what the depth limit can change

A reader that runs out of levels refuses with `Fault.tooDeep`, and nothing else in a reader looks at
the levels. So a limit decides between two outcomes only: the one that more levels would give, and
the refusal. The relation `Outcome.Approximates` says this of a single outcome, `Approximates` of a
reader on all tokens. Both are kept by sequencing, which lets monotonicity in the levels
(`Expr.approximates_read`, `Template.approximates_read`) follow the definitions of the readers case
by case. `Outcome.Decided` says more, where it is known how many levels are enough: with fewer, the
outcome is the refusal.

The second half says when the refusal is excluded: a level is only ever asked for at a token, so a
reader with as many levels as there are tokens (`Fits`) never refuses for want of one.
-/

namespace TemplateLang

/-! ## Outcomes -/

namespace Outcome

variable {α β : Type}

/-- **`o.TooDeep`** — a level was due and none was left. -/
def TooDeep (o : Outcome α) : Prop :=
  ∃ place rest, o = .refused (.tooDeep place) rest

/-- **`o.Approximates full`** — the outcome is `full`, unless the levels ran out on the way. -/
def Approximates (o full : Outcome α) : Prop :=
  o.TooDeep ∨ o = full

theorem not_tooDeep_accepted (value : α) (rest : List Token) :
    ¬ (accepted value rest).TooDeep := by
  rintro ⟨place, left, h⟩
  cases h

theorem TooDeep.andThen {o : Outcome α} (h : o.TooDeep) (next : α → List Token → Outcome β) :
    (o.andThen next).TooDeep := by
  obtain ⟨place, rest, rfl⟩ := h
  exact ⟨place, rest, rfl⟩

theorem Approximates.refl (o : Outcome α) : o.Approximates o := Or.inr rfl

/-- A refusal for want of levels approximates everything. -/
theorem approximates_of_tooDeep {o : Outcome α} (h : o.TooDeep) (full : Outcome α) :
    o.Approximates full := Or.inl h

theorem Approximates.eq_of_not_tooDeep {o full : Outcome α} (h : o.Approximates full)
    (hdeep : ¬ o.TooDeep) : o = full :=
  h.resolve_left hdeep

theorem Approximates.andThen {o full : Outcome α} {next fullNext : α → List Token → Outcome β}
    (h : o.Approximates full)
    (hnext : ∀ value rest, (next value rest).Approximates (fullNext value rest)) :
    (o.andThen next).Approximates (full.andThen fullNext) := by
  rcases h with hdeep | rfl
  · exact Or.inl (hdeep.andThen next)
  · cases o with
    | accepted value rest => exact hnext value rest
    | refused fault rest => exact Approximates.refl _

/-! ### Outcomes that the levels decide -/

/-- **`o.Decided enough full`** — the outcome is `full` if there are levels enough, and the refusal
for want of a level if there are not. -/
structure Decided (enough : Prop) (o full : Outcome α) : Prop where
  eq_of_enough : enough → o = full
  tooDeep_of_not : ¬ enough → o.TooDeep

variable {enough further : Prop}

theorem decided_self (h : enough) (o : Outcome α) : o.Decided enough o :=
  ⟨fun _ => rfl, fun hnot => absurd h hnot⟩

theorem decided_tooDeep (h : ¬ enough) {o : Outcome α} (hdeep : o.TooDeep) (full : Outcome α) :
    o.Decided enough full :=
  ⟨fun henough => absurd henough h, fun _ => hdeep⟩

theorem Decided.congr {o full : Outcome α} (h : o.Decided enough full) (hiff : enough ↔ further) :
    o.Decided further full :=
  ⟨fun hf => h.eq_of_enough (hiff.mpr hf), fun hnot => h.tooDeep_of_not fun he => hnot (hiff.mp he)⟩

theorem Decided.approximates {o full : Outcome α} (h : o.Decided enough full) :
    o.Approximates full := by
  by_cases he : enough
  · exact Or.inr (h.eq_of_enough he)
  · exact Or.inl (h.tooDeep_of_not he)

/-- What follows a decided part does not change what decides it. -/
theorem Decided.andThen {o full : Outcome α} (h : o.Decided enough full)
    (next : α → List Token → Outcome β) :
    (o.andThen next).Decided enough (full.andThen next) :=
  ⟨fun he => by rw [h.eq_of_enough he], fun hnot => (h.tooDeep_of_not hnot).andThen next⟩

/-- A part for which levels do not matter, behind one that the levels decide. -/
theorem Decided.followed {o : Outcome α} {value : α} {rest : List Token} {full : Outcome β}
    {next : α → List Token → Outcome β} (h : o.Decided enough (accepted value rest))
    (hnext : next value rest = full) : (o.andThen next).Decided enough full := by
  rw [← hnext]
  exact h.andThen next

/-- **One part behind another.** Both have to have levels enough. -/
theorem Decided.step {o : Outcome α} {value : α} {rest : List Token} {full : Outcome β}
    {next : α → List Token → Outcome β} (h : o.Decided enough (accepted value rest))
    (hnext : enough → (next value rest).Decided further full) :
    (o.andThen next).Decided (enough ∧ further) full := by
  by_cases he : enough
  · rw [h.eq_of_enough he, andThen_accepted]
    exact (hnext he).congr ⟨fun hf => ⟨he, hf⟩, And.right⟩
  · exact decided_tooDeep (fun hboth => he hboth.1) ((h.tooDeep_of_not he).andThen next) full

/-- What is accepted had levels enough. -/
theorem Decided.enough_of_accepted {o full : Outcome α} (h : o.Decided enough full) {value : α}
    {rest : List Token} (ho : o = accepted value rest) : enough := by
  by_cases he : enough
  · exact he
  · have hdeep := h.tooDeep_of_not he
    rw [ho] at hdeep
    exact absurd hdeep (not_tooDeep_accepted value rest)

end Outcome

/-! ## Readers -/

namespace TokenReader

open Outcome

variable {α β : Type}

/-- **`Approximates reader full`** — on all tokens `reader` does what `full` does, unless it runs
out of levels. -/
def Approximates (reader full : TokenReader α) : Prop :=
  ∀ tokens, (reader tokens).Approximates (full tokens)

theorem approximates_refl (reader : TokenReader α) : Approximates reader reader :=
  fun tokens => Outcome.Approximates.refl (reader tokens)

theorem approximates_refuse_tooDeep (place : Token) (full : TokenReader α) :
    Approximates (refuse (.tooDeep place)) full :=
  fun tokens => approximates_of_tooDeep ⟨place, tokens, rfl⟩ (full tokens)

theorem Approximates.bind {reader full : TokenReader α} {next fullNext : α → TokenReader β}
    (h : Approximates reader full) (hnext : ∀ value, Approximates (next value) (fullNext value)) :
    Approximates (reader >>= next) (full >>= fullNext) :=
  fun tokens => (h tokens).andThen fun value rest => hnext value rest

/-- Only what follows the first reader depends on the levels. -/
theorem approximates_bind_right (reader : TokenReader α) {next fullNext : α → TokenReader β}
    (hnext : ∀ value, Approximates (next value) (fullNext value)) :
    Approximates (reader >>= next) (reader >>= fullNext) :=
  (approximates_refl reader).bind hnext

/-- **`Fits bound reader`** — on at most `bound` tokens the reader does not run out of levels, and
it leaves no more tokens than it was given. -/
def Fits (bound : Nat) (reader : TokenReader α) : Prop :=
  ∀ tokens, tokens.length ≤ bound →
    ¬ (reader tokens).TooDeep ∧ (reader tokens).rest.length ≤ tokens.length

theorem Fits.mono {bound less : Nat} {reader : TokenReader α} (h : Fits bound reader)
    (hle : less ≤ bound) : Fits less reader :=
  fun tokens hlen => h tokens (Nat.le_trans hlen hle)

theorem fits_pure (bound : Nat) (value : α) : Fits bound (pure value : TokenReader α) :=
  fun tokens _ => ⟨not_tooDeep_accepted value tokens, Nat.le_refl _⟩

theorem fits_refuse (bound : Nat) {fault : Fault} (h : ∀ place, fault ≠ .tooDeep place) :
    Fits bound (refuse fault : TokenReader α) := by
  intro tokens _
  refine ⟨?_, Nat.le_refl _⟩
  rintro ⟨place, rest, hp⟩
  cases hp
  exact h place rfl

theorem fits_next? (bound : Nat) : Fits bound next?
  | [], _ => ⟨not_tooDeep_accepted _ _, Nat.le_refl 0⟩
  | _ :: rest, _ => ⟨not_tooDeep_accepted _ _, Nat.le_succ rest.length⟩

theorem Fits.bind {bound : Nat} {reader : TokenReader α} {next : α → TokenReader β}
    (h : Fits bound reader) (hnext : ∀ value, Fits bound (next value)) :
    Fits bound (reader >>= next) := by
  intro tokens hlen
  obtain ⟨hdeep, hrest⟩ := h tokens hlen
  rw [bind_apply]
  cases ho : reader tokens with
  | refused fault rest =>
      rw [ho] at hdeep hrest
      refine ⟨?_, hrest⟩
      rintro ⟨place, left, hp⟩
      cases hp
      exact hdeep ⟨place, rest, rfl⟩
  | accepted value rest =>
      rw [ho] at hrest
      obtain ⟨hdeep', hrest'⟩ := hnext value rest (Nat.le_trans hrest hlen)
      exact ⟨hdeep', Nat.le_trans hrest' hrest⟩

/-- Behind a token there is a token less to read. -/
theorem fits_next?_bind {bound : Nat} {next : Option Token → TokenReader α}
    (hnone : Fits 0 (next none)) (hsome : ∀ t, Fits bound (next (some t))) :
    Fits (bound + 1) (next? >>= next)
  | [], _ => hnone [] (Nat.le_refl 0)
  | t :: rest, hlen => by
      obtain ⟨hdeep, hrest⟩ := hsome t rest (by simpa using hlen)
      exact ⟨hdeep, Nat.le_succ_of_le hrest⟩

theorem fits_expectBlockEnd (bound : Nat) (kind : BlockKind) :
    Fits bound (expectBlockEnd kind) := by
  refine (fits_next? bound).bind fun found => ?_
  cases found with
  | none => exact fits_refuse bound (by simp)
  | some t =>
      dsimp only
      split
      · exact fits_pure bound _
      · exact fits_refuse bound (by simp)

end TokenReader

open TokenReader

/-! ## Expressions -/

namespace Expr

/-- More levels change nothing about a primary or a tail that was read without asking for them. -/
theorem approximates_readPrimary_and_readTail (levels : Nat) :
    ∀ more, levels ≤ more →
      Approximates (readPrimary levels) (readPrimary more) ∧
        ∀ minPrecedence left,
          Approximates (readTail levels minPrecedence left) (readTail more minPrecedence left) := by
  induction levels with
  | zero =>
      intro more _
      constructor
      · rw [readPrimary, readPrimary]
        refine approximates_bind_right next? fun found => ?_
        cases found with
        | none => exact approximates_refl _
        | some t =>
            dsimp only
            split
            · exact approximates_refl _
            · split
              · exact approximates_refuse_tooDeep t _
              · split
                · exact approximates_refuse_tooDeep t _
                · exact approximates_refl _
      · intro minPrecedence left
        rw [readTail, readTail]
        apply approximates_bind_right
        intro taken
        cases taken with
        | none => exact approximates_refl _
        | some found => exact approximates_refuse_tooDeep found.2 _
  | succ inner ih =>
      intro more hle
      obtain ⟨rest, rfl⟩ : ∃ rest, more = rest + 1 := ⟨more - 1, by omega⟩
      obtain ⟨hprimary, htail⟩ := ih rest (by omega)
      constructor
      · rw [readPrimary, readPrimary]
        refine approximates_bind_right next? fun found => ?_
        cases found with
        | none => exact approximates_refl _
        | some t =>
            dsimp only
            split
            · exact approximates_refl _
            · split
              -- an output opener
              · exact hprimary
              · split
                -- a group
                · exact hprimary.bind fun first =>
                    (htail 0 first).bind fun grouped => approximates_refl _
                · exact approximates_refl _
      · intro minPrecedence left
        rw [readTail, readTail]
        apply approximates_bind_right
        intro taken
        cases taken with
        | none => exact approximates_refl _
        | some found =>
            exact hprimary.bind fun first =>
              (htail (found.1.precedence + 1) first).bind fun right =>
                htail minPrecedence (.binary found.1 left right)

theorem approximates_readTail {levels more : Nat} (h : levels ≤ more) (minPrecedence : Nat)
    (left : Expr) :
    Approximates (readTail levels minPrecedence left) (readTail more minPrecedence left) :=
  (approximates_readPrimary_and_readTail levels more h).2 minPrecedence left

/-- With more levels an expression is read to the same outcome, unless the fewer ran out. -/
theorem approximates_read {levels more : Nat} (h : levels ≤ more) (minPrecedence : Nat) :
    Approximates (read levels minPrecedence) (read more minPrecedence) := by
  obtain ⟨hprimary, htail⟩ := approximates_readPrimary_and_readTail levels more h
  exact hprimary.bind fun first => htail minPrecedence first

theorem fits_expectGroupEnd (bound : Nat) : Fits bound expectGroupEnd := by
  refine (fits_next? bound).bind fun found => ?_
  cases found with
  | none => exact fits_refuse bound (by simp)
  | some t =>
      dsimp only
      split
      · exact fits_pure bound _
      · exact fits_refuse bound (by simp)

/-- What is read behind an operator has a token less to read. -/
theorem fits_takeOperator?_bind {α : Type} {bound minPrecedence : Nat}
    {next : Option (Operator × Token) → TokenReader α} (hnone : Fits (bound + 1) (next none))
    (hsome : ∀ found, Fits bound (next (some found))) :
    Fits (bound + 1) (takeOperator? minPrecedence >>= next) := by
  intro tokens hlen
  rw [bind_apply]
  cases tokens with
  | nil => exact hnone [] hlen
  | cons t rest =>
      simp only [takeOperator?]
      split
      · split
        · exact hnone (t :: rest) hlen
        · obtain ⟨hdeep, hrest⟩ := hsome _ rest (by simpa using hlen)
          exact ⟨hdeep, Nat.le_succ_of_le hrest⟩
      · exact hnone (t :: rest) hlen

/-- A primary and a tail have levels enough if there are as many as tokens: each level that is
asked for is asked for at a token of its own. -/
theorem fits_readPrimary_and_readTail (levels : Nat) :
    Fits levels (readPrimary levels) ∧
      ∀ minPrecedence left, Fits levels (readTail levels minPrecedence left) := by
  induction levels with
  | zero =>
      constructor
      · intro tokens hlen
        obtain rfl : tokens = [] := List.length_eq_zero_iff.mp (by omega)
        have hends : Fits 0 (refuse .endsEarly : TokenReader Expr) := fits_refuse 0 (by simp)
        rw [readPrimary_nil]
        exact hends [] hlen
      · intro minPrecedence left tokens hlen
        obtain rfl : tokens = [] := List.length_eq_zero_iff.mp (by omega)
        rw [readTail_apply]
        exact fits_pure 0 left [] hlen
  | succ inner ih =>
      obtain ⟨hprimary, htail⟩ := ih
      constructor
      · rw [readPrimary]
        refine fits_next?_bind (fits_refuse 0 (by simp)) fun t => ?_
        dsimp only
        split
        · exact fits_refuse inner (by simp)
        · split
          -- an output opener
          · exact hprimary
          · split
            -- a group
            · exact hprimary.bind fun first => (htail 0 first).bind fun grouped =>
                (fits_expectGroupEnd inner).bind fun _ => fits_pure inner grouped
            · split
              · exact fits_pure inner _
              · exact fits_refuse inner (by simp)
      · intro minPrecedence left
        rw [readTail]
        refine fits_takeOperator?_bind (fits_pure _ left) fun found => ?_
        exact hprimary.bind fun first =>
          (htail (found.1.precedence + 1) first).bind fun right =>
            htail minPrecedence (.binary found.1 left right)

/-- As many levels as tokens are enough for an expression. -/
theorem fits_read (levels minPrecedence : Nat) : Fits levels (read levels minPrecedence) := by
  obtain ⟨hprimary, htail⟩ := fits_readPrimary_and_readTail levels
  exact hprimary.bind fun first => htail minPrecedence first

end Expr

/-! ## Templates -/

namespace Template

/-- **`readEnclosed levels opener`** — the reader of a body: nodes with one level less, or a refusal
at the opener when there is none. -/
def readEnclosed : Nat → Token → TokenReader Section
  | 0, opener => refuse (.tooDeep opener)
  | levels + 1, _ => readNodes levels

theorem readNodes_eq (levels : Nat) :
    readNodes levels = readSection levels (readEnclosed levels) := by
  cases levels <;> rfl

theorem leavesSuffix_readEnclosed (levels : Nat) (opener : Token) :
    LeavesSuffix (readEnclosed levels opener) := by
  cases levels with
  | zero => exact leavesSuffix_refuse _
  | succ levels => exact leavesSuffix_readNodes levels

/-! ### More levels -/

theorem approximates_readBlockEnd {levels more : Nat} (h : levels ≤ more) :
    Approximates (readBlockEnd levels) (readBlockEnd more) :=
  (Expr.approximates_read h 0).bind fun _ => approximates_refl _

theorem approximates_readBody {body fullBody : TokenReader Section}
    (h : Approximates body fullBody) (opener keyword : Token) :
    Approximates (readBody body opener keyword) (readBody fullBody opener keyword) :=
  h.bind fun _ => approximates_refl _

theorem approximates_readStatement {levels more : Nat} (hle : levels ≤ more)
    {body fullBody : TokenReader Section} (h : Approximates body fullBody) (opener : Token) :
    Approximates (readStatement levels body opener) (readStatement more fullBody opener) := by
  apply approximates_bind_right
  intro keyword
  have hbody := approximates_readBody h opener keyword
  have hend := approximates_readBlockEnd hle
  split
  -- an assignment
  · refine Approximates.bind ?_ fun _ => approximates_refl _
    exact approximates_bind_right _ fun name => approximates_bind_right _ fun sign =>
      hend.bind fun _ => approximates_refl _
  · split
    -- a conditional
    · refine Approximates.bind ?_ fun _ => approximates_refl _
      exact hend.bind fun condition => hbody.bind fun _ => approximates_refl _
    · split
      -- a loop
      · refine Approximates.bind ?_ fun _ => approximates_refl _
        exact approximates_bind_right _ fun name => approximates_bind_right _ fun _ =>
          hend.bind fun items => hbody.bind fun _ => approximates_refl _
      · exact approximates_refl _

theorem approximates_readItem {levels more : Nat} (hle : levels ≤ more)
    {body fullBody : Token → TokenReader Section}
    (h : ∀ opener, Approximates (body opener) (fullBody opener)) (t : Token) :
    Approximates (readItem levels body t) (readItem more fullBody t) := by
  unfold readItem
  split
  · exact approximates_readStatement hle (h t) t
  · split
    · exact (Expr.approximates_read hle 0).bind fun _ => approximates_refl _
    · exact approximates_refl _

theorem approximates_readItems {item fullItem : Token → TokenReader Item}
    (h : ∀ t, Approximates (item t) (fullItem t)) (count : Nat) :
    Approximates (readItems item count) (readItems fullItem count) := by
  induction count with
  | zero => exact approximates_refl _
  | succ count ih =>
      refine approximates_bind_right next? fun found => ?_
      cases found with
      | none => exact approximates_refl _
      | some t =>
          apply (h t).bind
          intro led
          cases led with
          | skip => exact ih
          | endTag keyword => exact approximates_refl _
          | node n => exact ih.bind fun _ => approximates_refl _

/-- With more levels nodes are read to the same outcome, unless the fewer ran out. -/
theorem approximates_readNodes {levels more : Nat} (h : levels ≤ more) :
    Approximates (readNodes levels) (readNodes more) := by
  induction levels generalizing more with
  | zero =>
      intro tokens
      rw [readNodes_eq more]
      exact approximates_readItems
        (approximates_readItem h fun opener => approximates_refuse_tooDeep opener _)
        tokens.length tokens
  | succ levels ih =>
      obtain ⟨rest, rfl⟩ : ∃ rest, more = rest + 1 := ⟨more - 1, by omega⟩
      intro tokens
      exact approximates_readItems
        (approximates_readItem h fun _ => ih (by omega)) tokens.length tokens

/-- With more levels a template is read to the same outcome, unless the fewer ran out. -/
theorem approximates_read {levels more : Nat} (h : levels ≤ more) :
    Approximates (read levels) (read more) :=
  (approximates_readNodes h).bind fun _ => approximates_refl _

/-! ### Levels enough -/

theorem fits_readPart (bound : Nat) (part : StatementPart) (opener : Token)
    (accepts : Token → Bool) : Fits bound (readPart part opener accepts) := by
  refine (fits_next? bound).bind fun found => ?_
  cases found with
  | none => exact fits_refuse bound (by simp)
  | some t =>
      dsimp only
      split
      · exact fits_pure bound _
      · exact fits_refuse bound (by simp)

theorem fits_readBlockEnd {bound levels : Nat} (h : bound ≤ levels) :
    Fits bound (readBlockEnd levels) :=
  ((Expr.fits_read levels 0).mono h).bind fun value =>
    (fits_expectBlockEnd bound .statement).bind fun _ => fits_pure bound value

theorem fits_readBody {bound : Nat} {body : TokenReader Section} (h : Fits bound body)
    (opener keyword : Token) : Fits bound (readBody body opener keyword) := by
  apply h.bind
  intro inner
  split
  · exact fits_pure bound _
  · exact fits_refuse bound (by simp)

theorem fits_readStatement {bound levels : Nat} (hle : bound ≤ levels)
    {body : TokenReader Section} (h : Fits bound body) (opener : Token) :
    Fits bound (readStatement levels body opener) := by
  apply (fits_readPart bound .keyword opener _).bind
  intro keyword
  have hend := fits_readBlockEnd hle
  have hbody := fits_readBody h opener keyword
  split
  -- an assignment
  · refine Fits.bind ?_ fun n => fits_pure bound _
    exact (fits_readPart bound _ opener _).bind fun name =>
      (fits_readPart bound _ opener _).bind fun sign => hend.bind fun value => fits_pure bound _
  · split
    -- a conditional
    · refine Fits.bind ?_ fun n => fits_pure bound _
      exact hend.bind fun condition => hbody.bind fun nodes => fits_pure bound _
    · split
      -- a loop
      · refine Fits.bind ?_ fun n => fits_pure bound _
        exact (fits_readPart bound _ opener _).bind fun name =>
          (fits_readPart bound _ opener _).bind fun _ =>
            hend.bind fun items => hbody.bind fun nodes => fits_pure bound _
      · split
        -- an end tag
        · exact (fits_expectBlockEnd bound .statement).bind fun _ => fits_pure bound _
        · exact fits_refuse bound (by simp)

theorem fits_readItem {bound levels : Nat} (hle : bound ≤ levels)
    {body : Token → TokenReader Section} (h : ∀ opener, Fits bound (body opener)) (t : Token) :
    Fits bound (readItem levels body t) := by
  unfold readItem
  split
  · exact fits_readStatement hle (h t) t
  · split
    · exact ((Expr.fits_read levels 0).mono hle).bind fun value =>
        (fits_expectBlockEnd bound .output).bind fun _ => fits_pure bound _
    · split
      · exact fits_pure bound _
      · exact fits_pure bound _

theorem fits_readItems {bound : Nat} {item : Token → TokenReader Item}
    (h : ∀ t, Fits bound (item t)) (count : Nat) : Fits (bound + 1) (readItems item count) := by
  induction count with
  | zero => exact fits_pure _ _
  | succ count ih =>
      refine fits_next?_bind (fits_pure 0 _) fun t => ?_
      apply (h t).bind
      intro led
      have hrest : Fits bound (readItems item count) := ih.mono (Nat.le_succ bound)
      cases led with
      | skip => exact hrest
      | endTag keyword => exact fits_pure bound _
      | node n => exact hrest.bind fun more => fits_pure bound _

/-- As many levels as tokens are enough for nodes: a body starts behind the opener of its block. -/
theorem fits_readNodes (levels : Nat) : Fits levels (readNodes levels) := by
  induction levels with
  | zero =>
      intro tokens hlen
      obtain rfl : tokens = [] := List.length_eq_zero_iff.mp (by omega)
      exact fits_pure 0 _ [] hlen
  | succ levels ih =>
      intro tokens hlen
      exact fits_readItems (fun t => fits_readItem (Nat.le_succ levels) (fun _ => ih) t)
        tokens.length tokens hlen

/-- As many levels as tokens are enough for a template. -/
theorem fits_read (levels : Nat) : Fits levels (read levels) := by
  apply (fits_readNodes levels).bind
  intro whole
  split
  · exact fits_refuse levels (by simp)
  · exact fits_pure levels _

end Template

/-! ## Streams -/

/-- **`ReportsTooDeep result`** — the result is the error that the nesting exceeds the limit. -/
def ReportsTooDeep {α : Type} (result : Except CompileError α) : Prop :=
  ∃ limit span source, result = .error (.located (.nestingTooDeep limit) span source)

namespace TokenStream

/-- A stream reports too deep a nesting exactly when its reader ran out of levels. -/
theorem reportsTooDeep_read_iff {α : Type} (options : Options) (reader : Nat → TokenReader α)
    (s : TokenStream) :
    ReportsTooDeep (s.read options reader).1 ↔
      (reader options.maxDepth s.remaining).TooDeep := by
  unfold read
  constructor
  · rintro ⟨limit, span, source, h⟩
    split at h
    · cases h
    · next fault rest ho =>
        rw [ho]
        cases fault with
        | tooDeep place => exact ⟨place, rest, rfl⟩
        | endsEarly => cases h
        | missingOperand closer => cases h
        | unexpected expected found => cases h
        | malformed fault place => cases h
  · rintro ⟨place, rest, ho⟩
    rw [ho]
    exact ⟨_, _, _, rfl⟩

end TokenStream

end TemplateLang

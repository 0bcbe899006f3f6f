import TemplateLang.Proofs.Grammar.Expression

/-!
# TemplateLang.Proofs.Diagnostic.Earliest — expressions are refused at the first hopeless token

An expression is read from left to right without going back, so two things can be asked of an error:
that everything in front of the token it is about can still be completed, and that nothing behind
this token can mend it. Both hold, also where the depth limit is what refuses the token. Main
statement (`readExpr_fails_earliest`): if reading fails, either the tokens have run out, and those
that were read can be completed to an expression that is accepted under the same limit, or the error
is about the token read last, those in front of it can be completed, and with that token behind them
reading fails whatever follows.

`Early` says this of a single refusal and is carried through the readers. What completes the tokens
is an operand where one is due, and the parentheses of the groups that are open; it begins with no
operator, so it may stand where a part that is over was read to its end. Where a part has been
accepted, it is accepted in front of everything that cannot go on with it
(`accepted_in_front_of`), and the refusal is that of the part behind it.
-/

namespace TemplateLang

open TokenReader

/-- The token that a fault is about, if it is about one. -/
def Fault.place? : Fault → Option Token
  | .endsEarly => none
  | .missingOperand closer => some closer
  | .unexpected _ found => some found
  | .malformed _ place => some place
  | .tooDeep place => some place

/-- The error of a fault about a token is shown at the token, in any source. -/
theorem Fault.exists_problem {fault : Fault} {t : Token} (h : fault.place? = some t)
    (limit : Nat) :
    ∃ problem, ∀ source, fault.toError source limit = .located problem t.span source := by
  cases fault with
  | endsEarly => cases h
  | missingOperand closer =>
      cases h
      exact ⟨_, fun _ => rfl⟩
  | unexpected expected found =>
      cases h
      exact ⟨_, fun _ => rfl⟩
  | malformed fault place =>
      cases h
      exact ⟨_, fun _ => rfl⟩
  | tooDeep place =>
      cases h
      exact ⟨_, fun _ => rfl⟩

namespace Expr

/-! ## Where parts stop -/

theorem stops_nil (p : Nat) : Stops p [] := fun _ ht => by simp at ht

/-- What stops a part is its first token, so what stands behind that does not matter. -/
theorem Stops.replace {p : Nat} {begun behind other : List Token} (h : Stops p (begun ++ behind))
    (hother : begun = [] → Stops p other) : Stops p (begun ++ other) := by
  cases begun with
  | nil => exact hother rfl
  | cons t begun => exact h

theorem Stops.append {p : Nat} {more rest : List Token} (h : Stops p more) (hrest : Stops p rest) :
    Stops p (more ++ rest) := by
  rw [← List.append_nil more] at h
  exact h.replace fun _ => hrest

/-- What is accepted is accepted in front of everything that cannot go on with it. -/
theorem accepted_in_front_of {levels p : Nat} {tokens left : List Token} {e : Expr}
    (h : read levels p tokens = .accepted e left) :
    ∃ used, tokens = used ++ left ∧ Stops p left ∧
      ∀ other, Stops p other → read levels p (used ++ other) = .accepted e other := by
  obtain ⟨used, rfl, hneed, hstops⟩ := read_eq_accepted_iff_need.mp h
  exact ⟨used, rfl, hstops, fun other hother =>
    read_eq_accepted_iff_need.mpr ⟨used, rfl, hneed, hother⟩⟩

/-! ## Early refusals -/

/-- **`Finishes reader begun`** — with some tokens behind `begun` the reader accepts all of them,
in front of everything that cannot go on with an expression; the tokens put there begin with no
operator. -/
def Finishes (reader : List Token → Outcome Expr) (begun : List Token) : Prop :=
  ∃ more e, Stops 0 more ∧
    ∀ rest, Stops 0 rest → reader (begun ++ (more ++ rest)) = .accepted e rest

/-- **`Early reader tokens fault rest`** — the refusal of the tokens with `fault`, which leaves
`rest`, comes as early as it can: what was read before can be finished, and the token that the fault
is about, if it is about one, is refused whatever follows. -/
inductive Early (reader : List Token → Outcome Expr) : List Token → Fault → List Token → Prop
  | atEnd {begun : List Token} (hfinishes : Finishes reader begun) :
      Early reader begun .endsEarly []
  | atToken {begun rest : List Token} {t : Token} {fault : Fault} (hplace : fault.place? = some t)
      (hfinishes : Finishes reader begun)
      (hrefused : ∀ other, reader (begun ++ t :: other) = .refused fault other) :
      Early reader (begun ++ t :: rest) fault rest

/-- **`FailsEarly reader`** — every refusal of the reader is early. -/
def FailsEarly (reader : List Token → Outcome Expr) : Prop :=
  ∀ tokens fault rest, reader tokens = .refused fault rest → Early reader tokens fault rest

/-- A first token that is refused, where something else could stand. -/
theorem early_first {reader : List Token → Outcome Expr} {t : Token} {fault : Fault}
    (hplace : fault.place? = some t) (hfinishes : Finishes reader [])
    (hrefused : ∀ other, reader (t :: other) = .refused fault other) (rest : List Token) :
    Early reader (t :: rest) fault rest :=
  @Early.atToken reader [] rest t fault hplace hfinishes hrefused

/-- **`Closes next closing`** — the tokens `closing` are enough for what is next behind any
expression, in front of everything that cannot go on with it; they begin with no operator. -/
structure Closes (next : Expr → List Token → Outcome Expr) (closing : List Token) : Prop where
  stops : Stops 0 closing
  accepts : ∀ e, ∃ e', ∀ rest, Stops 0 rest → next e (closing ++ rest) = .accepted e' rest

theorem Closes.finishes {next : Expr → List Token → Outcome Expr} {closing : List Token}
    (h : Closes next closing) (e : Expr) : Finishes (next e) [] := by
  obtain ⟨e', he'⟩ := h.accepts e
  exact ⟨closing, e', h.stops, he'⟩

/-- **A refusal within a larger reader.** Behind `used` the larger reader does what the smaller one
does, wherever operators of precedence `p` are not to go on with `used`, and then what is next; and
what is next is to close what is open. -/
theorem Early.within {reader inner : List Token → Outcome Expr}
    {tokens rest closing : List Token} {fault : Fault} {p : Nat}
    {next : Expr → List Token → Outcome Expr} (h : Early inner tokens fault rest)
    (used : List Token) (hstops : Stops p tokens)
    (hreader : ∀ other, Stops p other → reader (used ++ other) = (inner other).andThen next)
    (hcloses : Closes next closing) : Early reader (used ++ tokens) fault rest := by
  have hfinish {begun behind : List Token} (hstops : Stops p (begun ++ behind))
      (h : Finishes inner begun) : Finishes reader (used ++ begun) := by
    obtain ⟨more, e, hmore, haccepted⟩ := h
    obtain ⟨e', hclosed⟩ := hcloses.accepts e
    refine ⟨more ++ closing, e', hmore.append hcloses.stops, fun rest hrest => ?_⟩
    have hbehind : Stops 0 (closing ++ rest) := hcloses.stops.append hrest
    have hbegun : Stops p (begun ++ (more ++ (closing ++ rest))) :=
      hstops.replace fun _ => (hmore.append hbehind).mono (Nat.zero_le p)
    rw [List.append_assoc, List.append_assoc, hreader _ hbegun, haccepted _ hbehind,
      Outcome.andThen_accepted, hclosed rest hrest]
  cases h with
  | atEnd hfinishes =>
      rw [← List.append_nil tokens] at hstops
      exact .atEnd (hfinish hstops hfinishes)
  | @atToken begun rest t fault hplace hfinishes hrefused =>
      rw [← List.append_assoc]
      refine .atToken hplace (hfinish hstops hfinishes) fun other => ?_
      have hbegun : Stops p (begun ++ t :: other) := by
        have hsplit (tail : List Token) : begun ++ t :: tail = begun ++ [t] ++ tail := by simp
        rw [hsplit] at hstops ⊢
        exact hstops.replace fun h => absurd h (by simp)
      rw [List.append_assoc, hreader _ hbegun, hrefused other]
      rfl

theorem andThen_accepted_eq (o : Outcome Expr) : o.andThen .accepted = o := by
  cases o <;> rfl

/-- A refusal behind `used`, where the larger reader goes on as the smaller one and closes nothing
afterwards. -/
theorem Early.behind {reader inner : List Token → Outcome Expr} {tokens rest : List Token}
    {fault : Fault} {p : Nat} (h : Early inner tokens fault rest) (used : List Token)
    (hstops : Stops p tokens)
    (hreader : ∀ other, Stops p other → reader (used ++ other) = inner other) :
    Early reader (used ++ tokens) fault rest := by
  have hcloses : Closes .accepted [] := ⟨stops_nil 0, fun e => ⟨e, fun _ _ => rfl⟩⟩
  refine h.within used hstops (fun other hother => ?_) hcloses
  rw [hreader other hother, andThen_accepted_eq]

/-- Behind a first token that says how to go on. -/
theorem FailsEarly.behind {reader inner : List Token → Outcome Expr} {t : Token}
    {rest left : List Token} {fault : Fault} (h : FailsEarly inner)
    (hreader : ∀ other, reader (t :: other) = inner other)
    (hrefused : reader (t :: rest) = .refused fault left) :
    Early reader (t :: rest) fault left := by
  rw [hreader] at hrefused
  exact (h _ _ _ hrefused).behind [t] (stops_of_three_le (Nat.le_refl 3) rest)
    fun other _ => hreader other

/-- **An expression and what is read behind it.** -/
theorem failsEarly_andThen {levels p : Nat} {next : Expr → List Token → Outcome Expr}
    {closing : List Token} (hread : FailsEarly (read levels p))
    (hnext : ∀ e, FailsEarly (next e)) (hcloses : Closes next closing) :
    FailsEarly (fun tokens => (read levels p tokens).andThen next) := by
  intro tokens fault rest h
  cases ho : read levels p tokens with
  | refused first left =>
      simp only [ho, Outcome.andThen_refused] at h
      cases h
      exact (hread _ _ _ ho).within [] (stops_of_three_le (Nat.le_refl 3) tokens)
        (fun _ _ => rfl) hcloses
  | accepted e left =>
      simp only [ho, Outcome.andThen_accepted] at h
      obtain ⟨used, rfl, hleft, hsame⟩ := accepted_in_front_of ho
      refine (hnext e _ _ _ h).behind used hleft fun other hother => ?_
      rw [hsame other hother, Outcome.andThen_accepted]

/-! ## The readers -/

theorem finishes_readPrimary (levels : Nat) : Finishes (readPrimary levels) [] := by
  have hword : Token.Is ⟨.word, "a", 0⟩ .word "a" := ⟨rfl, rfl⟩
  refine ⟨[⟨.word, "a", 0⟩], .leaf ⟨.word, "a", 0⟩, stops_of_ne_symbol hword (Or.inl nofun), ?_⟩
  intro rest _
  exact readPrimary_leaf (Or.inl rfl) levels rest

/-- A tail needs nothing to be complete. -/
theorem closes_readTail (levels p : Nat) : Closes (readTail levels p) [] where
  stops := stops_nil 0
  accepts left := ⟨left, fun _ hrest => readTail_of_stops (hrest.mono (Nat.zero_le p))⟩

/-- The end of a group, behind the expression in it. -/
def endGroup (grouped : Expr) (tokens : List Token) : Outcome Expr :=
  (expectGroupEnd tokens).andThen fun _ left => .accepted grouped left

theorem endGroup_cons {c : Token} (hc : c.Is .operator ")") (grouped : Expr) (rest : List Token) :
    endGroup grouped (c :: rest) = .accepted grouped rest := by
  rw [endGroup, expectGroupEnd_cons hc]
  rfl

/-- A parenthesis ends a group, and no operator can go on with it there. -/
theorem closes_endGroup : Closes endGroup [⟨.operator, ")", 0⟩] := by
  have hc : Token.Is ⟨.operator, ")", 0⟩ .operator ")" := ⟨rfl, rfl⟩
  refine ⟨stops_of_ne_symbol hc (by decide), fun grouped => ⟨grouped, ?_⟩⟩
  intro rest _
  exact endGroup_cons hc grouped rest

/-- Behind the expression in a group nothing but its parenthesis can stand. -/
theorem failsEarly_endGroup (grouped : Expr) : FailsEarly (endGroup grouped) := by
  intro tokens fault rest h
  have hfinishes := closes_endGroup.finishes grouped
  cases tokens with
  | nil =>
      cases h
      exact .atEnd hfinishes
  | cons t left =>
      by_cases hc : t.Is .operator ")"
      · rw [endGroup_cons hc] at h
        cases h
      · have hrefused (other : List Token) :
            endGroup grouped (t :: other) = .refused (.unexpected .groupEnd t) other := by
          have hnot : ¬ t.isExactly .operator ")" = true := mt Token.isExactly_iff.mp hc
          unfold endGroup expectGroupEnd
          simp only [bind_apply, next?_cons, Outcome.andThen_accepted, if_neg hnot, refuse_apply,
            Outcome.andThen_refused]
        rw [hrefused] at h
        cases h
        exact early_first rfl hfinishes hrefused rest

theorem failsEarly_read_of_primary {levels p : Nat} (hprimary : FailsEarly (readPrimary levels))
    (htail : ∀ left, FailsEarly (readTail levels p left)) : FailsEarly (read levels p) := by
  -- a primary is what is read at a precedence above all operators
  have hfirst : read levels 3 = readPrimary levels := funext (read_of_three_le (Nat.le_refl 3))
  rw [← hfirst] at hprimary
  have hread : FailsEarly fun tokens => (read levels 3 tokens).andThen (readTail levels p) :=
    failsEarly_andThen hprimary htail (closes_readTail levels p)
  rw [hfirst] at hread
  exact hread

theorem failsEarly_readPrimary_of_inner {levels : Nat}
    (hprimary : ∀ inner, levels = inner + 1 → FailsEarly (readPrimary inner))
    (hread : ∀ inner, levels = inner + 1 → FailsEarly (read inner 0)) :
    FailsEarly (readPrimary levels) := by
  intro tokens fault rest h
  have hfinishes := finishes_readPrimary levels
  cases tokens with
  | nil =>
      rw [readPrimary_nil] at h
      cases h
      exact .atEnd hfinishes
  | cons t left =>
      rw [readPrimary_cons] at h
      split at h
      · next hcloser =>
          cases h
          refine early_first rfl hfinishes (fun other => ?_) rest
          rw [readPrimary_cons, if_pos hcloser]
      · next hcloser =>
        split at h
        · next hopener =>
            have ho := Token.isDelimiter_iff.mp hopener
            cases levels with
            | zero =>
                cases h
                exact early_first rfl hfinishes (fun other => readPrimary_opener ho 0 other) rest
            | succ inner =>
                refine (hprimary inner rfl).behind (fun other => readPrimary_opener ho _ other) ?_
                rw [readPrimary_opener ho]
                exact h
        · next hopener =>
          split at h
          · next hgroup =>
              have ho := Token.isExactly_iff.mp hgroup
              cases levels with
              | zero =>
                  cases h
                  exact early_first rfl hfinishes (fun other => readPrimary_group ho 0 other) rest
              | succ inner =>
                  have hgrouped :=
                    failsEarly_andThen (hread inner rfl) failsEarly_endGroup closes_endGroup
                  refine hgrouped.behind (fun other => readPrimary_group ho _ other) ?_
                  rw [readPrimary_group ho]
                  exact h
          · next hgroup =>
            split at h
            · cases h
            · next hoperand =>
                cases h
                refine early_first rfl hfinishes (fun other => ?_) rest
                rw [readPrimary_cons, if_neg hcloser, if_neg hopener, if_neg hgroup,
                  if_neg hoperand]

theorem failsEarly_readTail_of_inner {levels : Nat}
    (htail : ∀ inner, levels = inner + 1 → ∀ p left, FailsEarly (readTail inner p left))
    (hread : ∀ inner, levels = inner + 1 → ∀ p, FailsEarly (read inner p)) (p : Nat)
    (left : Expr) : FailsEarly (readTail levels p left) := by
  intro tokens fault rest h
  rcases takeOperator?_cases p tokens with ⟨hstops, _⟩ | ⟨op, t, behind, rfl, hop, hp, _⟩
  · rw [readTail_of_stops hstops] at h
    cases h
  · cases levels with
    | zero =>
        have hreader (other : List Token) :
            readTail 0 p left (t :: other) = .refused (.tooDeep t) other := readTail_operator hop hp
        rw [hreader] at h
        cases h
        exact early_first rfl ((closes_readTail 0 p).finishes left) hreader rest
    | succ inner =>
        have hreader (other : List Token) : readTail (inner + 1) p left (t :: other) =
            (read inner (op.precedence + 1) other).andThen fun right more =>
              readTail inner p (.binary op left right) more := readTail_operator hop hp
        have hcloses :
            Closes (fun right more => readTail inner p (.binary op left right) more) [] :=
          ⟨stops_nil 0, fun right => (closes_readTail inner p).accepts (.binary op left right)⟩
        have hright : FailsEarly fun other =>
            (read inner (op.precedence + 1) other).andThen fun right more =>
              readTail inner p (.binary op left right) more :=
          failsEarly_andThen (hread inner rfl (op.precedence + 1))
            (fun right => htail inner rfl p (.binary op left right)) hcloses
        exact hright.behind hreader h

/-- Primaries and tails fail early, at every level. -/
theorem failsEarly_readPrimary_and_readTail (levels : Nat) :
    FailsEarly (readPrimary levels) ∧ ∀ p left, FailsEarly (readTail levels p left) := by
  induction levels with
  | zero => exact ⟨failsEarly_readPrimary_of_inner nofun nofun,
      failsEarly_readTail_of_inner nofun nofun⟩
  | succ levels ih =>
      obtain ⟨hprimary, htail⟩ := ih
      have hread (p : Nat) : FailsEarly (read levels p) :=
        failsEarly_read_of_primary hprimary (htail p)
      constructor
      · refine failsEarly_readPrimary_of_inner ?_ ?_
        · rintro inner ⟨⟩
          exact hprimary
        · rintro inner ⟨⟩
          exact hread 0
      · refine failsEarly_readTail_of_inner ?_ ?_
        · rintro inner ⟨⟩
          exact htail
        · rintro inner ⟨⟩
          exact hread

/-- **Expressions fail early**, at every level. -/
theorem failsEarly_read (levels p : Nat) : FailsEarly (read levels p) := by
  obtain ⟨hprimary, htail⟩ := failsEarly_readPrimary_and_readTail levels
  exact failsEarly_read_of_primary hprimary (htail p)

end Expr

/-! ## Streams -/

namespace TokenStream

section ReadExpr

variable {options : Options} {p : Nat} {s : TokenStream} {rest : List Token}

theorem readExpr_of_accepted {e : Expr}
    (h : Expr.read options.maxDepth p s.remaining = .accepted e rest) :
    s.readExpr options p = (.ok e, s.leaving rest.length) := by
  simp only [readExpr, read, h]

theorem readExpr_of_refused {fault : Fault}
    (h : Expr.read options.maxDepth p s.remaining = .refused fault rest) :
    s.readExpr options p =
      (.error (fault.toError s.source options.maxDepth), s.leaving rest.length) := by
  simp only [readExpr, read, h]

end ReadExpr

/-- **`Completable options p begun`** — with some tokens behind `begun` there is an expression: from
every stream that goes on with just these tokens it is read, and nothing is left. -/
def Completable (options : Options) (p : Nat) (begun : List Token) : Prop :=
  ∃ more e, begun ++ more ≠ [] ∧ ∀ s : TokenStream, s.remaining = begun ++ more →
    (s.readExpr options p).1 = .ok e ∧ (s.readExpr options p).2.isExhausted = true

theorem completable_of_finishes {options : Options} {p : Nat} {begun : List Token}
    (h : Expr.Finishes (Expr.read options.maxDepth p) begun) : Completable options p begun := by
  obtain ⟨more, e, -, hread⟩ := h
  have hwhole := hread [] (Expr.stops_nil 0)
  rw [List.append_nil] at hwhole
  refine ⟨more, e, ?_, fun s hs => ?_⟩
  · intro hnil
    rw [hnil] at hwhole
    obtain ⟨first, left, hfirst, -⟩ := Outcome.andThen_eq_accepted_iff.mp hwhole
    rw [Expr.readPrimary_nil] at hfirst
    cases hfirst
  · rw [← hs] at hwhole
    rw [readExpr_of_accepted hwhole]
    simp [isExhausted, leaving]

/-- Streams with the cursor at one place and the same tokens from there on go on alike. -/
theorem remaining_of_agree {s s' : TokenStream} {begun rest : List Token}
    (h : s.remaining = begun ++ rest) (hposition : s'.position = s.position)
    (hagree : ∀ k, s.position ≤ k → k < s.position + begun.length →
      s'.tokens[k]? = s.tokens[k]?) :
    ∃ other, s'.remaining = begun ++ other := by
  have htake : s'.remaining.take begun.length = begun := by
    apply List.ext_getElem?
    intro k
    rw [List.getElem?_take]
    split
    · next hk =>
        have hs : s.remaining[k]? = begun[k]? := by
          rw [h, List.getElem?_append_left hk]
        rw [remaining, List.getElem?_drop] at hs
        rw [remaining, List.getElem?_drop, hposition, hagree _ (by omega) (by omega), hs]
    · next hk => rw [List.getElem?_eq_none (by omega)]
  have hsplit := List.take_append_drop begun.length s'.remaining
  rw [htake] at hsplit
  exact ⟨_, hsplit.symm⟩

/-- **An expression is refused at the first hopeless token.** Reading fails either because the
tokens have run out, and then those that were read can be completed under the same limit, or at the
token read last. Then the tokens in front of it can be completed under the same limit, and with it
behind them reading fails on every stream, with the same error. -/
theorem readExpr_fails_earliest (options : Options) (p : Nat) (s : TokenStream)
    (e : CompileError) (j : Nat) (herror : (s.readExpr options p).1 = .error e)
    (hj : (s.readExpr options p).2.position = j) :
    (e = .located .missingOperand s.source.endSpan s.source ∧ j = s.size ∧
      Completable options p (s.upTo j)) ∨
    ∃ t problem, s.position < j ∧ s.tokens[j - 1]? = some t ∧
      e = .located problem t.span s.source ∧ Completable options p (s.upTo (j - 1)) ∧
      ∀ s' : TokenStream, s'.position = s.position →
        (∀ k, s.position ≤ k → k < j → s'.tokens[k]? = s.tokens[k]?) →
          (s'.readExpr options p).1 = .error (.located problem t.span s'.source) := by
  have hlength := s.length_remaining
  have hposition := s.position_le
  cases ho : Expr.read options.maxDepth p s.remaining with
  | accepted value rest =>
      rw [readExpr_of_accepted ho] at herror
      cases herror
  | refused fault rest =>
      have hearly := Expr.failsEarly_read options.maxDepth p _ _ _ ho
      rw [readExpr_of_refused ho] at herror hj
      cases herror
      have hleaving : s.tokens.length - rest.length = j := hj
      generalize hremaining : s.remaining = tokens at hearly
      cases hearly with
      | atEnd hfinishes =>
          have hend : j = s.size := hleaving.symm
          have hall : s.upTo j = s.remaining := by
            apply List.take_of_length_le
            rw [hlength, hend]
            exact Nat.le_refl _
          rw [hall, hremaining]
          exact Or.inl ⟨rfl, hend, completable_of_finishes hfinishes⟩
      | @atToken begun rest t fault hplace hfinishes hrefused =>
          obtain ⟨problem, hproblem⟩ := Fault.exists_problem hplace options.maxDepth
          rw [hremaining, List.length_append, List.length_cons] at hlength
          have hbegun : s.upTo (j - 1) = begun := by
            rw [upTo, hremaining]
            exact List.take_left' (by omega)
          have htoken : s.tokens[j - 1]? = some t := by
            have hat : s.remaining[begun.length]? = some t := by simp [hremaining]
            rw [remaining, List.getElem?_drop] at hat
            rwa [show j - 1 = s.position + begun.length by omega]
          have hcompletable : Completable options p (s.upTo (j - 1)) :=
            hbegun ▸ completable_of_finishes hfinishes
          refine Or.inr ⟨t, problem, by omega, htoken, hproblem s.source, hcompletable, ?_⟩
          intro s' hstart hagree
          have hread : s.remaining = begun ++ [t] ++ rest := by simp [hremaining]
          obtain ⟨other, hother⟩ := remaining_of_agree hread hstart fun k hfrom hto => by
            rw [List.length_append, List.length_singleton] at hto
            exact hagree k hfrom (by omega)
          rw [List.append_assoc, List.singleton_append] at hother
          have hfails : Expr.read options.maxDepth p s'.remaining = .refused fault other := by
            rw [hother]
            exact hrefused other
          rw [readExpr_of_refused hfails, hproblem]

/-- The tokens of `{{ ( a + b c }}` with the cursor behind the opener. -/
def openGroupStream : TokenStream where
  source := ⟨"template", "\x7b\x7b ( a + b c \x7d\x7d"⟩
  tokens :=
    [⟨.delimiter, "\x7b\x7b", 0⟩, ⟨.operator, "(", 3⟩, ⟨.word, "a", 5⟩, ⟨.operator, "+", 7⟩,
      ⟨.word, "b", 9⟩, ⟨.word, "c", 11⟩, ⟨.delimiter, "\x7d\x7d", 13⟩]
  position := 1
  tokens_ne_nil := by decide
  position_le := by decide

/-- The group and the sum in it take the two levels that there are. The word `c` is refused, the
tokens in front of it can be completed with these levels, and no tokens can with `c`. -/
theorem openGroupStream_fails_earliest :
    (openGroupStream.readExpr ⟨2, "template"⟩ 0).1 = .error
        (.located (.unexpectedToken .groupEnd "c") ⟨11, 1⟩ openGroupStream.source) ∧
      Completable ⟨2, "template"⟩ 0 (openGroupStream.upTo 5) ∧
      ∀ s' : TokenStream, s'.position = 1 →
        (∀ k, 1 ≤ k → k < 6 → s'.tokens[k]? = openGroupStream.tokens[k]?) →
          (s'.readExpr ⟨2, "template"⟩ 0).1 = .error
            (.located (.unexpectedToken .groupEnd "c") ⟨11, 1⟩ s'.source) := by
  have hread : Expr.read 2 0 openGroupStream.remaining =
      .refused (.unexpected .groupEnd ⟨.word, "c", 11⟩) [⟨.delimiter, "\x7d\x7d", 13⟩] := by cbv
  have herror : (openGroupStream.readExpr ⟨2, "template"⟩ 0).1 = .error
      (.located (.unexpectedToken .groupEnd "c") ⟨11, 1⟩ openGroupStream.source) := by
    rw [readExpr_of_refused hread]
    rfl
  have hposition : (openGroupStream.readExpr ⟨2, "template"⟩ 0).2.position = 6 := by
    decide +kernel
  rcases readExpr_fails_earliest ⟨2, "template"⟩ 0 openGroupStream _ 6 herror hposition with
    ⟨hend, -, -⟩ | ⟨t, problem, -, -, hat, hcompletable, hfails⟩
  · cases hend
  · injection hat with hproblem hspan
    rw [← hproblem, ← hspan] at hfails
    exact ⟨herror, hcompletable, hfails⟩

end TokenStream

end TemplateLang

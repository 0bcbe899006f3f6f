import TemplateLang.Proofs.Diagnostic.Earliest
import TemplateLang.Proofs.Lookahead

/-!
# TemplateLang.Proofs.Progress — where the cursor stops, and what has been looked at

Whoever reads an expression from a stream goes on behind it, and two things make this safe. Reading
uses up a token, whether it succeeds or fails, so going on comes to an end. And the token under the
cursor is the last that reading has looked at, so what stands behind it is still open. Main
statement (`readExpr_stops_behind`): both hold of every run that begins in front of a token; in
particular two streams with the same tokens from the cursor to the place where one run stops, that
place included, give the same run, but for the source that an error shows.

The second is the lookahead of one token, brought to streams. An error that asks for the end of the
source would not be the same in another source, but reading fails so only if no token is left
(`exists_place_of_refused`).
-/

namespace TemplateLang

open TokenReader

namespace Expr

/-- **Reading an expression uses up a token**, if there is one. -/
theorem length_rest_lt (levels p : Nat) {tokens : List Token} (h : tokens ≠ []) :
    (read levels p tokens).rest.length < tokens.length := by
  cases ho : read levels p tokens with
  | accepted e rest =>
      obtain ⟨used, rfl, ⟨d, _⟩, _⟩ := read_eq_accepted_iff_need.mp ho
      have hused := d.need_lt_length
      show rest.length < _
      rw [List.length_append]
      omega
  | refused fault rest =>
      show rest.length < _
      cases failsEarly_read levels p _ _ _ ho with
      | atEnd _ => exact List.length_pos_iff.mpr h
      | atToken _ _ _ =>
          rw [List.length_append, List.length_cons]
          omega

/-- With a token left, a fault is about a token. -/
theorem exists_place_of_refused {levels p : Nat} {tokens rest : List Token} {fault : Fault}
    (h : read levels p tokens = .refused fault rest) (hrest : rest ≠ []) :
    ∃ t, fault.place? = some t := by
  cases failsEarly_read levels p _ _ _ h with
  | atEnd _ => exact absurd rfl hrest
  | atToken hplace _ _ => exact ⟨_, hplace⟩

end Expr

/-- The error, shown in another source. -/
def CompileError.inSource (source : Source) : CompileError → CompileError
  | .emptyInput name => .emptyInput name
  | .located problem span _ => .located problem span source

namespace TokenStream

variable {options : Options} {p : Nat} {s s' : TokenStream}

theorem readExpr_snd :
    (s.readExpr options p).2 =
      s.leaving (Expr.read options.maxDepth p s.remaining).rest.length := by
  cases ho : Expr.read options.maxDepth p s.remaining with
  | accepted e rest => rw [readExpr_of_accepted ho, Outcome.rest]
  | refused fault rest => rw [readExpr_of_refused ho, Outcome.rest]

/-- Two outcomes that differ only in what they leave behind a token are one result. -/
theorem readExpr_fst_of_leaving {next : Token} {behind other : List Token}
    (hrest : (Expr.read options.maxDepth p s.remaining).rest = next :: behind)
    (hsame : Expr.read options.maxDepth p s'.remaining =
      (Expr.read options.maxDepth p s.remaining).leaving (next :: other)) :
    (s'.readExpr options p).1 =
      (s.readExpr options p).1.mapError (CompileError.inSource s'.source) := by
  cases ho : Expr.read options.maxDepth p s.remaining with
  | accepted e rest =>
      rw [ho] at hsame
      rw [readExpr_of_accepted ho, readExpr_of_accepted hsame]
      rfl
  | refused fault rest =>
      rw [ho] at hsame hrest
      have hne : rest ≠ [] := by
        rw [show rest = next :: behind from hrest]
        exact List.cons_ne_nil next behind
      obtain ⟨t, ht⟩ := Expr.exists_place_of_refused ho hne
      obtain ⟨problem, hproblem⟩ := Fault.exists_problem ht options.maxDepth
      rw [readExpr_of_refused ho, readExpr_of_refused hsame, hproblem, hproblem]
      rfl

/-- From in front of a token the cursor moves on, within the stream. -/
theorem position_lt_readExpr (hstart : s.position < s.size) :
    s.position < (s.readExpr options p).2.position ∧
      (s.readExpr options p).2.position ≤ s.size := by
  have hlength := s.length_remaining
  have hne : s.remaining ≠ [] := by
    rw [← List.length_pos_iff, hlength]
    exact Nat.sub_pos_of_lt hstart
  have hprogress := Expr.length_rest_lt options.maxDepth p hne
  rw [readExpr_snd]
  show s.position < s.tokens.length - _ ∧ s.tokens.length - _ ≤ s.tokens.length
  omega

/-- What stands behind the token under the cursor has not been looked at. -/
theorem readExpr_eq_of_agree (hinside : (s.readExpr options p).2.position < s.size)
    (hposition : s'.position = s.position)
    (hagree : ∀ k, s.position ≤ k → k ≤ (s.readExpr options p).2.position →
      s'.tokens[k]? = s.tokens[k]?) :
    (s'.readExpr options p).1 =
        (s.readExpr options p).1.mapError (CompileError.inSource s'.source) ∧
      (s'.readExpr options p).2.position = (s.readExpr options p).2.position := by
  have hlength := s.length_remaining
  have hplace : (s.readExpr options p).2.position =
      s.tokens.length - (Expr.read options.maxDepth p s.remaining).rest.length := by
    rw [readExpr_snd]
    rfl
  unfold size at hinside
  obtain ⟨next, behind, hrest⟩ :
      ∃ next behind, (Expr.read options.maxDepth p s.remaining).rest = next :: behind := by
    apply List.exists_cons_of_length_pos
    omega
  obtain ⟨used, hused⟩ := Expr.leavesSuffix_read options.maxDepth p s.remaining
  rw [hrest] at hused hplace
  rw [← hused, List.length_append] at hlength
  rw [List.length_cons] at hlength hplace
  have hsplit : s.remaining = used ++ [next] ++ behind := by simp [← hused]
  obtain ⟨other, hother⟩ := remaining_of_agree hsplit hposition fun k hfrom hto => by
    rw [List.length_append, List.length_singleton] at hto
    exact hagree k hfrom (by omega)
  rw [List.append_assoc, List.singleton_append] at hother
  have hsame : Expr.read options.maxDepth p s'.remaining =
      (Expr.read options.maxDepth p s.remaining).leaving (next :: other) := by
    have hlook := (Expr.looksOneAhead_read options.maxDepth p).same used next behind other
    rw [hused, ← hother] at hlook
    exact hlook hrest
  refine ⟨readExpr_fst_of_leaving hrest hsame, ?_⟩
  have hlength' := s'.length_remaining
  rw [hother, List.length_append, List.length_cons] at hlength'
  rw [hplace, readExpr_snd, hsame, Outcome.rest_leaving]
  show s'.tokens.length - (other.length + 1) = _
  omega

/-- **Reading stops behind what it has used, and has looked at one token more.** From in front of a
token the cursor moves on, within the stream, and nothing else of the stream changes. If a token
remains, every stream with the same tokens through this one, and with its cursor at the same place,
gives the same tree or the same error, shown in its own source, and leaves its cursor at the same
place. -/
theorem readExpr_stops_behind (options : Options) (p : Nat) (s : TokenStream) (j : Nat)
    (hstart : s.position < s.size) (hj : (s.readExpr options p).2.position = j) :
    s.position < j ∧ j ≤ s.size ∧
      (s.readExpr options p).2.tokens = s.tokens ∧ (s.readExpr options p).2.source = s.source ∧
      (j < s.size → ∀ s' : TokenStream, s'.position = s.position →
        (∀ k, s.position ≤ k → k ≤ j → s'.tokens[k]? = s.tokens[k]?) →
          (s'.readExpr options p).1 =
              (s.readExpr options p).1.mapError (CompileError.inSource s'.source) ∧
            (s'.readExpr options p).2.position = j) := by
  obtain ⟨hlt, hle⟩ := s.position_lt_readExpr hstart
  subst hj
  refine ⟨hlt, hle, ?_, ?_, fun hinside s' => readExpr_eq_of_agree hinside⟩
  · rw [readExpr_snd, tokens_leaving]
  · rw [readExpr_snd, source_leaving]

/-- The tokens of `{{ a + b }} c` with the cursor behind the opener. -/
def sumStream : TokenStream where
  source := ⟨"template", "\x7b\x7b a + b \x7d\x7d c"⟩
  tokens :=
    [⟨.delimiter, "\x7b\x7b", 0⟩, ⟨.word, "a", 3⟩, ⟨.operator, "+", 5⟩, ⟨.word, "b", 7⟩,
      ⟨.delimiter, "\x7d\x7d", 9⟩, ⟨.text, "c", 12⟩]
  position := 1
  tokens_ne_nil := by decide
  position_le := by decide

/-- The sum is read up to the closer, from every stream that has it up to there. -/
theorem sumStream_stops_behind :
    sumStream.position < sumStream.size ∧
      (sumStream.readExpr ⟨1, "template"⟩ 0).2.position = 4 ∧ 4 < sumStream.size ∧
      ∀ s' : TokenStream, s'.position = 1 →
        (∀ k, 1 ≤ k → k ≤ 4 → s'.tokens[k]? = sumStream.tokens[k]?) →
          (s'.readExpr ⟨1, "template"⟩ 0).1 =
              .ok (.binary .add (.leaf ⟨.word, "a", 3⟩) (.leaf ⟨.word, "b", 7⟩)) ∧
            (s'.readExpr ⟨1, "template"⟩ 0).2.position = 4 := by
  have hstart : sumStream.position < sumStream.size := by decide
  have hinside : 4 < sumStream.size := by decide
  have hread : (sumStream.readExpr ⟨1, "template"⟩ 0).1 =
      .ok (.binary .add (.leaf ⟨.word, "a", 3⟩) (.leaf ⟨.word, "b", 7⟩)) := by cbv
  have hposition : (sumStream.readExpr ⟨1, "template"⟩ 0).2.position = 4 := by decide +kernel
  obtain ⟨_, _, _, _, hsame⟩ :=
    readExpr_stops_behind ⟨1, "template"⟩ 0 sumStream 4 hstart hposition
  refine ⟨hstart, hposition, hinside, fun s' hs' hagree => ?_⟩
  have hother := hsame hinside s' hs' hagree
  rw [hread] at hother
  exact hother

end TokenStream

end TemplateLang

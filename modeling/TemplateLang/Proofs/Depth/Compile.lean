import TemplateLang.Proofs.Depth.Limit
import TemplateLang.Proofs.Entry

/-!
# TemplateLang.Proofs.Depth.Compile — one source under two limits

Compiling under a limit comes to one of two ends: to what it would come to without a limit, or to
the refusal that the nesting is too deep. `DepthLimited` says this of compiling as a function of the
limit: a tree or an error that is no refusal stays the same, to the last field, under every greater
limit; a refusal names the limit that was set; and from as many levels as tokens on there is no
refusal. Main statement (`compile_depthLimited`): both entry points are so, for every source.

The limit reaches a reader as its levels, so the first part is `Approximates` carried from the
outcomes of readers to the results of streams. The limit also stands in the error of a refusal and
in no other error, which is why results that are no refusals agree as they are.
-/

namespace TemplateLang

/-! ## Results of a stream -/

/-- A fault other than the refusal makes the same error under every limit. -/
theorem Fault.toError_eq_of_ne_tooDeep {fault : Fault} (h : ∀ place, fault ≠ .tooDeep place)
    (source : Source) (limit more : Nat) :
    fault.toError source more = fault.toError source limit := by
  cases fault with
  | tooDeep place => exact absurd rfl (h place)
  | endsEarly => rfl
  | missingOperand closer => rfl
  | unexpected expected found => rfl
  | malformed fault place => rfl

namespace TokenStream

variable {α : Type} {reader : Nat → TokenReader α} {options more : Options} {s : TokenStream}

/-- A result that is no refusal, and the cursor behind it, are those of every limit that the reader
approximates. -/
theorem read_eq_of_approximates
    (h : TokenReader.Approximates (reader options.maxDepth) (reader more.maxDepth))
    (hlimit : ¬ ReportsTooDeep (s.read options reader).1) :
    s.read more reader = s.read options reader := by
  rw [reportsTooDeep_read_iff] at hlimit
  have heq := (h s.remaining).eq_of_not_tooDeep hlimit
  unfold read
  rw [← heq]
  cases ho : reader options.maxDepth s.remaining with
  | accepted value rest => rfl
  | refused fault rest =>
      have hfault : ∀ place, fault ≠ .tooDeep place := by
        rintro place rfl
        exact hlimit ⟨place, rest, ho⟩
      simp only [Fault.toError_eq_of_ne_tooDeep hfault s.source options.maxDepth more.maxDepth]

/-- A refusal names the limit of the options. -/
theorem limit_of_read {reported : Nat} {span : Span} {source : Source}
    (h : (s.read options reader).1 = .error (.located (.nestingTooDeep reported) span source)) :
    reported = options.maxDepth := by
  unfold read at h
  split at h
  · cases h
  · next fault rest _ =>
      cases fault with
      | tooDeep place =>
          cases h
          rfl
      | endsEarly => cases h
      | missingOperand closer => cases h
      | unexpected expected found => cases h
      | malformed fault place => cases h

/-- Tokenizing never refuses for the depth. -/
theorem not_tooDeep_of_ofSource {source : Source} {e : CompileError}
    (h : ofSource source = .error e) (limit : Nat) (span : Span) (place : Source) :
    e ≠ .located (.nestingTooDeep limit) span place := by
  rintro rfl
  unfold ofSource ofTokens at h
  simp only at h
  split at h
  · cases h
  · cases h
  · split at h <;> cases h

end TokenStream

/-! ## Compiling -/

/-- The number of tokens of a source. A source that does not tokenize has none. -/
def Source.tokenCount (source : Source) : Nat :=
  match TokenStream.ofSource source with
  | .error _ => 0
  | .ok stream => stream.size

/-- **`DepthLimited compile tokens`** — the limit decides between the result that greater limits
give and the refusal, and `tokens` levels are enough. -/
structure DepthLimited {α : Type} (compile : Nat → Except CompileError α) (tokens : Nat) :
    Prop where
  /-- A result that is no refusal is the result under every greater limit. -/
  stable : ∀ limit more, limit ≤ more → ¬ ReportsTooDeep (compile limit) →
    compile more = compile limit
  /-- A refusal names the limit that was set. -/
  named : ∀ limit reported span source,
    compile limit = .error (.located (.nestingTooDeep reported) span source) → reported = limit
  /-- With a level for every token there is no refusal. -/
  enough : ∀ limit, tokens ≤ limit → ¬ ReportsTooDeep (compile limit)

/-- Compiling is limited by the depth alone if its reader is. -/
theorem depthLimited_compileWith {α : Type} {reader : Nat → TokenReader α}
    (happroximates : ∀ {levels more : Nat}, levels ≤ more →
      TokenReader.Approximates (reader levels) (reader more))
    (hfits : ∀ levels, TokenReader.Fits levels (reader levels)) (text name : String) :
    DepthLimited (fun limit => compileWith reader text ⟨limit, name⟩)
      (Source.tokenCount ⟨name, text⟩) := by
  unfold Source.tokenCount
  cases hsource : TokenStream.ofSource ⟨name, text⟩ with
  | error e =>
      have hresult (limit : Nat) : compileWith reader text ⟨limit, name⟩ = .error e :=
        compileWith_of_error hsource
      refine ⟨?_, ?_, ?_⟩
      · intro limit more _ _
        rw [hresult, hresult]
      · intro limit reported span source h
        rw [hresult] at h
        cases h
        exact absurd rfl (TokenStream.not_tooDeep_of_ofSource hsource _ _ _)
      · rintro limit - ⟨reported, span, source, h⟩
        rw [hresult] at h
        cases h
        exact absurd rfl (TokenStream.not_tooDeep_of_ofSource hsource _ _ _)
  | ok stream =>
      have hresult (limit : Nat) : compileWith reader text ⟨limit, name⟩ =
          (stream.read ⟨limit, name⟩ reader).1 := compileWith_of_ok hsource
      have hremaining : stream.remaining.length = stream.size :=
        congrArg List.length (TokenStream.remaining_of_ofSource hsource).2
      refine ⟨?_, ?_, ?_⟩
      · intro limit more hle hlimit
        rw [hresult] at hlimit ⊢
        rw [hresult, TokenStream.read_eq_of_approximates (happroximates hle) hlimit]
      · intro limit reported span source h
        rw [hresult] at h
        exact TokenStream.limit_of_read h
      · intro limit hle hlimit
        rw [hresult, TokenStream.reportsTooDeep_read_iff] at hlimit
        exact (hfits limit stream.remaining (by rw [hremaining]; exact hle)).1 hlimit

/-- **The depth limit only chooses between the unlimited outcome and the refusal**, for templates
and for expressions. -/
theorem compile_depthLimited (text name : String) :
    DepthLimited (fun limit => compileTemplate text ⟨limit, name⟩)
        (Source.tokenCount ⟨name, text⟩) ∧
      DepthLimited (fun limit => compileExpr text ⟨limit, name⟩)
        (Source.tokenCount ⟨name, text⟩) := by
  simp only [compileTemplate_eq_compileWith, compileExpr_eq_compileWith]
  constructor
  · exact depthLimited_compileWith Template.approximates_read Template.fits_read text name
  · exact depthLimited_compileWith (fun hle => Expr.approximates_read hle 0)
      (fun levels => Expr.fits_read levels 0) text name

/-- The chain of two operators has five tokens, but two levels are enough for it and one is not. -/
example :
    (compileExpr "\x7b\x7b a - b - c \x7d\x7d" ⟨1, "chain"⟩).toOption = none ∧
      (compileExpr "\x7b\x7b a - b - c \x7d\x7d" ⟨2, "chain"⟩).toOption ≠ none := by
  decide +kernel

end TemplateLang

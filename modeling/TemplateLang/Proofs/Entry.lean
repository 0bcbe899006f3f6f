import TemplateLang.Compile

/-!
# TemplateLang.Proofs.Entry — the two entry points as one

A template and an expression are compiled in the same way, but for the reader: the text is
tokenized, and the reader is run on its tokens from the first one on. `compileWith` is this with any
reader. What holds of every reader is proved of it once and then read off for both entry points.
-/

namespace TemplateLang

/-- **`compileWith reader text options`** — tokenizes a text and runs the reader on its tokens. -/
def compileWith {α : Type} (reader : Nat → TokenReader α) (text : String) (options : Options) :
    Except CompileError α :=
  match TokenStream.ofSource ⟨options.name, text⟩ with
  | .error e => .error e
  | .ok stream => (stream.read options reader).1

theorem compileExpr_eq_compileWith (text : String) (options : Options) :
    compileExpr text options = compileWith (fun levels => Expr.read levels 0) text options := rfl

theorem compileTemplate_eq_compileWith (text : String) (options : Options) :
    compileTemplate text options = compileWith Template.read text options := rfl

section CompileWith

variable {α : Type} {reader : Nat → TokenReader α} {text : String} {options : Options}

theorem compileWith_of_error {e : CompileError}
    (h : TokenStream.ofSource ⟨options.name, text⟩ = .error e) :
    compileWith reader text options = .error e := by
  unfold compileWith
  rw [h]

theorem compileWith_of_ok {stream : TokenStream}
    (h : TokenStream.ofSource ⟨options.name, text⟩ = .ok stream) :
    compileWith reader text options = (stream.read options reader).1 := by
  unfold compileWith
  rw [h]

end CompileWith

namespace TokenStream

variable {source : Source} {stream : TokenStream}

theorem tokens_of_ofSource (h : ofSource source = .ok stream) :
    stream.tokens = (Scan.ofText source.text).tokens := by
  obtain ⟨_, _, rfl⟩ := ofSource_eq_ok_iff.mp h
  rfl

/-- All tokens of a new stream are ahead. -/
theorem remaining_of_ofSource (h : ofSource source = .ok stream) :
    stream.source = source ∧ stream.remaining = stream.tokens := by
  obtain ⟨_, _, rfl⟩ := ofSource_eq_ok_iff.mp h
  exact ⟨rfl, rfl⟩

/-- A scan that is complete and not empty makes a stream. -/
theorem exists_of_scan {text : String} {tokens : List Token}
    (h : Scan.ofText text = ⟨tokens, .complete⟩) (hne : tokens ≠ []) (name : String) :
    ∃ stream, ofSource ⟨name, text⟩ = .ok stream ∧ stream.tokens = tokens :=
  ⟨_, ofSource_of_scan h hne, rfl⟩

end TokenStream

/-- A text compiles exactly when it tokenizes and the reader accepts its tokens. -/
theorem compileWith_eq_ok_iff {α : Type} {reader : Nat → TokenReader α} {text : String}
    {options : Options} {value : α} :
    compileWith reader text options = .ok value ↔
      ∃ stream left, TokenStream.ofSource ⟨options.name, text⟩ = .ok stream ∧
        reader options.maxDepth stream.tokens = .accepted value left := by
  cases hsource : TokenStream.ofSource ⟨options.name, text⟩ with
  | error e => simp [compileWith_of_error hsource]
  | ok stream =>
      rw [compileWith_of_ok hsource, TokenStream.read, (TokenStream.remaining_of_ofSource hsource).2]
      constructor
      · intro h
        cases ho : reader options.maxDepth stream.tokens with
        | refused fault left =>
            rw [ho] at h
            cases h
        | accepted found left =>
            rw [ho] at h
            cases h
            exact ⟨stream, left, rfl, ho⟩
      · rintro ⟨_, left, hstream, ho⟩
        cases hstream
        rw [ho]

/-- A text fails to compile exactly when it does not tokenize or the reader refuses its tokens. -/
theorem compileWith_eq_error_iff {α : Type} {reader : Nat → TokenReader α} {text : String}
    {options : Options} {e : CompileError} :
    compileWith reader text options = .error e ↔
      TokenStream.ofSource ⟨options.name, text⟩ = .error e ∨
        ∃ stream fault left, TokenStream.ofSource ⟨options.name, text⟩ = .ok stream ∧
          reader options.maxDepth stream.tokens = .refused fault left ∧
            e = fault.toError ⟨options.name, text⟩ options.maxDepth := by
  cases hsource : TokenStream.ofSource ⟨options.name, text⟩ with
  | error e' => simp [compileWith_of_error hsource]
  | ok stream =>
      obtain ⟨hplace, htokens⟩ := TokenStream.remaining_of_ofSource hsource
      rw [compileWith_of_ok hsource, TokenStream.read, htokens, hplace]
      constructor
      · intro h
        cases ho : reader options.maxDepth stream.tokens with
        | accepted found left =>
            rw [ho] at h
            cases h
        | refused fault left =>
            rw [ho] at h
            cases h
            exact .inr ⟨stream, fault, left, rfl, ho, rfl⟩
      · rintro (h | ⟨_, fault, left, hstream, ho, rfl⟩)
        · cases h
        · cases hstream
          rw [ho]

section Scanned

variable {α : Type} {reader : Nat → TokenReader α} {text : String} {options : Options}
  {tokens left : List Token} (hscan : Scan.ofText text = ⟨tokens, .complete⟩) (hne : tokens ≠ [])

include hscan hne

/-- A text compiles to what the reader makes of the tokens of its scan. -/
theorem compileWith_of_accepted {value : α}
    (h : reader options.maxDepth tokens = .accepted value left) :
    compileWith reader text options = .ok value := by
  obtain ⟨stream, hstream, rfl⟩ := TokenStream.exists_of_scan hscan hne options.name
  exact compileWith_eq_ok_iff.mpr ⟨stream, left, hstream, h⟩

/-- A text fails to compile with the fault that the reader finds in the tokens of its scan. -/
theorem compileWith_of_refused {fault : Fault} {e : CompileError}
    (h : reader options.maxDepth tokens = .refused fault left)
    (he : e = fault.toError ⟨options.name, text⟩ options.maxDepth) :
    compileWith reader text options = .error e := by
  obtain ⟨stream, hstream, rfl⟩ := TokenStream.exists_of_scan hscan hne options.name
  exact compileWith_eq_error_iff.mpr (.inr ⟨stream, fault, left, hstream, h, he⟩)

end Scanned

end TemplateLang

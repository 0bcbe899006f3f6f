import TemplateLang.Proofs.Depth.Threshold

/-!
# TemplateLang.Proofs.Grammar.Template — what a stream is read as is what derives it

Main statement (`readTemplate_ok_iff_derives`): short of the depth limit, a stream is read as a
template exactly when what remains of it derives the template. What is read is derived because nodes
span their tokens; what is derived is read because the limit decides about every derivation, and
nothing but a refusal for want of levels can come in between.
-/

namespace TemplateLang

open TokenReader

namespace Template

/-- A template is the nodes up to the end of the tokens. -/
theorem read_eq_accepted_iff {levels : Nat} {tokens rest : List Token} {nodes : Template} :
    read levels tokens = .accepted nodes rest ↔
      readNodes levels tokens = .accepted ⟨nodes, none⟩ rest := by
  unfold read
  rw [bind_apply, Outcome.andThen_eq_accepted_iff]
  constructor
  · rintro ⟨⟨inner, endTag⟩, left, hwhole, hend⟩
    cases endTag with
    | none =>
        cases hend
        exact hwhole
    | some keyword => cases hend
  · intro h
    exact ⟨_, _, h, rfl⟩

/-- What a template is read from derives it, and is all there is. -/
theorem derives_of_read {levels : Nat} {tokens rest : List Token} {nodes : Template}
    (h : read levels tokens = .accepted nodes rest) : Derives tokens nodes ∧ rest = [] := by
  obtain ⟨⟨inner, endTag⟩, left, hwhole, hend⟩ := Outcome.andThen_eq_accepted_iff.mp h
  obtain ⟨used, behind, rfl, hused, hbehind⟩ := spans_of_readNodes hwhole
  cases hbehind with
  | atEnd =>
      cases hend
      exact ⟨by simpa using hused, rfl⟩
  | endTag ho hk hc => cases hend

/-- What derives a template is read as it, to the end. -/
theorem approximates_read_of_derives {tokens : List Token} {nodes : Template}
    (h : Derives tokens nodes) (levels : Nat) :
    (read levels tokens).Approximates (.accepted nodes []) := by
  obtain ⟨d⟩ := nonempty_derivation_iff.mpr h
  exact (d.decided_read levels).approximates

/-- No token derives no node. -/
theorem Derives.eq_nil {nodes : Template} (h : Derives [] nodes) : nodes = [] := by
  cases h with
  | nil => rfl

end Template

/-! ## Streams -/

namespace TokenStream

/-- With a level for every token, what derives a template is read as it. -/
theorem readTemplate_of_derives {options : Options} {s : TokenStream} {nodes : Template}
    (h : Template.Derives s.remaining nodes) (hlevels : s.remaining.length ≤ options.maxDepth) :
    (s.readTemplate options).1 = .ok nodes := by
  have hfits := (Template.fits_read options.maxDepth s.remaining hlevels).1
  have hread := (Template.approximates_read_of_derives h options.maxDepth).eq_of_not_tooDeep hfits
  unfold readTemplate read
  rw [hread]

/-- **Preprocessing reads the template grammar.** Unless the nesting exceeds the limit, a stream is
read as a template exactly when the tokens from the cursor to the end derive it; and whenever a
template is read the stream is used up. -/
theorem readTemplate_ok_iff_derives (options : Options) (s : TokenStream) (nodes : Template)
    (hlimit : ¬ ReportsTooDeep (s.readTemplate options).1) :
    ((s.readTemplate options).1 = .ok nodes ↔ Template.Derives s.remaining nodes) ∧
      ((s.readTemplate options).1 = .ok nodes →
        (s.readTemplate options).2.isExhausted = true) := by
  have hdeep : ¬ (Template.read options.maxDepth s.remaining).TooDeep := by
    rwa [readTemplate, reportsTooDeep_read_iff] at hlimit
  have haccepted (h : (s.readTemplate options).1 = .ok nodes) :
      Template.read options.maxDepth s.remaining = .accepted nodes [] := by
    unfold readTemplate read at h
    cases ho : Template.read options.maxDepth s.remaining with
    | refused fault rest =>
        rw [ho] at h
        cases h
    | accepted found rest =>
        rw [ho] at h
        cases h
        rw [(Template.derives_of_read ho).2]
  refine ⟨⟨?_, ?_⟩, ?_⟩
  · intro h
    exact (Template.derives_of_read (haccepted h)).1
  · intro h
    have hread := (Template.approximates_read_of_derives h options.maxDepth).eq_of_not_tooDeep hdeep
    unfold readTemplate read
    rw [hread]
  · intro h
    unfold readTemplate read
    rw [haccepted h]
    simp [isExhausted, leaving]

/-- The tokens of `a%}{% for x in xs %}{{ x }}{% endif %}`: a stray closer, and a body that the end
tag of another statement closes. -/
def strayStream : TokenStream where
  source := ⟨"template", "a%\x7d\x7b% for x in xs %\x7d\x7b\x7b x \x7d\x7d\x7b% endif %\x7d"⟩
  tokens :=
    [⟨.text, "a", 0⟩, ⟨.delimiter, "%\x7d", 1⟩, ⟨.delimiter, "\x7b%", 3⟩, ⟨.word, "for", 6⟩,
      ⟨.word, "x", 10⟩, ⟨.word, "in", 12⟩, ⟨.word, "xs", 15⟩, ⟨.delimiter, "%\x7d", 18⟩,
      ⟨.delimiter, "\x7b\x7b", 20⟩, ⟨.word, "x", 23⟩, ⟨.delimiter, "\x7d\x7d", 25⟩,
      ⟨.delimiter, "\x7b%", 27⟩, ⟨.word, "endif", 30⟩, ⟨.delimiter, "%\x7d", 36⟩]
  position := 0
  tokens_ne_nil := by decide
  position_le := by decide

/-- The text and the loop; the stray closer leaves nothing. -/
def strayNodes : Template :=
  [.literal "a", .loop "x" (.leaf ⟨.word, "xs", 15⟩) [.output (.leaf ⟨.word, "x", 23⟩)]]

/-- One level is enough for the body, so the tokens derive the nodes and are used up. -/
theorem strayStream_derives :
    ¬ ReportsTooDeep (strayStream.readTemplate ⟨1, "template"⟩).1 ∧
      Template.Derives strayStream.remaining strayNodes ∧
        (strayStream.readTemplate ⟨1, "template"⟩).2.isExhausted = true := by
  have hread : (strayStream.readTemplate ⟨1, "template"⟩).1 = .ok strayNodes := by cbv
  have hlimit : ¬ ReportsTooDeep (strayStream.readTemplate ⟨1, "template"⟩).1 := by
    rintro ⟨limit, span, source, h⟩
    rw [hread] at h
    cases h
  obtain ⟨hiff, hexhausted⟩ :=
    readTemplate_ok_iff_derives ⟨1, "template"⟩ strayStream strayNodes hlimit
  exact ⟨hlimit, hiff.mp hread, hexhausted hread⟩

end TokenStream

end TemplateLang

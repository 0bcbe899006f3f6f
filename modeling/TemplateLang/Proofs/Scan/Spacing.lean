import TemplateLang.Proofs.Places
import TemplateLang.Proofs.Scan.Layout
import TemplateLang.Proofs.Scan.Segmentation

/-!
# TemplateLang.Proofs.Scan.Spacing — tokens set apart by blanks

Tokens that are written one after the other with blanks between them scan to themselves, in any
block and with any blanks (`Spaced.run`). The last of them is over where a blank follows, and also
where the block closes, unless it ends in a brace. So an output block scans to its delimiters and
the tokens between them, and the text behind it scans as if it stood alone (`OutputBlock.run`).
-/

namespace TemplateLang

/-! ## Tokens that can be written -/

/-- **`t.Writable`** — the token can be written inside a block. An operator with a percent sign is
left out: it could run into the closer of the block. -/
def Token.Writable (t : Token) : Prop :=
  match t.kind with
  | .word => IsName t.text
  | .operator => IsSign t.text ∧ '%' ∉ t.text.toList
  | .quoted => IsQuotable t.text
  | _ => False

namespace Token

theorem Writable.exists_spelledAs {t : Token} (h : t.Writable) : ∃ raw, t.SpelledAs raw := by
  rcases t with ⟨kind, text, place⟩
  cases kind with
  | quoted =>
      obtain ⟨q, hq, hnot⟩ := IsQuotable.exists_quote h
      exact ⟨_, q, hq, hnot, rfl⟩
  | word => exact ⟨_, rfl⟩
  | operator => exact ⟨_, rfl⟩
  | delimiter => exact h.elim
  | text => exact h.elim

/-- No spelling ends in a percent sign. -/
theorem Writable.getLast?_ne_percent {t : Token} (h : t.Writable) {raw : List Char}
    (hraw : t.SpelledAs raw) : ∀ c ∈ raw.getLast?, c ≠ '%' := by
  rintro c hc rfl
  have hmem : '%' ∈ raw := List.mem_of_getLast? hc
  rcases t with ⟨kind, text, place⟩
  cases kind with
  | quoted =>
      obtain ⟨q, hq, -, rfl⟩ := hraw
      rw [List.getLast?_concat] at hc
      cases hc
      exact absurd hq (by decide)
  | word =>
      cases hraw
      exact absurd (h.plain '%' hmem).2.1 (by decide)
  | operator =>
      cases hraw
      exact h.2 hmem
  | delimiter => exact h
  | text => exact h

/-- **A token scans to itself** where its spelling is over. -/
theorem Writable.run_spelling {t : Token} (h : t.Writable) {raw : List Char}
    (hraw : t.SpelledAs raw) {mode : Mode} (hmode : mode.isBlock = true) {rest : List Char}
    (hends : Ends raw rest) (offset : Nat) :
    Scan.run mode offset (raw ++ rest) =
      (Scan.run mode (offset + Text.byteLength raw) rest).cons { t with offset := offset } := by
  rcases t with ⟨kind, text, place⟩
  cases kind with
  | quoted =>
      obtain ⟨q, hq, hnot, rfl⟩ := hraw
      exact Scan.run_string hq hnot mode rest offset
  | word =>
      cases hraw
      exact Scan.run_word hmode h hends offset
  | operator =>
      cases hraw
      exact Scan.run_sign hmode h.1 hends offset
  | delimiter => exact h.elim
  | text => exact h.elim

end Token

/-! ## Tokens in a row -/

/-- **`Spaced tokens cs`** — the text writes the tokens, with blanks between them. -/
inductive Spaced : List Token → List Char → Prop
  | single {t : Token} {raw : List Char} : t.SpelledAs raw → Spaced [t] raw
  | cons {t : Token} {raw gap : List Char} {tokens : List Token} {cs : List Char} :
      t.SpelledAs raw → Text.IsSpace gap → Spaced tokens cs →
        Spaced (t :: tokens) (raw ++ (gap ++ cs))

theorem exists_spaced {tokens : List Token} (hne : tokens ≠ [])
    (h : ∀ t ∈ tokens, t.Writable) : ∃ cs, Spaced tokens cs := by
  induction tokens with
  | nil => exact absurd rfl hne
  | cons t tokens ih =>
      obtain ⟨ht, htokens⟩ := List.forall_mem_cons.mp h
      obtain ⟨raw, hraw⟩ := ht.exists_spelledAs
      by_cases hnil : tokens = []
      · subst hnil
        exact ⟨raw, .single hraw⟩
      · obtain ⟨cs, hcs⟩ := ih hnil htokens
        exact ⟨_, .cons hraw Text.isSpace_space hcs⟩

theorem Ends.of_append {front cs rest : List Char} (h : Ends (front ++ cs) rest) :
    Ends cs rest where
  stops := h.stops
  plain := h.plain
  apart c hc := by
    refine h.apart c ?_
    rw [List.getLast?_append, Option.mem_def.mp hc]
    rfl

namespace Spaced

variable {tokens : List Token} {cs : List Char}

theorem getLast?_ne_percent (h : Spaced tokens cs) (hw : ∀ t ∈ tokens, t.Writable) :
    ∀ c ∈ cs.getLast?, c ≠ '%' := by
  induction h with
  | single hraw => exact (List.forall_mem_singleton.mp hw).getLast?_ne_percent hraw
  | @cons t raw gap tokens cs hraw hgap _ ih =>
      obtain ⟨ht, htokens⟩ := List.forall_mem_cons.mp hw
      intro c hc
      simp only [List.getLast?_append, Option.mem_def, Option.or_eq_some_iff] at hc
      rcases hc with (hc | ⟨_, hc⟩) | ⟨_, hc⟩
      · exact ih htokens c hc
      · rintro rfl
        exact absurd (hgap.blank '%' (List.mem_of_getLast? hc)) (by decide)
      · exact ht.getLast?_ne_percent hraw c hc

/-- **Spaced tokens scan to themselves**, at the places where they stand. -/
theorem run (h : Spaced tokens cs) (hw : ∀ t ∈ tokens, t.Writable) {mode : Mode}
    (hmode : mode.isBlock = true) {rest : List Char} (hends : Ends cs rest) (offset : Nat) :
    ∃ placed : List Token, placed.map Token.unplaced = tokens.map Token.unplaced ∧
      Scan.run mode offset (cs ++ rest) =
        (Scan.run mode (offset + Text.byteLength cs) rest).prepend placed := by
  induction h generalizing offset with
  | @single t raw hraw =>
      have ht : t.Writable := List.forall_mem_singleton.mp hw
      exact ⟨[{ t with offset := offset }], rfl, ht.run_spelling hraw hmode hends offset⟩
  | @cons t raw gap tokens cs hraw hgap _ ih =>
      obtain ⟨ht, htokens⟩ := List.forall_mem_cons.mp hw
      rw [← List.append_assoc] at hends
      obtain ⟨placed, hplaced, hrun⟩ := ih htokens hends.of_append
        (offset + Text.byteLength raw + Text.byteLength gap)
      have hover : Ends raw (gap ++ (cs ++ rest)) := (hgap.beginsBlank.append _).ends raw
      refine ⟨{ t with offset := offset } :: placed, congrArg (t.unplaced :: ·) hplaced, ?_⟩
      calc Scan.run mode offset (raw ++ (gap ++ cs) ++ rest)
          = Scan.run mode offset (raw ++ (gap ++ (cs ++ rest))) := by simp
        _ = (Scan.run mode (offset + Text.byteLength raw) (gap ++ (cs ++ rest))).cons
              { t with offset := offset } := ht.run_spelling hraw hmode hover offset
        _ = ((Scan.run mode (offset + Text.byteLength (raw ++ (gap ++ cs))) rest).prepend
              placed).cons { t with offset := offset } := by
            rw [Scan.run_gap (Scan.isGap_of_isSpace hgap hmode), hrun, Text.byteLength_append,
              Text.byteLength_append, Nat.add_assoc, Nat.add_assoc]

/-- The last token is over in front of a closer, with blanks before it or, unless the token ends in
a brace, without. -/
theorem ends_closer (h : Spaced tokens cs) (hw : ∀ t ∈ tokens, t.Writable) {after : List Char}
    (hafter : ∀ c ∈ after, Text.isBlank c = true) (hclose : after = [] → cs.getLast? ≠ some '}')
    (tail : List Char) :
    Ends cs (after ++ ((Delimiter.closing .output).text.toList ++ tail)) := by
  cases after with
  | nil =>
      refine TemplateLang.ends_closer (fun c hc => ⟨?_, h.getLast?_ne_percent hw c hc⟩) tail
      rintro rfl
      exact hclose rfl hc
  | cons d after => exact (Text.beginsBlank_cons (hafter d List.mem_cons_self) _).ends cs

end Spaced

/-! ## Output blocks -/

/-- **`OutputBlock tokens cs`** — the text is an output block around the tokens. Blanks set them
apart from one another and from the delimiters; next to a delimiter they may be missing, but not
between two closing braces and one that a word ends in. -/
inductive OutputBlock (tokens : List Token) : List Char → Prop
  | mk {before cs after : List Char} (hbefore : ∀ c ∈ before, Text.isBlank c = true)
      (hcs : Spaced tokens cs) (hafter : ∀ c ∈ after, Text.isBlank c = true)
      (hclose : after = [] → cs.getLast? ≠ some '}') :
      OutputBlock tokens ((Delimiter.opening .output).text.toList ++
        (before ++ (cs ++ (after ++ (Delimiter.closing .output).text.toList))))

theorem exists_outputBlock {tokens : List Token} (hne : tokens ≠ [])
    (hw : ∀ t ∈ tokens, t.Writable) : ∃ cs, OutputBlock tokens cs := by
  obtain ⟨cs, hcs⟩ := exists_spaced hne hw
  have hspace : ∀ c ∈ [' '], Text.isBlank c = true := Text.isSpace_space.blank
  exact ⟨_, .mk hspace hcs hspace nofun⟩

theorem Scan.cons_prepend_cons (opened closed : Token) (placed : List Token) (s : Scan) :
    ((s.cons closed).prepend placed).cons opened = s.prepend (opened :: placed ++ [closed]) := by
  simp [prepend, cons]

/-- **An output block scans to its delimiters and the tokens between them**, and the text behind it
scans as if it stood alone. -/
theorem OutputBlock.run {tokens : List Token} {cs : List Char} (h : OutputBlock tokens cs)
    (hw : ∀ t ∈ tokens, t.Writable) (offset : Nat) (tail : List Char) :
    ∃ (opened : Token) (placed : List Token) (closed : Token),
      opened.Is .delimiter (Delimiter.opening .output).text ∧
      placed.map Token.unplaced = tokens.map Token.unplaced ∧
      closed.Is .delimiter (Delimiter.closing .output).text ∧
      Scan.run .literal offset (cs ++ tail) =
        (Scan.run .literal (offset + Text.byteLength cs) tail).prepend
          (opened :: placed ++ [closed]) := by
  cases h with
  | @mk before cs after hbefore hcs hafter hclose =>
      let inside := Mode.behind (.opening .output) offset
      have hmode : inside.isBlock = true := rfl
      have hgap (gap : List Char) (hblank : ∀ c ∈ gap, Text.isBlank c = true) :
          Scan.IsGap inside gap := fun c hc => ⟨hmode, hblank c hc⟩
      obtain ⟨placed, hplaced, hrun⟩ := hcs.run hw hmode
        (hcs.ends_closer hw hafter hclose tail) (offset + 2 + Text.byteLength before)
      let closing := offset + 2 + Text.byteLength before + Text.byteLength cs +
        Text.byteLength after
      refine ⟨⟨.delimiter, _, offset⟩, placed, ⟨.delimiter, _, closing⟩, ⟨rfl, rfl⟩, hplaced,
        ⟨rfl, rfl⟩, ?_⟩
      have hstop : closing + 2 = offset + Text.byteLength
          ((Delimiter.opening .output).text.toList ++
            (before ++ (cs ++ (after ++ (Delimiter.closing .output).text.toList)))) := by
        simp only [Text.byteLength_append, Delimiter.byteLength_text, closing]
        omega
      rw [← hstop, List.append_assoc, Scan.run_delimiter, List.append_assoc,
        Scan.run_gap (hgap before hbefore), List.append_assoc, List.append_assoc, hrun,
        Scan.run_gap (hgap after hafter), Scan.run_delimiter]
      exact Scan.cons_prepend_cons _ _ _ _

/-- The text of an output block alone scans to its delimiters and the tokens between them. -/
theorem OutputBlock.ofText_eq {tokens : List Token} {text : String}
    (h : OutputBlock tokens text.toList) (hw : ∀ t ∈ tokens, t.Writable) :
    ∃ (opened : Token) (placed : List Token) (closed : Token),
      opened.Is .delimiter (Delimiter.opening .output).text ∧
      placed.map Token.unplaced = tokens.map Token.unplaced ∧
      closed.Is .delimiter (Delimiter.closing .output).text ∧
      Scan.ofText text = ⟨opened :: placed ++ [closed], .complete⟩ := by
  obtain ⟨opened, placed, closed, hopened, hplaced, hclosed, hrun⟩ := h.run hw 0 []
  refine ⟨opened, placed, closed, hopened, hplaced, hclosed, ?_⟩
  rw [List.append_nil] at hrun
  rw [Scan.ofText, hrun, Scan.run, Scan.prepend, List.append_nil]
  rfl

end TemplateLang

import TemplateLang.Proofs.Entry
import TemplateLang.Proofs.Places
import TemplateLang.Proofs.Scan.Cut

/-!
# TemplateLang.Proofs.Scan.Canonical — writing the tokens of a source out again

The canonical text of a list of tokens has them as they are spelled, in order: flush outside blocks,
and behind one space each inside. A quoted token may be spelled with either quote that its text does
not hold, so there can be several canonical texts (`Canonical`).

Main statement (`TokenStream.canonical_of_ofSource`): the tokens of a source have a canonical text,
and every one of their canonical texts tokenizes to the same kinds and texts. Inside a block the
space ends whatever is in front of it. Outside there is none, and a piece of text is over only
because of what follows it: its next token is a delimiter or a string in the canonical text as in
the source, and neither the text in front of it nor the first character of that token make a
delimiter together (`IsRun.replace`).
-/

namespace TemplateLang

/-- What stands in front of a token: a space inside a block, and nothing outside. -/
def separator (inside : Bool) : List Char :=
  if inside then [' '] else []

/-- **`Canonical inside tokens cs`** — the text `cs` has the tokens as they are spelled, each behind
its separator; `inside` says whether the first token is inside a block. -/
inductive Canonical : Bool → List Token → List Char → Prop
  | nil (inside : Bool) : Canonical inside [] []
  | cons {inside : Bool} {t : Token} {tokens : List Token} {raw rest : List Char}
      (hraw : t.SpelledAs raw) :
      Canonical (t.insideBehind inside) tokens rest →
        Canonical inside (t :: tokens) (separator inside ++ (raw ++ rest))

/-- Tokens that can be spelled have a canonical text. -/
theorem exists_canonical {tokens : List Token} (h : ∀ t ∈ tokens, ∃ raw, t.SpelledAs raw)
    (inside : Bool) : ∃ cs, Canonical inside tokens cs := by
  induction tokens generalizing inside with
  | nil => exact ⟨[], .nil inside⟩
  | cons t tokens ih =>
      obtain ⟨⟨raw, hraw⟩, hrest⟩ := List.forall_mem_cons.mp h
      obtain ⟨rest, hcanonical⟩ := ih hrest (t.insideBehind inside)
      exact ⟨_, .cons hraw hcanonical⟩

/-- A canonical text inside a block begins with a space, unless there is no token. -/
theorem Canonical.beginsBlank {tokens : List Token} {cs : List Char}
    (h : Canonical true tokens cs) (hne : tokens ≠ []) : Text.BeginsBlank cs := by
  cases h with
  | nil => exact absurd rfl hne
  | cons hraw hrest => exact Text.beginsBlank_cons (by decide) _

/-! ## Runs of a source, by themselves -/

namespace Scan

/-- A plain run stays one in front of anything that ends it and makes no delimiter with its last
character. -/
theorem IsRun.replace {block : Bool} {plain rest other : List Char} (h : IsRun block plain rest)
    (hstops : stopsAt block other = true)
    (hlast : ∀ c ∈ plain.getLast?, Delimiter.strip? (c :: other) = none) :
    IsRun block plain other where
  goesOn front back heq hne := by
    have hgo := h.goesOn front back heq hne
    cases back with
    | nil => exact absurd rfl hne
    | cons c tail =>
        cases tail with
        | nil =>
            have hc : Delimiter.strip? (c :: other) = none := hlast c (by rw [heq]; simp)
            simp only [List.cons_append, List.nil_append, stopsAt, Bool.or_eq_false_iff] at hgo ⊢
            exact ⟨⟨by rw [hc]; rfl, hgo.1.2⟩, hgo.2⟩
        | cons d tail => rwa [stopsAt_append block (by simp) other rest]
  stops := hstops

/-- A plain run is one by itself. -/
theorem IsRun.alone {block : Bool} {plain rest : List Char} (h : IsRun block plain rest) :
    IsRun block plain [] := by
  refine h.replace rfl fun c hc => ?_
  unfold Delimiter.strip?
  split <;> simp_all

/-- A quote ends a plain run, and a character in front of it makes no delimiter with it. -/
theorem IsRun.beforeQuote {block : Bool} {plain rest : List Char} (h : IsRun block plain rest)
    {q : Char} (hq : isQuote q = true) (other : List Char) : IsRun block plain (q :: other) := by
  refine h.replace ?_ fun c _ => ?_
  · rw [stopsAt, hq, Bool.or_true, Bool.true_or]
  · rcases isQuote_iff.mp hq with rfl | rfl <;>
      exact Delimiter.strip?_cons_cons_eq_none (fun _ => by decide) (fun _ => by decide)
        (fun _ => by decide) other

/-! ## Scanning a canonical text -/

/-- **`Repeats again s`** — the scan `again` is complete and has the tokens of `s`, up to their
places. -/
structure Repeats (again s : Scan) : Prop where
  complete : again.ending = .complete
  same : again.tokens.map Token.unplaced = s.tokens.map Token.unplaced

theorem Repeats.cons {again s : Scan} (h : Repeats again s) {t u : Token}
    (ht : u.unplaced = t.unplaced) : Repeats (again.cons u) (s.cons t) where
  complete := h.complete
  same := by
    rw [tokens_cons, tokens_cons, List.map_cons, List.map_cons, ht, h.same]

theorem isGap_separator (mode : Mode) : IsGap mode (separator mode.isBlock) := by
  intro c hc
  cases hmode : mode.isBlock with
  | false =>
      rw [hmode] at hc
      cases hc
  | true =>
      rw [hmode] at hc
      obtain rfl := List.mem_singleton.mp hc
      exact ⟨rfl, by decide⟩

/-- Inside a block the canonical text of what follows begins with a space: the block has to end, so
there is a token left. -/
theorem Runs.beginsBlank_canonical {mode : Mode} {offset : Nat} {rest : List Char} {s : Scan}
    (h : Runs mode offset rest s) (hend : s.ending = .complete) (hmode : mode.isBlock = true)
    {cs : List Char} (hcs : Canonical mode.isBlock s.tokens cs) : Text.BeginsBlank cs := by
  have hclosed := (Segments.of_runs h hend).foldl_insideBehind
  rw [hmode] at hclosed hcs
  refine hcs.beginsBlank fun hnil => ?_
  rw [hnil] at hclosed
  cases hclosed

/-- Outside a block the canonical text of what follows a piece of text ends that piece, as the
source does. -/
theorem Runs.isRun_canonical {offset : Nat} {rest : List Char} {s : Scan}
    (h : Runs .literal offset rest s) (hend : s.ending = .complete) {cs : List Char}
    (hcs : Canonical false s.tokens cs) {plain : List Char} (hplain : IsRun false plain rest) :
    IsRun false plain cs := by
  cases h with
  | done =>
      cases hcs
      exact hplain
  | delimiter d hrest =>
      cases hcs with
      | cons hraw hcanonical =>
          obtain rfl := hraw
          refine hplain.append ?_ _
          rcases d with block | block <;> cases block <;> decide
  | blank hmode => cases hmode
  | operator hmode => cases hmode
  | quoted hq hbody hrest =>
      cases hcs with
      | cons hraw hcanonical =>
          obtain ⟨q, hq, -, rfl⟩ := hraw
          exact hplain.beforeQuote hq _
  | unclosed => cases hend
  | plain hne hnext hrest =>
      -- a run does not stop in front of another run
      have hgo := hnext.goesOn [] _ rfl hne
      have hstops := hplain.stops
      exact absurd (hstops.symm.trans hgo) (by decide)

/-- **A canonical text of the tokens of a complete scan has these tokens**, wherever it stands and
whatever block it is in. -/
theorem Runs.repeats {mode : Mode} {offset : Nat} {cs : List Char} {s : Scan}
    (h : Runs mode offset cs s) (hend : s.ending = .complete) {ds : List Char}
    (hds : Canonical mode.isBlock s.tokens ds) {other : Mode} (hother : other.isBlock = mode.isBlock)
    (place : Nat) : Repeats (run other place ds) s := by
  induction h generalizing other place ds with
  | done mode offset =>
      cases hds
      cases mode with
      | block kind start => cases hend
      | literal =>
          cases other with
          | block kind start => cases hother
          | literal =>
              rw [run]
              exact ⟨rfl, rfl⟩
  | @delimiter mode offset rest s d hrest ih =>
      cases hds with
      | cons hraw hcanonical =>
          obtain rfl := hraw
          rw [Token.insideBehind_delimiter] at hcanonical
          have hbehind (start : Nat) : (Mode.behind d start).isBlock =
              (Mode.behind d offset).isBlock := by cases d <;> rfl
          rw [← hother, run_gap (isGap_separator other), run_delimiter]
          exact (ih hend hcanonical (hbehind _) _).cons rfl
  | blank hmode hc hrest ih => exact ih hend hds hother place
  | @operator mode offset special rest s hmode hne hspecial hstart hends hrest ih =>
      cases hds with
      | cons hraw hcanonical =>
          obtain rfl := hraw
          rw [Token.insideBehind_of_kind (by simp)] at hcanonical
          have hsign : IsSign (String.ofList special) :=
            ⟨by rwa [String.toList_ofList], by rwa [String.toList_ofList]⟩
          have hspace := hrest.beginsBlank_canonical hend hmode hcanonical
          rw [← hother, run_gap (isGap_separator other),
            run_sign (hother.trans hmode) hsign (hspace.ends _)]
          exact (ih hend hcanonical hother _).cons rfl
  | @quoted mode offset q body rest s hq hbody hrest ih =>
      cases hds with
      | cons hraw hcanonical =>
          obtain ⟨quote, hquote, hfree, rfl⟩ := hraw
          rw [Token.insideBehind_of_kind (by simp)] at hcanonical
          rw [← hother, run_gap (isGap_separator other), run_string hquote hfree]
          exact (ih hend hcanonical hother _).cons rfl
  | unclosed => cases hend
  | @plain mode offset plain rest s hne hplain hrest ih =>
      cases hds with
      | cons hraw hcanonical =>
          cases mode with
          | literal =>
              obtain rfl := hraw
              rw [Token.insideBehind_of_kind (by simp [Mode.plainKind])] at hcanonical
              have hsame := hrest.isRun_canonical hend hcanonical hplain
              cases other with
              | block kind start => cases hother
              | literal =>
                  show Repeats (run .literal place ((String.ofList plain).toList ++ _)) _
                  rw [String.toList_ofList, @run_plain .literal _ _ hne hsame]
                  exact (ih hend hcanonical rfl _).cons rfl
          | block kind start =>
              obtain rfl := hraw
              rw [Token.insideBehind_of_kind (by simp [Mode.plainKind])] at hcanonical
              have hname := hplain.isName hne
              have hspace := hrest.beginsBlank_canonical hend rfl hcanonical
              rw [← hother, run_gap (isGap_separator other),
                run_word hother hname (hspace.ends _)]
              exact (ih hend hcanonical hother _).cons rfl

/-- A piece of text in a scan is a plain run by itself. -/
theorem Runs.isRun_text {mode : Mode} {offset : Nat} {cs : List Char} {s : Scan}
    (h : Runs mode offset cs s) {t : Token} (ht : t ∈ s.tokens) (hkind : t.kind = .text) :
    t.text.toList ≠ [] ∧ IsRun false t.text.toList [] := by
  induction h with
  | done => cases ht
  | delimiter d _ ih =>
      rcases List.mem_cons.mp ht with rfl | ht
      · cases hkind
      · exact ih ht
  | blank _ _ _ ih => exact ih ht
  | operator _ _ _ _ _ _ ih =>
      rcases List.mem_cons.mp ht with rfl | ht
      · cases hkind
      · exact ih ht
  | quoted _ _ _ ih =>
      rcases List.mem_cons.mp ht with rfl | ht
      · cases hkind
      · exact ih ht
  | unclosed => cases ht
  | @plain mode offset plain rest s hne hplain _ ih =>
      rcases List.mem_cons.mp ht with rfl | ht
      · cases mode with
        | block kind start => cases hkind
        | literal =>
            rw [String.toList_ofList]
            exact ⟨hne, hplain.alone⟩
      · exact ih ht

theorem ofText_of_isRun {text : String} (hne : text.toList ≠ [])
    (h : IsRun false text.toList []) : ofText text = ⟨[⟨.text, text, 0⟩], .complete⟩ := by
  have hrun := @run_plain .literal [] _ hne h 0
  rw [List.append_nil, run, String.ofList_toList] at hrun
  exact hrun

end Scan

namespace TokenStream

/-- **Tokens survive being written out again.** The tokens of a source have a canonical text, and
each of their canonical texts tokenizes, under any name, to the same kinds and texts. A piece of
text outside blocks is just that piece when it is a source by itself. -/
theorem canonical_of_ofSource {source : Source} {stream : TokenStream}
    (h : ofSource source = .ok stream) :
    (∃ text : String, Canonical false stream.tokens text.toList) ∧
      (∀ name text : String, Canonical false stream.tokens text.toList →
        ∃ again, ofSource ⟨name, text⟩ = .ok again ∧
          again.tokens.map Token.unplaced = stream.tokens.map Token.unplaced) ∧
      ∀ t ∈ stream.tokens, t.kind = .text →
        ∀ name, ∃ again, ofSource ⟨name, t.text⟩ = .ok again ∧
          again.tokens = [⟨.text, t.text, 0⟩] := by
  obtain ⟨hend, hne, rfl⟩ := ofSource_eq_ok_iff.mp h
  have hruns := Scan.runs_run .literal 0 source.text.toList
  refine ⟨?_, ?_, ?_⟩
  · have hspelled : ∀ t ∈ (Scan.ofText source.text).tokens, ∃ raw, t.SpelledAs raw := by
      intro t ht
      obtain ⟨_, raw, _, _, _, hraw, _⟩ := (Segments.of_runs hruns hend).exists_raw ht
      exact ⟨raw, hraw⟩
    obtain ⟨cs, hcs⟩ := exists_canonical hspelled false
    exact ⟨String.ofList cs, by rwa [String.toList_ofList]⟩
  · intro name text htext
    have hrepeats : (Scan.ofText text).Repeats (Scan.ofText source.text) :=
      hruns.repeats hend htext rfl 0
    refine ⟨_, ofSource_eq_ok_iff.mpr ⟨hrepeats.complete, ?_, rfl⟩, hrepeats.same⟩
    intro hnil
    have hsame := hrepeats.same
    rw [hnil] at hsame
    exact hne (List.map_eq_nil_iff.mp hsame.symm)
  · intro t ht hkind name
    obtain ⟨htext, hrun⟩ := hruns.isRun_text ht hkind
    exact exists_of_scan (Scan.ofText_of_isRun htext hrun) nofun name

/-- A source without blanks where they can be left out, with strings in both modes, an operator that
ends in a percent sign, and text that ends in a brace in front of a delimiter. -/
def compactSource : Source :=
  ⟨"page", "5\x7d\x7b\x7b'a'+b)% \x7d\x7d'c'd"⟩

def compactTokens : List Token :=
  [⟨.text, "5\x7d", 0⟩, ⟨.delimiter, "\x7b\x7b", 2⟩, ⟨.quoted, "a", 4⟩, ⟨.operator, "+", 7⟩,
    ⟨.word, "b", 8⟩, ⟨.operator, ")%", 9⟩, ⟨.delimiter, "\x7d\x7d", 12⟩, ⟨.quoted, "c", 14⟩,
    ⟨.text, "d", 17⟩]

/-- A canonical text of its tokens, with the other quote for both strings. -/
def spacedText : String :=
  "5\x7d\x7b\x7b \"a\" + b )% \x7d\x7d\"c\"d"

theorem canonical_spacedText : Canonical false compactTokens spacedText.toList := by
  have hquoted (s : String) (offset : Nat) (hs : '"' ∉ s.toList) :
      (Token.mk .quoted s offset).SpelledAs ('"' :: s.toList ++ ['"']) :=
    ⟨'"', by decide, hs, rfl⟩
  have hcanonical : Canonical false compactTokens _ :=
    .cons rfl (.cons rfl (.cons (hquoted "a" 4 (by decide)) (.cons rfl (.cons rfl (.cons rfl
      (.cons rfl (.cons (hquoted "c" 14 (by decide)) (.cons rfl (.nil _)))))))))
  refine Eq.mp (congrArg (Canonical false compactTokens) ?_) hcanonical
  decide +kernel

theorem compactSource_canonical :
    ofSource compactSource = .ok ⟨compactSource, compactTokens, 0, nofun, Nat.zero_le _⟩ ∧
      Canonical false compactTokens spacedText.toList ∧
      ∃ again, ofSource ⟨"copy", spacedText⟩ = .ok again ∧
        again.tokens.map Token.unplaced = compactTokens.map Token.unplaced := by
  have hscan : Scan.ofText compactSource.text = ⟨compactTokens, .complete⟩ := by decide +kernel
  have h : ofSource compactSource =
      .ok ⟨compactSource, compactTokens, 0, nofun, Nat.zero_le _⟩ := ofSource_of_scan hscan nofun
  exact ⟨h, canonical_spacedText,
    (canonical_of_ofSource h).2.1 "copy" spacedText canonical_spacedText⟩

end TokenStream

end TemplateLang

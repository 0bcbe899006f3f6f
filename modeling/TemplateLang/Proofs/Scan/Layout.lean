import TemplateLang.Proofs.Scan.Rules
import TemplateLang.Proofs.Tokens

/-!
# TemplateLang.Proofs.Scan.Layout — texts that scan to given tokens

How a piece of text scans depends on what follows it: a word or an operator goes on for as long as
it can. A blank ends both, so a piece of a block whose tokens are set apart by blanks scans to the
same tokens whatever stands behind the blank that follows. `Writes` states this of one piece; pieces
are put together by `Writes.append`, and there is one law for each kind of token.
-/

namespace TemplateLang

/-! ## Texts that stay in one piece -/

/-- **`BeginsBlank cs`** — the text begins with a blank. -/
def Text.BeginsBlank (cs : List Char) : Prop :=
  ∃ c ∈ cs.head?, isBlank c = true

theorem Text.beginsBlank_cons {c : Char} (hc : isBlank c = true) (cs : List Char) :
    BeginsBlank (c :: cs) := ⟨c, rfl, hc⟩

theorem Text.BeginsBlank.append {cs : List Char} (h : BeginsBlank cs) (ds : List Char) :
    BeginsBlank (cs ++ ds) := by
  obtain ⟨c, hc, hblank⟩ := h
  cases cs with
  | nil => cases hc
  | cons d cs => exact ⟨c, hc, hblank⟩

/-- **`IsSpace gap`** — the text is blank, and not empty. -/
structure Text.IsSpace (gap : List Char) : Prop where
  ne_nil : gap ≠ []
  blank : ∀ c ∈ gap, isBlank c = true

theorem Text.isSpace_singleton {c : Char} (hc : isBlank c = true) : IsSpace [c] :=
  ⟨nofun, List.forall_mem_singleton.mpr hc⟩

theorem Text.isSpace_space : IsSpace [' '] :=
  isSpace_singleton (by decide)

theorem Text.IsSpace.beginsBlank {gap : List Char} (h : IsSpace gap) : BeginsBlank gap := by
  cases gap with
  | nil => exact absurd rfl h.ne_nil
  | cons c gap => exact beginsBlank_cons (h.blank c List.mem_cons_self) gap

/-- **`IsName s`** — the text is one word inside a block: it is not empty, and nothing in it ends a
word. -/
structure IsName (s : String) : Prop where
  ne_nil : s.toList ≠ []
  plain : ∀ c ∈ s.toList, Text.isBlank c = false ∧ isSpecial c = false ∧ isQuote c = false
  no_opener : ¬ ['{', '{'] <:+: s.toList
  no_closer : ¬ ['}', '}'] <:+: s.toList

/-- Whether the character belongs to a word wherever it stands. -/
def isWordChar (c : Char) : Bool :=
  !(Text.isBlank c || isSpecial c || isQuote c || c == '{' || c == '}')

theorem isName_of_isWordChar {s : String} (hne : s.toList ≠ [])
    (h : s.toList.all isWordChar = true) : IsName s := by
  have hchar : ∀ c ∈ s.toList, isWordChar c = true := List.all_eq_true.mp h
  refine ⟨hne, ?_, ?_, ?_⟩
  · intro c hc
    have hword := hchar c hc
    rw [isWordChar, Bool.not_eq_true'] at hword
    simp only [Bool.or_eq_false_iff] at hword
    exact ⟨hword.1.1.1.1, hword.1.1.1.2, hword.1.1.2⟩
  · intro hpair
    exact absurd (hchar '{' (hpair.subset List.mem_cons_self)) (by decide)
  · intro hpair
    exact absurd (hchar '}' (hpair.subset List.mem_cons_self)) (by decide)

/-- **`IsSign s`** — the text is one operator inside a block. -/
structure IsSign (s : String) : Prop where
  ne_nil : s.toList ≠ []
  special : ∀ c ∈ s.toList, isSpecial c = true

instance (s : String) : Decidable (IsSign s) :=
  decidable_of_iff (s.toList ≠ [] ∧ s.toList.all isSpecial = true)
    ⟨fun h => ⟨h.1, List.all_eq_true.mp h.2⟩, fun h => ⟨h.1, List.all_eq_true.mpr h.2⟩⟩

/-- **`IsQuotable s`** — the text does not hold both quotes. -/
def IsQuotable (s : String) : Prop :=
  ¬ ('\'' ∈ s.toList ∧ '"' ∈ s.toList)

instance (s : String) : Decidable (IsQuotable s) :=
  inferInstanceAs (Decidable (¬ _))

theorem IsQuotable.exists_quote {s : String} (h : IsQuotable s) :
    ∃ q, isQuote q = true ∧ q ∉ s.toList := by
  by_cases hsingle : '\'' ∈ s.toList
  · exact ⟨'"', by decide, fun hdouble => h ⟨hsingle, hdouble⟩⟩
  · exact ⟨'\'', by decide, hsingle⟩

/-- The second character of a delimiter is no blank. -/
theorem Delimiter.strip?_cons_of_beginsBlank {rest : List Char} (h : Text.BeginsBlank rest)
    (c : Char) : strip? (c :: rest) = none := by
  obtain ⟨d, hd, hblank⟩ := h
  have hne : ∀ e, Text.isBlank e = false → d ≠ e := by
    rintro e he rfl
    rw [he] at hblank
    cases hblank
  cases rest with
  | nil => cases hd
  | cons e rest =>
      cases hd
      exact strip?_cons_cons_eq_none
        (fun _ => ⟨hne '{' (by decide), hne '%' (by decide)⟩) (fun _ => hne '}' (by decide))
        (fun _ => hne '}' (by decide)) rest

/-- **`Ends cs rest`** — a word or an operator `cs` of a block is over where `rest` begins: what
follows neither goes on with it nor makes a delimiter with its last character. -/
structure Ends (cs rest : List Char) : Prop where
  stops : Scan.stopsAt true rest = true
  plain : ∀ c ∈ rest.head?, isSpecial c = false
  apart : ∀ c ∈ cs.getLast?, Delimiter.strip? (c :: rest) = none

theorem Text.BeginsBlank.ends {rest : List Char} (h : BeginsBlank rest) (cs : List Char) :
    Ends cs rest where
  stops := by
    obtain ⟨c, hc, hblank⟩ := h
    cases rest with
    | nil => rfl
    | cons d rest =>
        cases hc
        simp [Scan.stopsAt, hblank]
  plain := by
    obtain ⟨b, hb, hblank⟩ := h
    intro c hc
    cases Option.mem_unique hb hc
    cases hspecial : isSpecial b with
    | false => rfl
    | true =>
        rw [isBlank_of_isSpecial hspecial] at hblank
        cases hblank
  apart c _ := Delimiter.strip?_cons_of_beginsBlank h c

/-- A closer of an output block ends everything but a brace or a percent sign, which would make a
delimiter with its first brace. -/
theorem ends_closer {cs : List Char} (h : ∀ c ∈ cs.getLast?, c ≠ '}' ∧ c ≠ '%')
    (rest : List Char) : Ends cs ((Delimiter.closing .output).text.toList ++ rest) where
  stops := rfl
  plain c hc := by
    cases hc
    decide
  apart c hc := by
    obtain ⟨hbrace, hpercent⟩ := h c hc
    exact Delimiter.strip?_cons_cons_eq_none (fun _ => by decide) (fun h => absurd h hbrace)
      (fun h => absurd h hpercent) _

/-- No delimiter begins inside a name, not even at its last character. -/
theorem IsName.strip?_eq_none {s : String} (h : IsName s) {front back rest : List Char} {c : Char}
    (hs : s.toList = front ++ c :: back) (hrest : Ends s.toList rest) :
    Delimiter.strip? (c :: (back ++ rest)) = none := by
  have hspecial : ∀ d ∈ s.toList, d ≠ '%' := by
    rintro d hd rfl
    exact absurd (h.plain '%' hd).2.1 (by decide)
  cases back with
  | nil => exact hrest.apart c (by simp [hs])
  | cons d back =>
      have hc : c ≠ '%' := hspecial c (by rw [hs]; simp)
      have hd : d ≠ '%' := hspecial d (by rw [hs]; simp)
      have hpair : [c, d] <:+: s.toList := ⟨front, back, by rw [hs]; simp⟩
      refine Delimiter.strip?_cons_cons_eq_none ?_ ?_ (fun h => absurd h hc) (back ++ rest)
      · rintro rfl
        refine ⟨?_, hd⟩
        rintro rfl
        exact h.no_opener hpair
      · rintro rfl rfl
        exact h.no_closer hpair

theorem IsName.isRun {s : String} (h : IsName s) {rest : List Char}
    (hrest : Ends s.toList rest) : Scan.IsRun true s.toList rest where
  goesOn front back heq hne := by
    cases back with
    | nil => exact absurd rfl hne
    | cons c back =>
        obtain ⟨hblank, hspecial, hquote⟩ := h.plain c (by rw [heq]; simp)
        show ((Delimiter.strip? (c :: (back ++ rest))).isSome || isQuote c ||
          (true && (Text.isBlank c || isSpecial c))) = false
        rw [h.strip?_eq_none heq hrest, hblank, hspecial, hquote]
        rfl
  stops := hrest.stops

/-- A plain run inside a block is a name. -/
theorem Scan.IsRun.isName {plain rest : List Char} (h : IsRun true plain rest) (hne : plain ≠ []) :
    IsName (String.ofList plain) := by
  refine ⟨?_, ?_, ?_, ?_⟩ <;> rw [String.toList_ofList]
  · exact hne
  · intro c hc
    obtain ⟨hquote, hplain⟩ := h.goesOn_mem hc
    rw [Bool.true_and, Bool.or_eq_false_iff] at hplain
    exact ⟨hplain.1, hplain.2, hquote⟩
  · exact h.not_infix (.opening .output)
  · exact h.not_infix (.closing .output)

theorem IsSign.strip?_eq_none {s : String} (h : IsSign s) {rest : List Char}
    (hrest : Ends s.toList rest) : Delimiter.strip? (s.toList ++ rest) = none := by
  have hbrace : ∀ d ∈ s.toList, d ≠ '{' ∧ d ≠ '}' := by
    intro d hd
    constructor
    · rintro rfl
      exact absurd (h.special '{' hd) (by decide)
    · rintro rfl
      exact absurd (h.special '}' hd) (by decide)
  cases hs : s.toList with
  | nil => exact absurd hs h.ne_nil
  | cons c tail =>
      rw [hs] at hbrace hrest
      obtain ⟨hopen, hclose⟩ := hbrace c List.mem_cons_self
      cases tail with
      | nil => exact hrest.apart c rfl
      | cons d tail =>
          have hd : d ≠ '}' := (hbrace d (by simp)).2
          exact Delimiter.strip?_cons_cons_eq_none (fun h => absurd h hopen)
            (fun h => absurd h hclose) (fun _ => hd) (tail ++ rest)

namespace Scan

/-! ## Single tokens -/

section Tokens

variable {mode : Mode} {rest : List Char}

/-- Inside a block a plain run is a word. -/
theorem run_word_of_isRun (hmode : mode.isBlock = true) {s : String} (hne : s.toList ≠ [])
    (hrun : IsRun true s.toList rest) (offset : Nat) :
    run mode offset (s.toList ++ rest) =
      (run mode (offset + Text.byteLength s.toList) rest).cons ⟨.word, s, offset⟩ := by
  have hkind : mode.plainKind = .word := by
    cases mode with
    | literal => cases hmode
    | block kind start => rfl
  rw [← hmode] at hrun
  rw [run_plain hne hrun, String.ofList_toList, hkind]

theorem run_word (hmode : mode.isBlock = true) {s : String} (hs : IsName s)
    (hends : Ends s.toList rest) (offset : Nat) :
    run mode offset (s.toList ++ rest) =
      (run mode (offset + Text.byteLength s.toList) rest).cons ⟨.word, s, offset⟩ :=
  run_word_of_isRun hmode hs.ne_nil (hs.isRun hends) offset

theorem run_sign (hmode : mode.isBlock = true) {s : String} (hs : IsSign s)
    (hends : Ends s.toList rest) (offset : Nat) :
    run mode offset (s.toList ++ rest) =
      (run mode (offset + Text.byteLength s.toList) rest).cons ⟨.operator, s, offset⟩ := by
  rw [run_operator hmode hs.ne_nil hs.special (hs.strip?_eq_none hends) hends.plain,
    String.ofList_toList]

theorem run_string {q : Char} (hq : isQuote q = true) {s : String} (hs : q ∉ s.toList)
    (mode : Mode) (rest : List Char) (offset : Nat) :
    run mode offset (q :: s.toList ++ [q] ++ rest) =
      (run mode (offset + Text.byteLength (q :: s.toList ++ [q])) rest).cons
        ⟨.quoted, s, offset⟩ := by
  have hsplit : q :: s.toList ++ [q] ++ rest = q :: s.toList ++ q :: rest := by simp
  rw [hsplit, run_quoted hq hs, byteLength_quoted hq, String.ofList_toList]

end Tokens

/-! ## Pieces of text -/

/-- The scan with more tokens in front. -/
def prepend (tokens : List Token) (s : Scan) : Scan :=
  ⟨tokens ++ s.tokens, s.ending⟩

theorem prepend_prepend (tokens more : List Token) (s : Scan) :
    prepend tokens (prepend more s) = prepend (tokens ++ more) s := by
  rw [prepend, prepend, prepend, List.append_assoc]

/-- **`Writes mode offset cs tokens after`** — the text `cs`, which stands at `offset` in the given
mode, scans to the tokens and leaves the mode `after` behind, whatever follows; inside a block what
follows has to begin with a blank. -/
def Writes (mode : Mode) (offset : Nat) (cs : List Char) (tokens : List Token) (after : Mode) :
    Prop :=
  ∀ rest, (after.isBlock = true → Text.BeginsBlank rest) →
    run mode offset (cs ++ rest) = (run after (offset + Text.byteLength cs) rest).prepend tokens

/-- **`IsGap mode gap`** — blanks that a scan drops in the mode. -/
def IsGap (mode : Mode) (gap : List Char) : Prop :=
  ∀ c ∈ gap, mode.isBlock = true ∧ Text.isBlank c = true

theorem isGap_nil (mode : Mode) : IsGap mode [] := nofun

theorem isGap_of_isSpace {gap : List Char} (h : Text.IsSpace gap) {mode : Mode}
    (hmode : mode.isBlock = true) : IsGap mode gap :=
  fun c hc => ⟨hmode, h.blank c hc⟩

theorem run_gap {mode : Mode} {gap : List Char} (h : IsGap mode gap) (offset : Nat)
    (cs : List Char) :
    run mode offset (gap ++ cs) = run mode (offset + Text.byteLength gap) cs := by
  induction gap generalizing offset with
  | nil => rfl
  | cons c gap ih =>
      obtain ⟨⟨hmode, hc⟩, hgap⟩ := List.forall_mem_cons.mp h
      rw [List.cons_append, run_blank hmode hc, ih hgap, Text.byteLength_cons, Nat.add_assoc]

theorem writes_nil (mode : Mode) (offset : Nat) : Writes mode offset [] [] mode := by
  intro rest _
  rfl

/-- **Pieces are put together**, if inside a block the second begins with a blank. -/
theorem Writes.append {mode mid after : Mode} {offset : Nat} {cs ds : List Char}
    {ts us : List Token} (h : Writes mode offset cs ts mid)
    (hnext : Writes mid (offset + Text.byteLength cs) ds us after)
    (hblank : mid.isBlock = true → Text.BeginsBlank ds) :
    Writes mode offset (cs ++ ds) (ts ++ us) after := by
  intro rest hrest
  rw [List.append_assoc, h (ds ++ rest) fun hmid => (hblank hmid).append rest, hnext rest hrest,
    prepend_prepend, Text.byteLength_append, Nat.add_assoc]

section Pieces

variable {mode : Mode} {gap : List Char}

theorem writes_delimiter (hgap : IsGap mode gap) (d : Delimiter) (offset : Nat) :
    Writes mode offset (gap ++ d.text.toList) [⟨.delimiter, d.text, offset + Text.byteLength gap⟩]
      (.behind d (offset + Text.byteLength gap)) := by
  intro rest _
  rw [List.append_assoc, run_gap hgap, run_delimiter, Text.byteLength_append, d.byteLength_text,
    Nat.add_assoc]
  rfl

theorem writes_quoted (hgap : IsGap mode gap) {q : Char} (hq : isQuote q = true) {s : String}
    (hs : q ∉ s.toList) (offset : Nat) :
    Writes mode offset (gap ++ (q :: s.toList ++ [q]))
      [⟨.quoted, s, offset + Text.byteLength gap⟩] mode := by
  intro rest _
  rw [List.append_assoc, run_gap hgap, run_string hq hs, Text.byteLength_append gap,
    Nat.add_assoc]
  rfl

theorem writes_word (hgap : IsGap mode gap) (hmode : mode.isBlock = true) {s : String}
    (hs : IsName s) (offset : Nat) :
    Writes mode offset (gap ++ s.toList) [⟨.word, s, offset + Text.byteLength gap⟩] mode := by
  intro rest hrest
  have hends : Ends s.toList rest := (hrest hmode).ends _
  rw [List.append_assoc, run_gap hgap, run_word hmode hs hends, Text.byteLength_append,
    Nat.add_assoc]
  rfl

theorem writes_operator (hgap : IsGap mode gap) (hmode : mode.isBlock = true) {s : String}
    (hs : IsSign s) (offset : Nat) :
    Writes mode offset (gap ++ s.toList) [⟨.operator, s, offset + Text.byteLength gap⟩] mode := by
  intro rest hrest
  have hends : Ends s.toList rest := (hrest hmode).ends _
  rw [List.append_assoc, run_gap hgap, run_sign hmode hs hends, Text.byteLength_append,
    Nat.add_assoc]
  rfl

end Pieces

/-! ## Texts built up from the left

Each law takes a text that is built up to some place and writes one more token behind it. -/

namespace Writes

variable {start mode : Mode} {offset : Nat} {cs : List Char} {ts : List Token}

theorem opener (h : Writes start offset cs ts .literal) (kind : BlockKind) :
    ∃ t inside, t.Is .delimiter (Delimiter.opening kind).text ∧ inside.isBlock = true ∧
      Writes start offset (cs ++ (Delimiter.opening kind).text.toList) (ts ++ [t]) inside := by
  have hopen := writes_delimiter (isGap_nil .literal) (.opening kind)
    (offset + Text.byteLength cs)
  exact ⟨_, _, ⟨rfl, rfl⟩, rfl, h.append hopen nofun⟩

theorem literalQuoted (h : Writes start offset cs ts .literal) {q : Char} (hq : isQuote q = true)
    {s : String} (hs : q ∉ s.toList) :
    ∃ t, t.Is .quoted s ∧
      Writes start offset (cs ++ (q :: s.toList ++ [q])) (ts ++ [t]) .literal := by
  have hquoted := writes_quoted (isGap_nil .literal) hq hs (offset + Text.byteLength cs)
  exact ⟨_, ⟨rfl, rfl⟩, h.append hquoted nofun⟩

section Inside

variable {gap : List Char} (h : Writes start offset cs ts mode) (hmode : mode.isBlock = true)
  (hgap : Text.IsSpace gap)

include h hmode hgap

theorem closer (kind : BlockKind) :
    ∃ t, t.Is .delimiter (Delimiter.closing kind).text ∧
      Writes start offset (cs ++ (gap ++ (Delimiter.closing kind).text.toList)) (ts ++ [t])
        .literal := by
  have hclose := writes_delimiter (isGap_of_isSpace hgap hmode) (.closing kind)
    (offset + Text.byteLength cs)
  exact ⟨_, ⟨rfl, rfl⟩, h.append hclose fun _ => hgap.beginsBlank.append _⟩

theorem word {s : String} (hs : IsName s) :
    ∃ t, t.Is .word s ∧ Writes start offset (cs ++ (gap ++ s.toList)) (ts ++ [t]) mode := by
  have hword := writes_word (isGap_of_isSpace hgap hmode) hmode hs (offset + Text.byteLength cs)
  exact ⟨_, ⟨rfl, rfl⟩, h.append hword fun _ => hgap.beginsBlank.append _⟩

theorem sign {s : String} (hs : IsSign s) :
    ∃ t, t.Is .operator s ∧ Writes start offset (cs ++ (gap ++ s.toList)) (ts ++ [t]) mode := by
  have hsign := writes_operator (isGap_of_isSpace hgap hmode) hmode hs (offset + Text.byteLength cs)
  exact ⟨_, ⟨rfl, rfl⟩, h.append hsign fun _ => hgap.beginsBlank.append _⟩

theorem quoted {q : Char} (hq : isQuote q = true) {s : String} (hs : q ∉ s.toList) :
    ∃ t, t.Is .quoted s ∧
      Writes start offset (cs ++ (gap ++ (q :: s.toList ++ [q]))) (ts ++ [t]) mode := by
  have hquoted := writes_quoted (isGap_of_isSpace hgap hmode) hq hs (offset + Text.byteLength cs)
  exact ⟨_, ⟨rfl, rfl⟩, h.append hquoted fun _ => hgap.beginsBlank.append _⟩

end Inside

/-- A whole text that is built up ends where it began, outside every block. -/
theorem ofText_eq {text : String} (h : Writes .literal 0 text.toList ts .literal) :
    ofText text = ⟨ts, .complete⟩ := by
  have hrun := h [] nofun
  rw [List.append_nil, run] at hrun
  rw [ofText, hrun, prepend, List.append_nil]
  rfl

end Writes

end Scan

end TemplateLang

import TemplateLang.Proofs.Scan.Segmentation
import TemplateLang.Proofs.Tokens

/-!
# TemplateLang.Proofs.Scan.Delimiters — where delimiters are recognised

A scan looks for a delimiter wherever a token could begin, and a plain run looks again in front of
each of its characters. A string does not look inside, and that is meant so. A run of special
characters does not look either, and the percent sign is one of them: a run that ends in front of a
closing brace has taken the first half of a closing delimiter. `Fate` lists what can have become of
a delimiter that the source reads: it is a token, it overlaps an earlier delimiter, it stands in a
string, or an operator has swallowed it. Main statement (`delimiter_recognised_iff`): outside
strings and earlier delimiters a delimiter is recognised exactly when no operator has swallowed it.
-/

namespace TemplateLang

/-! ## The two characters of a delimiter -/

/-- The first character of a delimiter takes one byte, and the two are never both special. -/
theorem Delimiter.exists_pair (d : Delimiter) :
    ∃ c e, d.text.toList = [c, e] ∧ c.utf8Size = 1 ∧ (isSpecial c && isSpecial e) = false := by
  rcases d with block | block <;> cases block <;> exact ⟨_, _, rfl, by decide, by decide⟩

/-- A place in a text that begins with a piece is behind the piece or inside it. -/
theorem Text.behind_or_inside {piece rest front cs : List Char}
    (h : piece ++ rest = front ++ cs) :
    (∃ more, front = piece ++ more ∧ rest = more ++ cs) ∨
      ∃ c inside, piece = front ++ c :: inside ∧ cs = c :: (inside ++ rest) := by
  rcases List.append_eq_append_iff.mp h with ⟨more, hfront, hrest⟩ | ⟨inside, hpiece, hcs⟩
  · exact .inl ⟨more, hfront, hrest⟩
  · cases inside with
    | nil => exact .inl ⟨[], by rw [hpiece]; simp, by rw [hcs]; rfl⟩
    | cons c inside => exact .inr ⟨c, inside, hpiece, hcs⟩

namespace Scan

/-! ## What becomes of a delimiter -/

/-- **`Fate tokens place d`** — what the tokens make of the delimiter `d` at the place. -/
inductive Fate (tokens : List Token) (place : Nat) (d : Delimiter) : Prop
  | recognised {t : Token} (ht : t ∈ tokens) (hd : t.Is .delimiter d.text)
      (hplace : t.offset = place)
  | overlapped {t : Token} (ht : t ∈ tokens) (hkind : t.kind = .delimiter)
      (hbefore : t.offset < place) (hover : place < t.span.stop)
  | quoted {t : Token} (ht : t ∈ tokens) (hkind : t.kind = .quoted) (hin : t.span.Covers place)
  | swallowed {t : Token} (ht : t ∈ tokens) (hkind : t.kind = .operator)
      (hbefore : t.offset < place) (hlast : t.span.stop = place + 1)

variable {tokens : List Token} {place : Nat} {d : Delimiter}

theorem Fate.cons (h : Fate tokens place d) (t : Token) : Fate (t :: tokens) place d := by
  cases h with
  | recognised ht hd hplace => exact .recognised (List.mem_cons_of_mem t ht) hd hplace
  | overlapped ht hkind hbefore hover =>
      exact .overlapped (List.mem_cons_of_mem t ht) hkind hbefore hover
  | quoted ht hkind hin => exact .quoted (List.mem_cons_of_mem t ht) hkind hin
  | swallowed ht hkind hbefore hlast =>
      exact .swallowed (List.mem_cons_of_mem t ht) hkind hbefore hlast

/-- What becomes of a delimiter behind a piece of the text, said from the beginning of the piece. -/
theorem Fate.behind (piece : List Char) {more : List Char} {offset stop : Nat}
    (h : Fate tokens (stop + Text.byteLength more) d)
    (hstop : stop = offset + Text.byteLength piece) :
    Fate tokens (offset + Text.byteLength (piece ++ more)) d := by
  rwa [Text.byteLength_append, ← Nat.add_assoc, ← hstop]

/-- Inside a delimiter there is either the delimiter itself or its second half. -/
theorem fate_of_delimiter {d' : Delimiter} {front inside rest back : List Char} {c : Char}
    (hpiece : d'.text.toList = front ++ c :: inside)
    (hcs : d.text.toList ++ back = c :: (inside ++ rest)) (offset : Nat) :
    Fate (⟨.delimiter, d'.text, offset⟩ :: tokens) (offset + Text.byteLength front) d := by
  cases front with
  | nil =>
      have hsame : d'.text.toList ++ rest = d.text.toList ++ back := by
        rw [hpiece, hcs]
        rfl
      have hstrip : Delimiter.strip? (d'.text.toList ++ rest) = some (d, back) :=
        Delimiter.strip?_eq_some_iff.mpr hsame
      rw [Delimiter.strip?_eq_some_iff.mpr rfl] at hstrip
      cases hstrip
      exact .recognised List.mem_cons_self ⟨rfl, rfl⟩ rfl
  | cons b front =>
      have hlength := d'.byteLength_text
      rw [hpiece, Text.byteLength_append] at hlength
      have hc : 0 < Text.byteLength (c :: inside) := by
        have hsize := c.utf8Size_pos
        rw [Text.byteLength_cons]
        omega
      have hfront : 0 < Text.byteLength (b :: front) := by
        have hb := b.utf8Size_pos
        rw [Text.byteLength_cons]
        omega
      have hstop : (Token.mk .delimiter d'.text offset).span.stop = offset + 2 :=
        congrArg (offset + ·) d'.byteLength_text
      refine .overlapped List.mem_cons_self rfl (by simp only; omega) ?_
      rw [hstop]
      omega

/-- Inside an operator a delimiter can only begin at the last character, and not at the first. -/
theorem fate_of_operator {special front inside rest back : List Char} {c : Char}
    (hspecial : ∀ x ∈ special, isSpecial x = true)
    (hstart : Delimiter.strip? (special ++ rest) = none)
    (hpiece : special = front ++ c :: inside)
    (hcs : d.text.toList ++ back = c :: (inside ++ rest)) (offset : Nat) :
    Fate (⟨.operator, String.ofList special, offset⟩ :: tokens)
      (offset + Text.byteLength front) d := by
  obtain ⟨a, e, htext, hsize, hnot⟩ := d.exists_pair
  rw [htext] at hcs
  obtain ⟨rfl, hbehind⟩ := List.cons_eq_cons.mp hcs
  have ha : isSpecial a = true := hspecial a (by rw [hpiece]; simp)
  rw [ha, Bool.true_and] at hnot
  cases inside with
  | cons b inside =>
      obtain ⟨rfl, -⟩ := List.cons_eq_cons.mp hbehind
      rw [hspecial e (by rw [hpiece]; simp)] at hnot
      cases hnot
  | nil =>
      cases front with
      | nil =>
          have hstrip : Delimiter.strip? (special ++ rest) = some (d, back) := by
            refine Delimiter.strip?_eq_some_iff.mpr ?_
            rw [hpiece, htext]
            exact hcs.symm
          rw [hstart] at hstrip
          cases hstrip
      | cons b front =>
          have hb := b.utf8Size_pos
          have hstop : (Token.mk .operator (String.ofList special) offset).span.stop =
              offset + Text.byteLength (b :: front) + 1 := by
            show offset + Text.byteLength (String.ofList special).toList = _
            rw [String.toList_ofList, hpiece, Text.byteLength_append, Text.byteLength_cons a, hsize,
              Text.byteLength_nil, Nat.add_assoc]
          refine .swallowed List.mem_cons_self rfl ?_ hstop
          rw [Text.byteLength_cons]
          simp only
          omega

/-- **Every delimiter has a fate.** Wherever a text that scans completely reads a delimiter, the
tokens show what became of it. -/
theorem Runs.fate {mode : Mode} {offset : Nat} {cs : List Char} {s : Scan}
    (h : Runs mode offset cs s) (hend : s.ending = .complete) {front back : List Char}
    (hcs : cs = front ++ (d.text.toList ++ back)) :
    Fate s.tokens (offset + Text.byteLength front) d := by
  induction h generalizing front with
  | done mode offset =>
      obtain ⟨c, e, htext, -⟩ := d.exists_pair
      rw [htext] at hcs
      simp at hcs
  | @delimiter mode offset rest s d' _ ih =>
      rcases Text.behind_or_inside hcs with ⟨more, rfl, hrest⟩ | ⟨c, inside, hpiece, hinside⟩
      · exact ((ih hend hrest).cons _).behind _ (congrArg (offset + ·) d'.byteLength_text.symm)
      · exact fate_of_delimiter hpiece hinside offset
  | @blank mode offset c rest s hmode hc _ ih =>
      cases front with
      | nil =>
          have hstrip : Delimiter.strip? (c :: rest) = some (d, back) :=
            Delimiter.strip?_eq_some_iff.mpr hcs
          rw [Delimiter.strip?_of_isBlank hc] at hstrip
          cases hstrip
      | cons b more =>
          obtain ⟨rfl, hrest⟩ := List.cons_eq_cons.mp hcs
          exact (ih hend hrest).behind [c] rfl
  | @operator mode offset special rest s hmode hne hspecial hstart _ _ ih =>
      rcases Text.behind_or_inside hcs with ⟨more, rfl, hrest⟩ | ⟨c, inside, hpiece, hinside⟩
      · exact ((ih hend hrest).cons _).behind _ rfl
      · exact fate_of_operator hspecial hstart hpiece hinside offset
  | @quoted mode offset q body rest s hq hbody _ ih =>
      have hlength : Text.byteLength (q :: body ++ [q]) = Text.byteLength body + 2 :=
        byteLength_quoted hq body
      have hsplit : (q :: body ++ [q]) ++ rest = front ++ (d.text.toList ++ back) := by
        rw [← hcs]
        simp
      rcases Text.behind_or_inside hsplit with ⟨more, rfl, hrest⟩ | ⟨c, inside, hpiece, -⟩
      · exact ((ih hend hrest).cons _).behind _ (congrArg (offset + ·) hlength.symm)
      · have hc := c.utf8Size_pos
        rw [hpiece, Text.byteLength_append, Text.byteLength_cons] at hlength
        have hstop : (Token.mk .quoted (String.ofList body) offset).span.stop =
            offset + (Text.byteLength body + 2) := by
          show offset + (Text.byteLength (String.ofList body).toList + 2) = _
          rw [String.toList_ofList]
        refine .quoted List.mem_cons_self rfl ⟨Nat.le_add_right _ _, ?_⟩
        rw [hstop]
        omega
  | unclosed => cases hend
  | @plain mode offset plain rest s hne hplain _ ih =>
      rcases Text.behind_or_inside hcs with ⟨more, rfl, hrest⟩ | ⟨c, inside, hpiece, hinside⟩
      · exact ((ih hend hrest).cons _).behind _ rfl
      · -- a plain run stops in front of a delimiter
        have hgo := hplain.goesOn front (c :: inside) hpiece (List.cons_ne_nil c inside)
        have hstrip : Delimiter.strip? (c :: (inside ++ rest)) = some (d, back) :=
          Delimiter.strip?_eq_some_iff.mpr hinside.symm
        rw [List.cons_append, stopsAt, hstrip] at hgo
        cases hgo

end Scan

/-! ## Delimiters of a source -/

/-- **`Visible source tokens place d`** — the source reads the delimiter at the place, outside
strings and not in the middle of a delimiter that began earlier. -/
structure Visible (source : Source) (tokens : List Token) (place : Nat) (d : Delimiter) : Prop where
  reads : source.Reads ⟨place, 2⟩ d.text.toList
  outside : ∀ t ∈ tokens, t.kind = .quoted → ¬ t.span.Covers place
  apart : ∀ t ∈ tokens, t.kind = .delimiter → t.offset < place → t.span.stop ≤ place

/-- Of two tokens the one that begins earlier ends before the other begins. -/
theorem Lossless.stop_le_of_lt {source : Source} {tokens : List Token}
    (h : Lossless source tokens) {t u : Token} (ht : t ∈ tokens) (hu : u ∈ tokens)
    (hlt : t.offset < u.offset) : t.span.stop ≤ u.offset := by
  obtain ⟨i, hi, rfl⟩ := List.getElem_of_mem ht
  obtain ⟨j, hj, rfl⟩ := List.getElem_of_mem hu
  have hordered := List.pairwise_iff_getElem.mp h.ordered
  rcases Nat.lt_trichotomy i j with hij | rfl | hij
  · exact hordered i j hi hj hij
  · exact absurd hlt (Nat.lt_irrefl _)
  · have hback : tokens[j].offset + tokens[j].length ≤ tokens[i].offset := hordered j i hj hi hij
    omega

namespace TokenStream

/-- **Delimiters are recognised unless an operator swallows them.** A delimiter that the source
reads outside strings and earlier delimiters is a token at its place, or else its first half is the
last character of an operator. -/
theorem delimiter_recognised_iff {source : Source} {stream : TokenStream}
    (h : ofSource source = .ok stream) {place : Nat} {d : Delimiter}
    (hd : Visible source stream.tokens place d) :
    (∃ t ∈ stream.tokens, t.Is .delimiter d.text ∧ t.offset = place) ↔
      ¬ ∃ t ∈ stream.tokens, t.kind = .operator ∧ t.offset < place ∧
        t.span.stop = place + 1 := by
  have hlossless := lossless_of_ofSource h
  obtain ⟨hend, hne, rfl⟩ := ofSource_eq_ok_iff.mp h
  obtain ⟨front, back, htext, hfront, -⟩ := hd.reads
  constructor
  · rintro ⟨u, hu, -, hplace⟩ ⟨t, ht, -, hbefore, hlast⟩
    have hstop := hlossless.stop_le_of_lt ht hu (hplace ▸ hbefore)
    omega
  · intro hnot
    have hfate := (Scan.runs_run .literal 0 source.text.toList).fate hend
      (htext.trans (List.append_assoc _ _ _))
    rw [Nat.zero_add, hfront] at hfate
    cases hfate with
    | recognised ht hd hplace => exact ⟨_, ht, hd, hplace⟩
    | overlapped ht hkind hbefore hover =>
        exact absurd (hd.apart _ ht hkind hbefore) (Nat.not_le.mpr hover)
    | quoted ht hkind hin => exact absurd hin (hd.outside _ ht hkind)
    | swallowed ht hkind hbefore hlast => exact absurd ⟨_, ht, hkind, hbefore, hlast⟩ hnot

/-- A condition that ends in a parenthesis, with the closing delimiter flush behind it. -/
def gluedSource : Source :=
  ⟨"template", "\x7b% if (a)%\x7dx\x7b% endif %\x7d"⟩

/-- Its tokens: the parenthesis and the percent sign are one operator, and the brace begins a
word. -/
def gluedTokens : List Token :=
  [⟨.delimiter, "\x7b%", 0⟩, ⟨.word, "if", 3⟩, ⟨.operator, "(", 6⟩, ⟨.word, "a", 7⟩,
    ⟨.operator, ")%", 8⟩, ⟨.word, "\x7dx", 10⟩, ⟨.delimiter, "\x7b%", 12⟩, ⟨.word, "endif", 15⟩,
    ⟨.delimiter, "%\x7d", 21⟩]

theorem ofSource_gluedSource :
    ofSource gluedSource = .ok ⟨gluedSource, gluedTokens, 0, nofun, Nat.zero_le _⟩ := by
  have hscan : Scan.ofText gluedSource.text = ⟨gluedTokens, .complete⟩ := by decide +kernel
  exact ofSource_of_scan hscan nofun

/-- There is no string in the source, so a delimiter is visible wherever it is read and does not
overlap another. -/
theorem visible_gluedSource {place : Nat} (front back : List Char)
    (htext : gluedSource.text.toList = front ++ "%\x7d".toList ++ back)
    (hplace : Text.byteLength front = place)
    (hapart : ∀ t ∈ gluedTokens, t.kind = .delimiter → t.offset < place → t.span.stop ≤ place) :
    Visible gluedSource gluedTokens place (.closing .statement) where
  reads := ⟨front, back, htext, hplace, rfl⟩
  outside := by
    have hnone : ∀ t ∈ gluedTokens, t.kind ≠ .quoted := by decide
    intro t ht hkind
    exact absurd hkind (hnone t ht)
  apart := hapart

/-- The closing delimiter of the end tag is recognised: no operator stands in front of it. -/
theorem gluedSource_closes_at_the_end :
    Visible gluedSource gluedTokens 21 (.closing .statement) ∧
      ∃ t ∈ gluedTokens, t.Is .delimiter "%\x7d" ∧ t.offset = 21 := by
  have hvisible : Visible gluedSource gluedTokens 21 (.closing .statement) :=
    visible_gluedSource "\x7b% if (a)%\x7dx\x7b% endif ".toList [] (by decide) (by decide)
      (by decide)
  refine ⟨hvisible, (delimiter_recognised_iff ofSource_gluedSource hvisible).mpr ?_⟩
  have hnone : ∀ t ∈ gluedTokens, t.kind = .operator → t.offset < 21 → t.span.stop ≠ 21 + 1 := by
    decide
  rintro ⟨t, ht, hkind, hbefore, hlast⟩
  exact hnone t ht hkind hbefore hlast

/-- Not every visible delimiter is recognised: the one behind the parenthesis is no token. -/
theorem not_every_visible_delimiter_recognised :
    ¬ ∀ (source : Source) (stream : TokenStream) (place : Nat) (d : Delimiter),
      ofSource source = .ok stream → Visible source stream.tokens place d →
        ∃ t ∈ stream.tokens, t.kind = .delimiter ∧ t.offset = place := by
  intro hall
  have hvisible : Visible gluedSource gluedTokens 9 (.closing .statement) :=
    visible_gluedSource "\x7b% if (a)".toList "x\x7b% endif %\x7d".toList (by decide) (by decide)
      (by decide)
  obtain ⟨t, ht, hkind, hplace⟩ := hall _ _ _ _ ofSource_gluedSource hvisible
  have hnone : ∀ t ∈ gluedTokens, t.kind = .delimiter → t.offset ≠ 9 := by decide
  exact hnone t ht hkind hplace

end TokenStream

end TemplateLang

import TemplateLang.Proofs.Places
import TemplateLang.Proofs.Scan.Layout
import TemplateLang.Proofs.Scan.Segmentation

/-!
# TemplateLang.Proofs.Scan.Cut — where a text can be cut without changing its tokens

Delimiters and strings end by themselves: what follows them has no part in them. So a text can be
cut behind one of them, and the piece in front of the cut scans to the same tokens, whatever is put
behind it (`Seals`). Main statement (`Runs.cut`): behind every delimiter and every string of a scan
there is such a cut.

A piece that ends outside every block leaves nothing behind but its length: what follows it scans as
it would by itself, further on by as many bytes (`Closed.ofText_append`).

All that a scan looks at beyond a token are two characters: a delimiter is a pair, and a run asks
whether one begins. The piece in front of a cut ends in a delimiter or a string and has two
characters at least, so the runs inside it never see what stands behind the cut.
-/

namespace TemplateLang

/-! ## Two characters ahead -/

/-- Whether a delimiter begins is a matter of two characters. -/
theorem Delimiter.strip?_append_eq_none {cs : List Char} (h : 2 ≤ cs.length) {ds : List Char}
    (hnone : strip? (cs ++ ds) = none) (es : List Char) : strip? (cs ++ es) = none := by
  match cs, h with
  | a :: b :: cs, _ =>
      refine strip?_cons_cons_eq_none ?_ ?_ ?_ (cs ++ es)
      · rintro rfl
        constructor
        · rintro rfl
          cases hnone
        · rintro rfl
          cases hnone
      · rintro rfl rfl
        cases hnone
      · rintro rfl rfl
        cases hnone

namespace Scan

/-- Whether a plain run stops is a matter of two characters. -/
theorem stopsAt_append (block : Bool) {cs : List Char} (h : 2 ≤ cs.length) (ds es : List Char) :
    stopsAt block (cs ++ ds) = stopsAt block (cs ++ es) := by
  have hstrip : (Delimiter.strip? (cs ++ ds)).isSome = (Delimiter.strip? (cs ++ es)).isSome := by
    cases hd : Delimiter.strip? (cs ++ ds) with
    | none => rw [Delimiter.strip?_append_eq_none h hd es]
    | some found =>
        cases he : Delimiter.strip? (cs ++ es) with
        | none =>
            rw [Delimiter.strip?_append_eq_none h he ds] at hd
            cases hd
        | some other => rfl
  cases cs with
  | nil => exact absurd h (by decide)
  | cons c cs =>
      rw [List.cons_append, List.cons_append] at hstrip ⊢
      simp only [stopsAt, hstrip]

/-- A plain run in front of two characters or more does not look beyond them. -/
theorem IsRun.append {block : Bool} {plain front ds : List Char}
    (h : IsRun block plain (front ++ ds)) (hfront : 2 ≤ front.length) (es : List Char) :
    IsRun block plain (front ++ es) where
  goesOn begun back heq hne := by
    have hlength : 2 ≤ (back ++ front).length := by
      rw [List.length_append]
      omega
    rw [← List.append_assoc, stopsAt_append block hlength es ds, List.append_assoc]
    exact h.goesOn begun back heq hne
  stops := by
    rw [stopsAt_append block hfront es ds]
    exact h.stops

/-! ## Pieces that stand by themselves -/

/-- **`Seals mode offset front tokens after`** — the piece `front`, which stands at `offset` in the
given mode, scans to the tokens and leaves the mode `after` behind, whatever follows. -/
structure Seals (mode : Mode) (offset : Nat) (front : List Char) (tokens : List Token)
    (after : Mode) : Prop where
  run_append : ∀ rest, run mode offset (front ++ rest) =
    (run after (offset + Text.byteLength front) rest).prepend tokens
  isBlock_after : after.isBlock = tokens.foldl Token.insideBehind mode.isBlock
  two_le_length : 2 ≤ front.length

namespace Seals

variable {mode mid after : Mode} {offset stop : Nat} {front : List Char} {tokens : List Token}

/-- A piece that begins with a token. -/
theorem cons {piece : List Char} {t : Token} (h : Seals mid stop front tokens after)
    (hrun : ∀ rest, run mode offset (piece ++ (front ++ rest)) =
      (run mid stop (front ++ rest)).cons t)
    (hstop : stop = offset + Text.byteLength piece)
    (hmid : mid.isBlock = t.insideBehind mode.isBlock) :
    Seals mode offset (piece ++ front) (t :: tokens) after where
  run_append rest := by
    rw [List.append_assoc, hrun, h.run_append, Text.byteLength_append, ← Nat.add_assoc, ← hstop]
    rfl
  isBlock_after := by
    rw [h.isBlock_after, hmid]
    rfl
  two_le_length := by
    have hfront := h.two_le_length
    rw [List.length_append]
    omega

/-- A piece that is one token. -/
theorem single {piece : List Char} {t : Token}
    (hrun : ∀ rest, run mode offset (piece ++ rest) = (run after stop rest).cons t)
    (hstop : stop = offset + Text.byteLength piece)
    (hafter : after.isBlock = t.insideBehind mode.isBlock) (hpiece : 2 ≤ piece.length) :
    Seals mode offset piece [t] after where
  run_append rest := by
    rw [hrun, hstop]
    rfl
  isBlock_after := hafter
  two_le_length := hpiece

/-- A blank inside a block in front of a piece. -/
theorem blank {c : Char} (hmode : mode.isBlock = true) (hc : Text.isBlank c = true)
    (h : Seals mode (offset + c.utf8Size) front tokens after) :
    Seals mode offset (c :: front) tokens after where
  run_append rest := by
    rw [List.cons_append, run_blank hmode hc, h.run_append, Text.byteLength_cons, Nat.add_assoc]
  isBlock_after := h.isBlock_after
  two_le_length := Nat.le_succ_of_le h.two_le_length

end Seals

/-- **`CutBehind mode offset cs tokens t`** — the text `cs`, which stands at `offset` in the given
mode, can be cut behind the token `t`: the piece in front of the cut ends in the token as it is
spelled, and scans to `tokens` whatever follows. -/
def CutBehind (mode : Mode) (offset : Nat) (cs : List Char) (tokens : List Token) (t : Token) :
    Prop :=
  ∃ front back raw after, cs = front ++ back ∧ Seals mode offset front tokens after ∧
    t.SpelledAs raw ∧ raw <:+ front

/-- A cut stays where it is when a token stands in front of the text. -/
theorem CutBehind.cons {mode mid : Mode} {offset stop : Nat} {piece rest : List Char}
    {tokens : List Token} {first t : Token} (h : CutBehind mid stop rest tokens t)
    (hrun : ∀ front back, rest = front ++ back → 2 ≤ front.length → ∀ other,
      run mode offset (piece ++ (front ++ other)) = (run mid stop (front ++ other)).cons first)
    (hstop : stop = offset + Text.byteLength piece)
    (hmid : mid.isBlock = first.insideBehind mode.isBlock) :
    CutBehind mode offset (piece ++ rest) (first :: tokens) t := by
  obtain ⟨front, back, raw, after, rfl, hseals, hraw, hsuffix⟩ := h
  exact ⟨piece ++ front, back, raw, after, (List.append_assoc _ _ _).symm,
    hseals.cons (hrun front back rfl hseals.two_le_length) hstop hmid, hraw,
    hsuffix.trans (List.suffix_append piece front)⟩

/-- **A text can be cut behind every delimiter and every string.** -/
theorem Runs.cut {mode : Mode} {offset : Nat} {cs : List Char} {s : Scan}
    (h : Runs mode offset cs s) {before behind : List Token} {t : Token}
    (htokens : s.tokens = before ++ t :: behind)
    (ht : t.kind = .delimiter ∨ t.kind = .quoted) :
    CutBehind mode offset cs (before ++ [t]) t := by
  induction h generalizing before with
  | done mode offset => exact absurd htokens (by simp)
  | @delimiter mode offset rest s d _ ih =>
      have hstop : offset + 2 = offset + Text.byteLength d.text.toList := by
        rw [d.byteLength_text]
      have hmid := (Token.insideBehind_delimiter d offset mode.isBlock).symm
      cases before with
      | nil =>
          obtain ⟨rfl, -⟩ := List.cons_eq_cons.mp htokens
          have hlength : 2 ≤ d.text.toList.length := by
            rcases d with block | block <;> cases block <;> decide
          exact ⟨d.text.toList, rest, _, _, rfl,
            .single (run_delimiter mode offset d) hstop hmid hlength, rfl, List.suffix_refl _⟩
      | cons first before =>
          obtain ⟨rfl, hbehind⟩ := List.cons_eq_cons.mp htokens
          exact (ih hbehind).cons
            (fun front _ _ _ other => run_delimiter mode offset d (front ++ other)) hstop hmid
  | @blank mode offset c rest s hmode hc _ ih =>
      obtain ⟨front, back, raw, after, rfl, hseals, hraw, hsuffix⟩ := ih htokens
      exact ⟨c :: front, back, raw, after, rfl, hseals.blank hmode hc, hraw,
        hsuffix.trans (List.suffix_cons c front)⟩
  | @operator mode offset special rest s hmode hne hspecial hstart hend _ ih =>
      cases before with
      | nil =>
          obtain ⟨rfl, -⟩ := List.cons_eq_cons.mp htokens
          exact absurd ht (by simp)
      | cons first before =>
          obtain ⟨rfl, hbehind⟩ := List.cons_eq_cons.mp htokens
          refine (ih hbehind).cons ?_ rfl (Token.insideBehind_of_kind (by simp) _).symm
          rintro front back rfl hfront other
          have hlength : 2 ≤ (special ++ front).length := by
            rw [List.length_append]
            omega
          rw [← List.append_assoc] at hstart
          refine run_operator hmode hne hspecial ?_ ?_ offset
          · rw [← List.append_assoc]
            exact Delimiter.strip?_append_eq_none hlength hstart other
          · cases front with
            | nil => exact absurd hfront (by decide)
            | cons c front => exact hend
  | @quoted mode offset q body rest s hq hbody _ ih =>
      have hsplit (tail : List Char) : q :: body ++ q :: tail = (q :: body ++ [q]) ++ tail := by
        simp
      have hrun (tail : List Char) : run mode offset (q :: body ++ [q] ++ tail) =
          (run mode (offset + (Text.byteLength body + 2)) tail).cons
            ⟨.quoted, String.ofList body, offset⟩ := by
        rw [← hsplit]
        exact run_quoted hq hbody mode offset
      have hstop := congrArg (offset + ·) (byteLength_quoted hq body).symm
      have hmid : mode.isBlock =
          (Token.mk .quoted (String.ofList body) offset).insideBehind mode.isBlock :=
        (Token.insideBehind_of_kind (by simp) _).symm
      rw [hsplit]
      cases before with
      | nil =>
          obtain ⟨rfl, -⟩ := List.cons_eq_cons.mp htokens
          have hraw : (Token.mk .quoted (String.ofList body) offset).SpelledAs
              (q :: body ++ [q]) := ⟨q, hq, by simpa using hbody, by simp⟩
          exact ⟨q :: body ++ [q], rest, _, _, rfl,
            .single hrun hstop hmid (by simp), hraw, List.suffix_refl _⟩
      | cons first before =>
          obtain ⟨rfl, hbehind⟩ := List.cons_eq_cons.mp htokens
          exact (ih hbehind).cons (fun front _ _ _ other => hrun (front ++ other)) hstop hmid
  | unclosed => exact absurd htokens (by simp)
  | @plain mode offset plain rest s hne hplain _ ih =>
      have hkind : mode.plainKind ≠ .delimiter ∧ mode.plainKind ≠ .quoted := by
        cases mode <;> exact ⟨nofun, nofun⟩
      cases before with
      | nil =>
          obtain ⟨rfl, -⟩ := List.cons_eq_cons.mp htokens
          exact absurd ht (by simp [hkind])
      | cons first before =>
          obtain ⟨rfl, hbehind⟩ := List.cons_eq_cons.mp htokens
          refine (ih hbehind).cons ?_ rfl (Token.insideBehind_of_kind hkind.1 _).symm
          rintro front back rfl hfront other
          exact run_plain hne (hplain.append hfront other) offset

/-! ## Texts further on -/

end Scan

/-- The mode, further on in the text by `n` bytes. -/
def Mode.shift (n : Nat) : Mode → Mode
  | .literal => .literal
  | .block kind offset => .block kind (offset + n)

/-- The ending, further on in the text by `n` bytes. -/
def Ending.shift (n : Nat) : Ending → Ending
  | .complete => .complete
  | .insideBlock kind offset => .insideBlock kind (offset + n)
  | .insideString quote offset => .insideString quote (offset + n)

/-- The scan, further on in the text by `n` bytes. -/
def Scan.shift (n : Nat) (s : Scan) : Scan :=
  ⟨s.tokens.map (Token.shift n), s.ending.shift n⟩

namespace Mode

variable (n : Nat) (mode : Mode)

theorem isBlock_shift : (mode.shift n).isBlock = mode.isBlock := by
  cases mode <;> rfl

theorem plainKind_shift : (mode.shift n).plainKind = mode.plainKind := by
  cases mode <;> rfl

theorem ending_shift : (mode.shift n).ending = mode.ending.shift n := by
  cases mode <;> rfl

theorem behind_shift (d : Delimiter) (offset : Nat) :
    (Mode.behind d offset).shift n = .behind d (offset + n) := by
  cases d <;> rfl

end Mode

namespace Scan

/-- **The rules do not ask where the text stands.** -/
theorem Runs.shift {mode : Mode} {offset : Nat} {cs : List Char} {s : Scan}
    (h : Runs mode offset cs s) (n : Nat) :
    Runs (mode.shift n) (offset + n) cs (s.shift n) := by
  have hmove (offset length : Nat) : offset + length + n = offset + n + length :=
    Nat.add_right_comm offset length n
  induction h with
  | done mode offset =>
      rw [Scan.shift, ← mode.ending_shift]
      exact .done _ _
  | delimiter d _ ih =>
      rw [hmove, Mode.behind_shift] at ih
      exact .delimiter d ih
  | blank hmode hc _ ih =>
      rw [hmove] at ih
      exact .blank ((Mode.isBlock_shift n _).trans hmode) hc ih
  | operator hmode hne hspecial hstart hend _ ih =>
      rw [hmove] at ih
      exact .operator ((Mode.isBlock_shift n _).trans hmode) hne hspecial hstart hend ih
  | quoted hq hbody _ ih =>
      rw [hmove] at ih
      exact .quoted hq hbody ih
  | unclosed hq hbody => exact .unclosed hq hbody
  | @plain mode offset plain rest s hne hplain _ ih =>
      rw [hmove] at ih
      rw [← mode.isBlock_shift n] at hplain
      have hruns := Runs.plain hne hplain ih
      rwa [mode.plainKind_shift] at hruns

theorem run_shift (mode : Mode) (offset : Nat) (cs : List Char) (n : Nat) :
    run (mode.shift n) (offset + n) cs = (run mode offset cs).shift n :=
  ((runs_run mode offset cs).shift n).eq_run

/-! ## Closed texts -/

/-- **`Closed text tokens`** — the text scans to the tokens and ends outside every block, and what
follows it scans as if it stood outside every block by itself. -/
def Closed (text : String) (tokens : List Token) : Prop :=
  ∀ rest : String, ofText (text ++ rest) =
    (run .literal (Text.byteLength text.toList) rest.toList).prepend tokens

theorem Closed.ofText_eq {text : String} {tokens : List Token} (h : Closed text tokens) :
    ofText text = ⟨tokens, .complete⟩ := by
  have hself := h ""
  rw [String.append_empty] at hself
  rw [hself, String.toList_empty, run, prepend, List.append_nil]
  rfl

/-- **What follows a closed text scans as it would by itself**, further on by the length of the
closed text. -/
theorem Closed.ofText_append {text : String} {tokens : List Token} (h : Closed text tokens)
    (rest : String) : ofText (text ++ rest) =
      ((ofText rest).shift (Text.byteLength text.toList)).prepend tokens := by
  have hshift := run_shift .literal 0 rest.toList (Text.byteLength text.toList)
  rw [Nat.zero_add] at hshift
  rw [h, ofText, ← hshift]
  rfl

/-- **A text has a closed beginning behind every delimiter and every string outside a block**,
which ends in that token as it is spelled. -/
theorem exists_closed_beginning {text : String} {before behind : List Token} {t : Token}
    (htokens : (ofText text).tokens = before ++ t :: behind)
    (ht : t.kind = .delimiter ∨ t.kind = .quoted)
    (houtside : (before ++ [t]).foldl Token.insideBehind false = false) :
    ∃ front back raw, text = front ++ back ∧ Closed front (before ++ [t]) ∧ t.SpelledAs raw ∧
      raw <:+ front.toList := by
  obtain ⟨front, back, raw, after, htext, hseals, hraw, hsuffix⟩ :=
    (runs_run .literal 0 text.toList).cut htokens ht
  have hafter : after = .literal := by
    have hmode := hseals.isBlock_after.trans houtside
    cases after with
    | literal => rfl
    | block kind start => cases hmode
  refine ⟨.ofList front, .ofList back, raw, ?_, ?_, hraw, by rwa [String.toList_ofList]⟩
  · apply String.toList_injective
    rw [htext, String.toList_append, String.toList_ofList, String.toList_ofList]
  · intro rest
    rw [ofText, String.toList_append, String.toList_ofList, hseals.run_append, hafter,
      Nat.zero_add]

/-- A text without tokens that ends outside every block is empty. -/
theorem eq_nil_of_run {mode : Mode} {offset : Nat} {cs : List Char}
    (hend : (run mode offset cs).ending = .complete) (htokens : (run mode offset cs).tokens = []) :
    cs = [] := by
  have hsegments := Segments.of_runs (runs_run mode offset cs) hend
  rw [htokens] at hsegments
  exact hsegments.eq_nil

/-- **A text that ends in a delimiter or a string is closed** if it ends outside every block. -/
theorem closed_of_last {text : String} {before : List Token} {t : Token}
    (h : ofText text = ⟨before ++ [t], .complete⟩) (ht : t.kind = .delimiter ∨ t.kind = .quoted) :
    Closed text (before ++ [t]) := by
  have hruns : Runs .literal 0 text.toList ⟨before ++ [t], .complete⟩ := by
    rw [← h]
    exact runs_run .literal 0 text.toList
  obtain ⟨front, back, _, rfl, hclosed, -⟩ :=
    exists_closed_beginning (congrArg tokens h) ht (Segments.of_runs hruns rfl).foldl_insideBehind
  rw [hclosed, prepend] at h
  obtain ⟨htokens, hend⟩ := Scan.mk.inj h
  have hback : back.toList = [] := eq_nil_of_run hend (List.append_right_eq_self.mp htokens)
  rw [String.toList_eq_nil_iff.mp hback, String.append_empty]
  exact hclosed

end Scan

end TemplateLang

import TemplateLang.Token.Scan

/-!
# TemplateLang.Proofs.Scan.Rules — the scan as rules of one step each

The scan decides at every place what stands there, in a fixed order. `Runs` states the outcome as
rules: each takes a piece of text off the front, says which token it is, and goes on behind it. The
side conditions of a rule describe the piece and what follows it, never the branches tried before,
so the rules can be read in both directions: what a text scans to is found by induction on a
derivation (`runs_run`), and that a text scans to given tokens is shown by building one
(`Runs.eq_run`).
-/

namespace TemplateLang

/-! ## Characters that begin nothing else -/

/-- A delimiter begins with a brace or a percent sign. -/
theorem Delimiter.strip?_cons_eq_none {c : Char} (hopen : c ≠ '{') (hclose : c ≠ '}')
    (hpercent : c ≠ '%') (cs : List Char) : strip? (c :: cs) = none := by
  unfold strip?
  split
  · next h => simp_all
  · next h => simp_all
  · next h => simp_all
  · next h => simp_all
  · rfl

theorem Delimiter.strip?_of_isBlank {c : Char} (h : Text.isBlank c = true) (cs : List Char) :
    strip? (c :: cs) = none := by
  refine strip?_cons_eq_none ?_ ?_ ?_ cs
  · rintro rfl
    exact absurd h (by decide)
  · rintro rfl
    exact absurd h (by decide)
  · rintro rfl
    exact absurd h (by decide)

/-- A delimiter is one of four pairs of characters. -/
theorem Delimiter.strip?_cons_cons_eq_none {c d : Char} (hopen : c = '{' → d ≠ '{' ∧ d ≠ '%')
    (hclose : c = '}' → d ≠ '}') (hpercent : c = '%' → d ≠ '}') (cs : List Char) :
    strip? (c :: d :: cs) = none := by
  unfold strip?
  split
  · next h =>
      cases h
      exact absurd rfl (hopen rfl).1
  · next h =>
      cases h
      exact absurd rfl (hclose rfl)
  · next h =>
      cases h
      exact absurd rfl (hopen rfl).2
  · next h =>
      cases h
      exact absurd rfl (hpercent rfl)
  · rfl

theorem Delimiter.byteLength_text (d : Delimiter) : Text.byteLength d.text.toList = 2 := by
  rcases d with block | block <;> cases block <;> rfl

theorem isQuote_iff {c : Char} : isQuote c = true ↔ c = '\'' ∨ c = '"' := by
  rw [isQuote, Bool.or_eq_true, beq_iff_eq, beq_iff_eq]

theorem Delimiter.strip?_of_isQuote {c : Char} (h : isQuote c = true) (cs : List Char) :
    strip? (c :: cs) = none := by
  rcases isQuote_iff.mp h with rfl | rfl <;> rfl

theorem utf8Size_of_isQuote {c : Char} (h : isQuote c = true) : c.utf8Size = 1 := by
  rcases isQuote_iff.mp h with rfl | rfl <;> rfl

theorem byteLength_quoted {q : Char} (hq : isQuote q = true) (body : List Char) :
    Text.byteLength (q :: body ++ [q]) = Text.byteLength body + 2 := by
  rw [List.cons_append, Text.byteLength_cons, Text.byteLength_append, Text.byteLength_cons,
    Text.byteLength_nil, utf8Size_of_isQuote hq]
  omega

theorem isBlank_of_isQuote {c : Char} (h : isQuote c = true) : Text.isBlank c = false := by
  rcases isQuote_iff.mp h with rfl | rfl <;> decide

theorem isSpecial_of_isQuote {c : Char} (h : isQuote c = true) : isSpecial c = false := by
  rcases isQuote_iff.mp h with rfl | rfl <;> decide

theorem isBlank_of_isSpecial {c : Char} (h : isSpecial c = true) : Text.isBlank c = false := by
  have hall : specialChars.all (fun c => !Text.isBlank c) = true := by decide
  have hc := List.all_eq_true.mp hall c (List.contains_iff_mem.mp h)
  rwa [Bool.not_eq_true'] at hc

namespace Scan

/-! ## Plain runs -/

/-- **`IsRun block plain rest`** — `plain` is a plain run in front of `rest`: nothing else begins
inside it, and it does not go on. -/
structure IsRun (block : Bool) (plain rest : List Char) : Prop where
  goesOn : ∀ front back, plain = front ++ back → back ≠ [] → stopsAt block (back ++ rest) = false
  stops : stopsAt block rest = true

theorem IsRun.tail {block : Bool} {c : Char} {plain rest : List Char}
    (h : IsRun block (c :: plain) rest) : IsRun block plain rest where
  goesOn front back heq hne := h.goesOn (c :: front) back (by rw [heq]; rfl) hne
  stops := h.stops

theorem plainRun_of_isRun {block : Bool} {plain rest : List Char} (h : IsRun block plain rest) :
    plainRun block (plain ++ rest) = (plain, rest) := by
  induction plain with
  | nil =>
      have hstops := h.stops
      cases rest with
      | nil => rfl
      | cons c rest =>
          show plainRun block (c :: rest) = _
          rw [plainRun, if_pos hstops]
  | cons c plain ih =>
      have hgo : stopsAt block (c :: (plain ++ rest)) = false := h.goesOn [] (c :: plain) rfl nofun
      rw [List.cons_append, plainRun, if_neg (by rw [hgo]; decide), ih h.tail]

theorem isRun_plainRun (block : Bool) (cs : List Char) :
    IsRun block (plainRun block cs).1 (plainRun block cs).2 := by
  induction cs with
  | nil =>
      refine ⟨?_, rfl⟩
      intro front back heq hne
      exact absurd (List.append_eq_nil_iff.mp heq.symm).2 hne
  | cons c cs ih =>
      unfold plainRun
      split
      · next hstops =>
          refine ⟨?_, hstops⟩
          intro front back heq hne
          exact absurd (List.append_eq_nil_iff.mp heq.symm).2 hne
      · next hgo =>
          refine ⟨?_, ih.stops⟩
          intro front back heq hne
          cases front with
          | nil =>
              rw [← List.nil_append back, ← heq, List.cons_append, plainRun_append]
              simpa using hgo
          | cons d front => exact ih.goesOn front back (List.cons_eq_cons.mp heq).2 hne

/-- No delimiter stands in a plain run: the run would have stopped in front of it. -/
theorem IsRun.not_infix {block : Bool} {plain rest : List Char} (h : IsRun block plain rest)
    (d : Delimiter) : ¬ d.text.toList <:+: plain := by
  rintro ⟨front, back, rfl⟩
  obtain ⟨c, tail, hd⟩ : ∃ c tail, d.text.toList = c :: tail := by
    rcases d with block | block <;> cases block <;> exact ⟨_, _, rfl⟩
  have hgo := h.goesOn front (d.text.toList ++ back) (by simp) (by simp [hd])
  have hstrip : Delimiter.strip? (d.text.toList ++ (back ++ rest)) = some (d, back ++ rest) :=
    Delimiter.strip?_eq_some_iff.mpr rfl
  rw [List.append_assoc, hd, List.cons_append] at hgo
  rw [hd, List.cons_append] at hstrip
  rw [stopsAt, hstrip] at hgo
  cases hgo

/-- Every character of a plain run goes on with it. -/
theorem IsRun.goesOn_mem {block : Bool} {plain rest : List Char} (h : IsRun block plain rest)
    {c : Char} (hc : c ∈ plain) :
    isQuote c = false ∧ (block && (Text.isBlank c || isSpecial c)) = false := by
  obtain ⟨front, back, rfl⟩ := List.append_of_mem hc
  have hgo := h.goesOn front (c :: back) rfl (List.cons_ne_nil c back)
  simp only [List.cons_append, stopsAt, Bool.or_eq_false_iff] at hgo
  exact ⟨hgo.1.2, hgo.2⟩

/-! ## The rules -/

/-- **`Runs mode offset cs s`** — by the rules, the text `cs` at `offset` scans to `s`. -/
inductive Runs : Mode → Nat → List Char → Scan → Prop
  | done (mode : Mode) (offset : Nat) : Runs mode offset [] ⟨[], mode.ending⟩
  | delimiter {mode : Mode} {offset : Nat} {rest : List Char} {s : Scan} (d : Delimiter) :
      Runs (.behind d offset) (offset + 2) rest s →
        Runs mode offset (d.text.toList ++ rest) (s.cons ⟨.delimiter, d.text, offset⟩)
  | blank {mode : Mode} {offset : Nat} {c : Char} {rest : List Char} {s : Scan}
      (hmode : mode.isBlock = true) (hc : Text.isBlank c = true) :
      Runs mode (offset + c.utf8Size) rest s → Runs mode offset (c :: rest) s
  | operator {mode : Mode} {offset : Nat} {special rest : List Char} {s : Scan}
      (hmode : mode.isBlock = true) (hne : special ≠ [])
      (hspecial : ∀ c ∈ special, isSpecial c = true)
      (hstart : Delimiter.strip? (special ++ rest) = none)
      (hend : ∀ c ∈ rest.head?, isSpecial c = false) :
      Runs mode (offset + Text.byteLength special) rest s →
        Runs mode offset (special ++ rest) (s.cons ⟨.operator, String.ofList special, offset⟩)
  | quoted {mode : Mode} {offset : Nat} {q : Char} {body rest : List Char} {s : Scan}
      (hq : isQuote q = true) (hbody : q ∉ body) :
      Runs mode (offset + (Text.byteLength body + 2)) rest s →
        Runs mode offset (q :: body ++ q :: rest) (s.cons ⟨.quoted, String.ofList body, offset⟩)
  | unclosed {mode : Mode} {offset : Nat} {q : Char} {body : List Char} (hq : isQuote q = true)
      (hbody : q ∉ body) : Runs mode offset (q :: body) ⟨[], .insideString q offset⟩
  | plain {mode : Mode} {offset : Nat} {plain rest : List Char} {s : Scan} (hne : plain ≠ [])
      (hplain : IsRun mode.isBlock plain rest) :
      Runs mode (offset + Text.byteLength plain) rest s →
        Runs mode offset (plain ++ rest) (s.cons ⟨mode.plainKind, String.ofList plain, offset⟩)

/-! ## The scan follows the rules -/

theorem upTo?_eq_none_iff {quote : Char} {cs : List Char} :
    upTo? quote cs = none ↔ quote ∉ cs := by
  induction cs with
  | nil => simp [upTo?]
  | cons c cs ih =>
      by_cases hc : c = quote
      · simp [upTo?, hc]
      · have hc' : ¬ quote = c := fun h => hc h.symm
        simp [upTo?, hc, hc', ih]

/-- **Every scan follows the rules.** -/
theorem runs_run (mode : Mode) (offset : Nat) (cs : List Char) :
    Runs mode offset cs (run mode offset cs) := by
  fun_induction run mode offset cs with
  | case1 mode offset => exact .done mode offset
  | case2 mode offset c tail d rest h ih =>
      rw [Delimiter.strip?_eq_some_iff.mp h]
      exact .delimiter d ih
  | case3 mode offset c tail hstart hblank ih =>
      rw [Bool.and_eq_true] at hblank
      exact .blank hblank.1 hblank.2 ih
  | case4 mode offset c tail hstart hblank hspecial special ih =>
      rw [Bool.and_eq_true] at hspecial
      have hsplit : c :: tail = special ++ tail.dropWhile isSpecial := by
        show c :: tail = c :: (tail.takeWhile isSpecial ++ tail.dropWhile isSpecial)
        rw [List.takeWhile_append_dropWhile]
      have hall : ∀ x ∈ special, isSpecial x = true := by
        intro x hx
        rcases List.mem_cons.mp hx with rfl | hx
        · exact hspecial.2
        · exact List.all_eq_true.mp List.all_takeWhile x hx
      have hend : ∀ x ∈ (tail.dropWhile isSpecial).head?, isSpecial x = false := by
        intro x hx
        have hnot := List.head?_dropWhile_not isSpecial tail
        rw [Option.mem_def.mp hx] at hnot
        exact hnot
      rw [hsplit] at hstart ⊢
      exact .operator hspecial.1 (List.cons_ne_nil c _) hall hstart hend ih
  | case5 mode offset c tail hstart hblank hspecial hquote body rest h ih =>
      obtain ⟨rfl, hbody⟩ := upTo?_eq_some_iff.mp h
      exact .quoted hquote hbody ih
  | case6 mode offset c tail hstart hblank hspecial hquote h =>
      exact .unclosed hquote (upTo?_eq_none_iff.mp h)
  | case7 mode offset c tail hstart hblank hspecial hquote found plain ih =>
      have hgo : stopsAt mode.isBlock (c :: tail) = false := by
        rw [Bool.not_eq_true] at hblank hspecial hquote
        simp only [stopsAt, hstart, hquote, Bool.and_or_distrib_left, hblank, hspecial]
        rfl
      have hrun : plainRun mode.isBlock (c :: tail) = (plain, found.2) := by
        rw [plainRun, if_neg (by rw [hgo]; decide)]
      have hplain := isRun_plainRun mode.isBlock (c :: tail)
      have hsplit := plainRun_append mode.isBlock (c :: tail)
      rw [hrun] at hplain hsplit
      rw [← hsplit]
      exact .plain (List.cons_ne_nil c _) hplain ih

theorem runs_ofText (text : String) : Runs .literal 0 text.toList (ofText text) :=
  runs_run .literal 0 text.toList

/-! ## What follows the rules is the scan -/

theorem run_delimiter (mode : Mode) (offset : Nat) (d : Delimiter) (rest : List Char) :
    run mode offset (d.text.toList ++ rest) =
      (run (.behind d offset) (offset + 2) rest).cons ⟨.delimiter, d.text, offset⟩ := by
  have hstrip : Delimiter.strip? (d.text.toList ++ rest) = some (d, rest) :=
    Delimiter.strip?_eq_some_iff.mpr rfl
  obtain ⟨c, tail, hcs⟩ : ∃ c tail, d.text.toList ++ rest = c :: tail := by
    rcases d with block | block <;> cases block <;> exact ⟨_, _, rfl⟩
  rw [hcs] at hstrip ⊢
  rw [run]
  split
  · next d' rest' h =>
      rw [hstrip] at h
      cases h
      rfl
  · next h =>
      rw [hstrip] at h
      cases h

/-- Where no delimiter stands, the first character decides. -/
theorem run_cons {c : Char} {tail : List Char} (hstart : Delimiter.strip? (c :: tail) = none)
    (mode : Mode) (offset : Nat) :
    run mode offset (c :: tail) =
      if mode.isBlock && Text.isBlank c then run mode (offset + c.utf8Size) tail
      else if mode.isBlock && isSpecial c then
        (run mode (offset + Text.byteLength (c :: tail.takeWhile isSpecial))
          (tail.dropWhile isSpecial)).cons
            ⟨.operator, String.ofList (c :: tail.takeWhile isSpecial), offset⟩
      else if isQuote c then
        match upTo? c tail with
        | some (body, rest) =>
            (run mode (offset + (Text.byteLength body + 2)) rest).cons
              ⟨.quoted, String.ofList body, offset⟩
        | none => ⟨[], .insideString c offset⟩
      else
        (run mode (offset + Text.byteLength (c :: (plainRun mode.isBlock tail).1))
          (plainRun mode.isBlock tail).2).cons
            ⟨mode.plainKind, String.ofList (c :: (plainRun mode.isBlock tail).1), offset⟩ := by
  rw [run]
  split
  · next h =>
      rw [hstart] at h
      cases h
  · split
    · rfl
    · split
      · rfl
      · split
        · split <;> simp_all
        · rfl

section Steps

variable {mode : Mode} {rest : List Char}

theorem run_blank (hmode : mode.isBlock = true) {c : Char} (hc : Text.isBlank c = true)
    (offset : Nat) : run mode offset (c :: rest) = run mode (offset + c.utf8Size) rest := by
  rw [run_cons (Delimiter.strip?_of_isBlank hc rest), hmode, hc]
  rfl

theorem run_operator (hmode : mode.isBlock = true) {special : List Char} (hne : special ≠ [])
    (hspecial : ∀ c ∈ special, isSpecial c = true)
    (hstart : Delimiter.strip? (special ++ rest) = none)
    (hend : ∀ c ∈ rest.head?, isSpecial c = false) (offset : Nat) :
    run mode offset (special ++ rest) =
      (run mode (offset + Text.byteLength special) rest).cons
        ⟨.operator, String.ofList special, offset⟩ := by
  cases special with
  | nil => exact absurd rfl hne
  | cons c tail =>
      have hc : isSpecial c = true := hspecial c List.mem_cons_self
      have htail : ∀ x ∈ tail, isSpecial x = true := by
        intro x hx
        exact hspecial x (List.mem_cons_of_mem c hx)
      have htake : (tail ++ rest).takeWhile isSpecial = tail := by
        rw [List.takeWhile_append_of_pos htail]
        cases rest with
        | nil => simp
        | cons d rest => simp [hend d rfl]
      have hdrop : (tail ++ rest).dropWhile isSpecial = rest := by
        rw [List.dropWhile_append_of_pos htail]
        cases rest with
        | nil => rfl
        | cons d rest => simp [hend d rfl]
      rw [List.cons_append] at hstart ⊢
      rw [run_cons hstart, hmode, hc, isBlank_of_isSpecial hc, htake, hdrop]
      rfl

theorem run_quoted {q : Char} (hq : isQuote q = true) {body : List Char} (hbody : q ∉ body)
    (mode : Mode) (offset : Nat) :
    run mode offset (q :: body ++ q :: rest) =
      (run mode (offset + (Text.byteLength body + 2)) rest).cons
        ⟨.quoted, String.ofList body, offset⟩ := by
  rw [List.cons_append, run_cons (Delimiter.strip?_of_isQuote hq _), isBlank_of_isQuote hq,
    isSpecial_of_isQuote hq, hq, upTo?_eq_some_iff.mpr ⟨rfl, hbody⟩]
  simp

theorem run_unclosed {q : Char} (hq : isQuote q = true) {body : List Char} (hbody : q ∉ body)
    (mode : Mode) (offset : Nat) :
    run mode offset (q :: body) = ⟨[], .insideString q offset⟩ := by
  rw [run_cons (Delimiter.strip?_of_isQuote hq _), isBlank_of_isQuote hq,
    isSpecial_of_isQuote hq, hq, upTo?_eq_none_iff.mpr hbody]
  simp

theorem run_plain {plain : List Char} (hne : plain ≠ []) (hplain : IsRun mode.isBlock plain rest)
    (offset : Nat) :
    run mode offset (plain ++ rest) =
      (run mode (offset + Text.byteLength plain) rest).cons
        ⟨mode.plainKind, String.ofList plain, offset⟩ := by
  cases plain with
  | nil => exact absurd rfl hne
  | cons c tail =>
      have hgo : stopsAt mode.isBlock (c :: (tail ++ rest)) = false :=
        hplain.goesOn [] (c :: tail) rfl (List.cons_ne_nil c tail)
      simp only [stopsAt, Bool.or_eq_false_iff, Bool.and_or_distrib_left] at hgo
      obtain ⟨⟨hstart, hquote⟩, hblank, hspecial⟩ := hgo
      have hnone : Delimiter.strip? (c :: (tail ++ rest)) = none :=
        Option.not_isSome_iff_eq_none.mp (by rw [hstart]; decide)
      rw [List.cons_append, run_cons hnone, hblank, hspecial, hquote,
        plainRun_of_isRun hplain.tail]
      rfl

end Steps

/-- **What follows the rules is the scan.** -/
theorem Runs.eq_run {mode : Mode} {offset : Nat} {cs : List Char} {s : Scan}
    (h : Runs mode offset cs s) : run mode offset cs = s := by
  induction h with
  | done mode offset => rw [run]
  | delimiter d _ ih => rw [run_delimiter, ih]
  | blank hmode hc _ ih => rw [run_blank hmode hc, ih]
  | operator hmode hne hspecial hstart hend _ ih =>
      rw [run_operator hmode hne hspecial hstart hend, ih]
  | quoted hq hbody _ ih => rw [run_quoted hq hbody, ih]
  | unclosed hq hbody => exact run_unclosed hq hbody _ _
  | plain hne hplain _ ih => rw [run_plain hne hplain, ih]

end Scan

end TemplateLang

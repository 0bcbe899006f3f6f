import TemplateLang.Proofs.Numerals.Blocks
import TemplateLang.Proofs.Numerals.Recognition

/-!
# TemplateLang.Proofs.Paths.Words — paths written in a block

A variable can be bound to any name, but a template reaches it only if the tokenizer leaves its path in
one piece and the evaluator takes that word for a path. Main statement (`compileExpr_path`): so it is
for every text that is spelled as a path, unless it is one of the three constants. In an output block
it is one word, and the value of the block is what the context has at the path.

Four classes of characters have to agree for this. A letter or a number of any script is neither blank
nor a mark that ends words (`isWordChar_of_isAlphanumeric`), so the tokenizer stops nowhere in a path;
and a path begins with a letter or an underscore, with which no numeral begins, though `e` is a letter
(`Path.numberOf?_of_isPath`).
-/

namespace TemplateLang

/-! ## Characters of paths -/

theorem not_isAlphanumeric_of_mark :
    ∀ c ∈ specialChars ++ ['\'', '"', '{', '}'], Text.isAlphanumeric c = false := by
  have hall : (specialChars ++ ['\'', '"', '{', '}']).all (fun c => !Text.isAlphanumeric c) =
      true := by
    decide +kernel
  exact fun c hc => (Bool.not_eq_true' _).mp (List.all_eq_true.mp hall c hc)

theorem Text.isBlank_of_isAlphanumeric {c : Char} (h : isAlphanumeric c = true) :
    isBlank c = false := by
  have hletters : letterTable.apart blankTable = true := by decide +kernel
  have hnumbers : numberTable.apart blankTable = true := by decide +kernel
  rcases (Bool.or_eq_true _ _).mp h with hletter | hnumber
  · exact CharTable.contains_eq_false_of_apart hletters hletter
  · exact CharTable.contains_eq_false_of_apart hnumbers hnumber

/-- **Letters and numbers belong to words**, whatever their script. -/
theorem isWordChar_of_isAlphanumeric {c : Char} (h : Text.isAlphanumeric c = true) :
    isWordChar c = true := by
  have hmark : c ∉ specialChars ++ ['\'', '"', '{', '}'] := by
    intro hc
    rw [not_isAlphanumeric_of_mark c hc] at h
    cases h
  simp only [List.mem_append, List.mem_cons, List.not_mem_nil, or_false, not_or] at hmark
  obtain ⟨hspecial, hsingle, hdouble, hopen, hclose⟩ := hmark
  have hspecial' : isSpecial c = false := by
    rw [isSpecial, List.contains_eq_mem]
    exact decide_eq_false hspecial
  simp [isWordChar, Text.isBlank_of_isAlphanumeric h, hspecial', isQuote, hsingle, hdouble, hopen,
    hclose]

namespace Path

/-- A text is made of its segments and of points. -/
theorem forall_mem_of_segments {P : Char → Prop} (hpoint : P '.') {cs : List Char}
    (hfirst : ∀ c ∈ (segments cs).1, P c)
    (hothers : ∀ segment ∈ (segments cs).2, ∀ c ∈ segment, P c) : ∀ c ∈ cs, P c := by
  induction cs with
  | nil => exact nofun
  | cons d cs ih =>
      rw [segments] at hfirst hothers
      split at hfirst
      · next hd =>
          rw [if_pos hd] at hothers
          obtain ⟨hsecond, hrest⟩ := List.forall_mem_cons.mp hothers
          exact List.forall_mem_cons.mpr ⟨hd ▸ hpoint, ih hsecond hrest⟩
      · next hd =>
          rw [if_neg hd] at hothers
          obtain ⟨hhead, htail⟩ := List.forall_mem_cons.mp hfirst
          exact List.forall_mem_cons.mpr ⟨hhead, ih htail hothers⟩

theorem isWordChar_of_isName {segment : List Char} (h : isName segment = true) :
    ∀ c ∈ segment, isWordChar c = true := by
  cases segment with
  | nil => exact nofun
  | cons c cs =>
      simp only [isName, Bool.and_eq_true, Bool.or_eq_true, beq_iff_eq, List.all_eq_true] at h
      refine List.forall_mem_cons.mpr ⟨?_, fun d hd => ?_⟩
      · rcases h.1 with hletter | rfl
        · exact isWordChar_of_isAlphanumeric ((Bool.or_eq_true _ _).mpr (.inl hletter))
        · decide
      · rcases h.2 d hd with halphanumeric | rfl
        · exact isWordChar_of_isAlphanumeric halphanumeric
        · decide

theorem isWordChar_of_isPosition {segment : List Char} (h : isPosition segment = true) :
    ∀ c ∈ segment, isWordChar c = true := by
  rw [isPosition, Bool.and_eq_true] at h
  exact fun c hc => isWordChar_of_isDigit (List.all_eq_true.mp h.2 c hc)

section Paths

variable {s : String} (h : isPath s = true)

include h

/-- A path begins with a letter or an underscore. -/
theorem head_of_isPath : ∃ c ∈ s.toList.head?, Text.isLetter c = true ∨ c = '_' := by
  rw [isPath, Bool.and_eq_true] at h
  obtain ⟨hname, -⟩ := h
  cases hs : s.toList with
  | nil =>
      rw [hs] at hname
      cases hname
  | cons c cs =>
      rw [hs, segments] at hname
      refine ⟨c, rfl, ?_⟩
      split at hname
      · cases hname
      · simp only [isName, Bool.and_eq_true, Bool.or_eq_true, beq_iff_eq] at hname
        exact hname.1

/-- **A path is one word wherever it stands in a block.** -/
theorem isPlainWord_of_isPath : IsPlainWord s := by
  obtain ⟨c, hc, -⟩ := head_of_isPath h
  refine ⟨?_, ?_⟩
  · intro hnil
    rw [hnil] at hc
    cases hc
  · rw [isPath, Bool.and_eq_true] at h
    obtain ⟨hname, hothers⟩ := h
    refine forall_mem_of_segments (by decide) (isWordChar_of_isName hname) fun segment hsegment => ?_
    rcases (Bool.or_eq_true _ _).mp (List.all_eq_true.mp hothers segment hsegment) with
      hname' | hposition
    · exact isWordChar_of_isName hname'
    · exact isWordChar_of_isPosition hposition

/-- **No path is read as a number.** -/
theorem numberOf?_of_isPath : Numeral.numberOf? s = none := by
  refine Numeral.numberOf?_eq_none_iff.mpr fun hnumeral => ?_
  obtain ⟨c, hc, hbegins⟩ := head_of_isPath h
  have hfirst : c.isDigit = true ∨ c ∈ ['.', '+', '-'] := hnumeral.head_cases c hc
  rcases hfirst with hdigit | hother
  · rcases hbegins with hletter | rfl
    · rw [isLetter_of_isDigit hdigit] at hletter
      cases hletter
    · exact absurd hdigit (by decide)
  · simp only [List.mem_cons, List.not_mem_nil, or_false] at hother
    rcases hother with rfl | rfl | rfl
    · exact absurd hbegins (by decide +kernel)
    · exact absurd hbegins (by decide +kernel)
    · exact absurd hbegins (by decide +kernel)

end Paths

end Path

/-! ## The block around a path -/

/-- The tokens of a block around a plain word. -/
def wordBlockTokens (s : String) : List Token :=
  [⟨.delimiter, (Delimiter.opening .output).text, 0⟩, ⟨.word, s, 3⟩,
    ⟨.delimiter, (Delimiter.closing .output).text, 4 + Text.byteLength s.toList⟩]

theorem Scan.ofText_word {s : String} (h : IsPlainWord s) :
    ofText (inBlock s) = ⟨wordBlockTokens s, .complete⟩ := by
  have hspace : Text.isBlank ' ' = true := by decide
  have htext : (inBlock s).toList = (Delimiter.opening .output).text.toList ++
      ' ' :: (s.toList ++ ' ' :: ((Delimiter.closing .output).text.toList ++ [])) := by
    simp [toList_inBlock]
  rw [ofText, htext, run_delimiter, run_blank rfl hspace,
    run_word_of_isRun rfl h.ne_nil (h.isRun rfl), run_blank rfl hspace, run_delimiter, run]
  have hplace : 0 + 2 + ' '.utf8Size + Text.byteLength s.toList + ' '.utf8Size =
      4 + Text.byteLength s.toList := by
    show 0 + 2 + 1 + Text.byteLength s.toList + 1 = 4 + Text.byteLength s.toList
    omega
  rw [hplace]
  rfl

/-- The block is read up to its closer as the word in it. -/
theorem Expr.read_wordBlock (s : String) {levels : Nat} (hlevels : 0 < levels) :
    read levels 0 (wordBlockTokens s) = .accepted (.leaf ⟨.word, s, 3⟩)
      [⟨.delimiter, (Delimiter.closing .output).text, 4 + Text.byteLength s.toList⟩] := by
  have hword : Derives .primary [⟨.delimiter, (Delimiter.opening .output).text, 0⟩, ⟨.word, s, 3⟩]
      (.leaf ⟨.word, s, 3⟩) := .opener ⟨rfl, rfl⟩ (.leaf (.inl rfl))
  have hcloser : Token.Is ⟨.delimiter, (Delimiter.closing .output).text,
      4 + Text.byteLength s.toList⟩ .delimiter (Delimiter.closing .output).text := ⟨rfl, rfl⟩
  exact read_of_derives (hword.of_primary 0) (stops_of_ne_symbol hcloser (.inl (by decide)))
    (Nat.succ_le_succ hlevels)

/-- **A path can be reached from a template**, if it is no constant: its text in an output block is
one word between the delimiters, the block compiles to that word, and in every context its value is
what looking up the path gives, a value or an error. A path is never read as a number. -/
theorem compileExpr_path {s : String} (h : Path.isPath s = true) (hconstant : isConstant s = false) :
    (∀ name, ∃ stream, TokenStream.ofSource ⟨name, inBlock s⟩ = .ok stream ∧
      stream.tokens = wordBlockTokens s) ∧
    compileExpr (inBlock s) {} = .ok (.leaf ⟨.word, s, 3⟩) ∧
    (∀ c, (Expr.leaf ⟨.word, s, 3⟩).eval c = c.lookup s) ∧
    Numeral.numberOf? s = none := by
  have hscan := Scan.ofText_word (Path.isPlainWord_of_isPath h)
  have hnumber := Path.numberOf?_of_isPath h
  refine ⟨fun name => TokenStream.exists_of_scan hscan (List.cons_ne_nil _ _) name, ?_,
    fun c => ?_, hnumber⟩
  · rw [compileExpr_eq_compileWith]
    exact compileWith_of_accepted hscan (List.cons_ne_nil _ _) (Expr.read_wordBlock s (by decide))
  · show (Meaning.ofWord s).eval c = _
    rw [Meaning.ofWord_of_not_constant hconstant, hnumber, h]
    rfl

/-- A path with the mark of an exponent in front, letters and digits of other scripts and a position
in it: its value is the one that is bound there. -/
theorem mixedPath_compiles :
    Path.isPath "e1.größe_٣.0" = true ∧ isConstant "e1.größe_٣.0" = false ∧
      compileExpr (inBlock "e1.größe_٣.0") {} = .ok (.leaf ⟨.word, "e1.größe_٣.0", 3⟩) ∧
      (Expr.leaf ⟨.word, "e1.größe_٣.0", 3⟩).eval
        (.ofPairs [("e1", .ofPairs [("größe_٣", .array [.string "here"])])]) =
          .ok (.string "here") := by
  have hpath : Path.isPath "e1.größe_٣.0" = true := by decide +kernel
  have hconstant : isConstant "e1.größe_٣.0" = false := by decide +kernel
  obtain ⟨-, hcompiles, hvalue, -⟩ := compileExpr_path hpath hconstant
  exact ⟨hpath, hconstant, hcompiles, (hvalue _).trans rfl⟩

end TemplateLang

import TemplateLang.Text.Blank
import TemplateLang.Token.Basic

/-!
# TemplateLang.Token.Scan — from characters to tokens

Scanning cuts a text into tokens from left to right. The only memory is the **mode**: literal
outside every block, and inside a block its kind and where it was opened. At every place the first
of these that applies decides what stands there:

* a delimiter, whatever the mode: an opening one begins a block, a closing one ends it, and
  neither has to match what came before;
* in a block, a blank, which is dropped;
* in a block, a special character: the longest run of special characters is one operator, even
  where its last character could begin a delimiter;
* a quote, whatever the mode: everything up to the next quote of the same kind is one string;
* anything else begins a plain run, a word in a block and text outside, which lasts until one of
  the above applies.

A scan always ends, and says how (`Ending`): with the text at its end outside every block, inside
a block, or inside a string. The tokens found up to that point are part of the answer.
-/

namespace TemplateLang

/-- What surrounds a place in a template. -/
inductive Mode where
  /-- Outside every block. -/
  | literal
  /-- Inside a block of the given kind, opened at the offset. -/
  | block (kind : BlockKind) (offset : Nat)
deriving DecidableEq

namespace Mode

/-- Whether the place is inside a block. -/
def isBlock : Mode → Bool
  | .literal => false
  | .block _ _ => true

/-- The mode behind a delimiter at the offset. -/
def behind (d : Delimiter) (offset : Nat) : Mode :=
  match d with
  | .opening kind => .block kind offset
  | .closing _ => .literal

/-- The kind of a plain run. -/
def plainKind : Mode → TokenKind
  | .literal => .text
  | .block _ _ => .word

end Mode

/-- How a scan came to its end. -/
inductive Ending where
  /-- Outside every block and string. -/
  | complete
  /-- Inside a block of the given kind, opened at the offset. -/
  | insideBlock (kind : BlockKind) (offset : Nat)
  /-- Inside the string that the quote at the given offset began. -/
  | insideString (quote : Char) (offset : Nat)
deriving DecidableEq

/-- The ending of a text that stops in the given mode. -/
def Mode.ending : Mode → Ending
  | .literal => .complete
  | .block kind offset => .insideBlock kind offset

/-- The tokens of a text and how it ended. -/
structure Scan where
  tokens : List Token
  ending : Ending
deriving DecidableEq

/-- The scan with one more token in front. -/
def Scan.cons (t : Token) (s : Scan) : Scan :=
  ⟨t :: s.tokens, s.ending⟩

@[simp] theorem Scan.tokens_cons (t : Token) (s : Scan) : (s.cons t).tokens = t :: s.tokens := rfl

@[simp] theorem Scan.ending_cons (t : Token) (s : Scan) : (s.cons t).ending = s.ending := rfl

namespace Scan

/-! ## Runs and strings -/

/-- What stands before the first `quote`, and what stands behind it. -/
def upTo? (quote : Char) : List Char → Option (List Char × List Char)
  | [] => none
  | c :: cs =>
      if c = quote then some ([], cs)
      else (upTo? quote cs).map fun found => (c :: found.1, found.2)

/-- Whether a plain run stops in front of `cs`. -/
def stopsAt (block : Bool) (cs : List Char) : Bool :=
  match cs with
  | [] => true
  | c :: _ =>
      (Delimiter.strip? cs).isSome || isQuote c || (block && (Text.isBlank c || isSpecial c))

/-- The longest plain run that a text begins with, and the rest of the text. -/
def plainRun (block : Bool) : List Char → List Char × List Char
  | [] => ([], [])
  | c :: cs =>
      if stopsAt block (c :: cs) then ([], c :: cs)
      else
        let found := plainRun block cs
        (c :: found.1, found.2)

theorem upTo?_eq_some_iff {quote : Char} {cs body rest : List Char} :
    upTo? quote cs = some (body, rest) ↔ cs = body ++ quote :: rest ∧ quote ∉ body := by
  induction cs generalizing body with
  | nil => simp [upTo?]
  | cons c cs ih =>
      by_cases hc : c = quote
      · subst hc
        cases body with
        | nil => simp [upTo?]
        | cons b body =>
            simp only [upTo?, if_true, Option.some.injEq, Prod.mk.injEq, List.cons_append,
              List.cons.injEq, List.mem_cons, not_or, reduceCtorEq, false_and, false_iff]
            rintro ⟨⟨rfl, _⟩, hb, _⟩
            exact hb rfl
      · cases body with
        | nil => simp [upTo?, hc]
        | cons b body =>
            have h := @ih body
            simp only [upTo?, hc, if_false, Option.map_eq_some_iff, Prod.mk.injEq,
              List.cons.injEq, List.cons_append, List.mem_cons, not_or]
            constructor
            · rintro ⟨⟨body', rest'⟩, hf, ⟨rfl, rfl⟩, rfl⟩
              obtain ⟨hcs, hq⟩ := h.mp hf
              exact ⟨⟨rfl, hcs⟩, fun hb => hc hb.symm, hq⟩
            · rintro ⟨⟨rfl, hcs⟩, _, hq⟩
              exact ⟨(body, rest), h.mpr ⟨hcs, hq⟩, ⟨rfl, rfl⟩, rfl⟩

theorem length_of_upTo? {quote : Char} {cs body rest : List Char}
    (h : upTo? quote cs = some (body, rest)) : rest.length < cs.length := by
  rw [(upTo?_eq_some_iff.mp h).1]
  simp only [List.length_append, List.length_cons]
  omega

theorem plainRun_append (block : Bool) (cs : List Char) :
    (plainRun block cs).1 ++ (plainRun block cs).2 = cs := by
  induction cs with
  | nil => rfl
  | cons c cs ih =>
      unfold plainRun
      split
      · rfl
      · simp [ih]

theorem length_plainRun_le (block : Bool) (cs : List Char) :
    (plainRun block cs).2.length ≤ cs.length := by
  have h := congrArg List.length (plainRun_append block cs)
  simp only [List.length_append] at h
  omega

/-! ## The scan -/

/-- The scan of `cs`, the text that stands at `offset` in the given mode. -/
def run (mode : Mode) (offset : Nat) (cs : List Char) : Scan :=
  match cs with
  | [] => ⟨[], mode.ending⟩
  | c :: tail =>
      match h : Delimiter.strip? (c :: tail) with
      | some (d, rest) =>
          (run (Mode.behind d offset) (offset + 2) rest).cons ⟨.delimiter, d.text, offset⟩
      | none =>
          if mode.isBlock && Text.isBlank c then run mode (offset + c.utf8Size) tail
          else if mode.isBlock && isSpecial c then
            let special := c :: tail.takeWhile isSpecial
            (run mode (offset + Text.byteLength special) (tail.dropWhile isSpecial)).cons
              ⟨.operator, String.ofList special, offset⟩
          else if isQuote c then
            match h : upTo? c tail with
            | some (body, rest) =>
                (run mode (offset + (Text.byteLength body + 2)) rest).cons
                  ⟨.quoted, String.ofList body, offset⟩
            | none => ⟨[], .insideString c offset⟩
          else
            let found := plainRun mode.isBlock tail
            let plain := c :: found.1
            (run mode (offset + Text.byteLength plain) found.2).cons
              ⟨mode.plainKind, String.ofList plain, offset⟩
termination_by cs.length
decreasing_by
  -- behind a delimiter
  · have := Delimiter.length_of_strip? h
    omega
  -- behind a blank
  · simp
  -- behind an operator
  · have := (List.dropWhile_sublist isSpecial (l := tail)).length_le
    simp only [List.length_cons]
    omega
  -- behind a string
  · have := length_of_upTo? h
    simp only [List.length_cons]
    omega
  -- behind a plain run
  · have := length_plainRun_le mode.isBlock tail
    simp only [List.length_cons]
    omega

/-- The scan of a whole text, which begins outside every block. -/
def ofText (s : String) : Scan :=
  run .literal 0 s.toList

end Scan

end TemplateLang

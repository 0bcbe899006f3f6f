import TemplateLang.Text.CharTable

/-!
# TemplateLang.Text.Blank — the characters that separate words inside a block

Inside a block a blank ends a word and is dropped; outside a block it is text like any other.
Blank means the Unicode property `White_Space`: the ASCII blanks with the vertical tab and the
form feed, the next-line control, the no-break spaces and the spaces of various widths. A
zero-width space (U+200B) is not blank.
-/

namespace TemplateLang.Text

/-- The code points with the property `White_Space`. -/
def blankTable : CharTable :=
  [⟨0x9, 0xD⟩, ⟨0x20, 0x20⟩, ⟨0x85, 0x85⟩, ⟨0xA0, 0xA0⟩, ⟨0x1680, 0x1680⟩,
   ⟨0x2000, 0x200A⟩, ⟨0x2028, 0x2029⟩, ⟨0x202F, 0x202F⟩, ⟨0x205F, 0x205F⟩, ⟨0x3000, 0x3000⟩]

/-- Whether `c` separates words inside a block. -/
def isBlank (c : Char) : Bool :=
  blankTable.contains c

/-- The blanks of ASCII are blank. -/
theorem isBlank_of_isWhitespace {c : Char} (h : c.isWhitespace = true) : isBlank c = true := by
  simp only [Char.isWhitespace, Bool.or_eq_true, decide_eq_true_eq] at h
  rcases h with ((rfl | rfl) | rfl) | rfl <;> decide

end TemplateLang.Text

/-!
# TemplateLang.Text.Bytes — positions in a text, counted in UTF-8 bytes

Every offset and length that this library reports counts UTF-8 bytes, while the text itself is
read character by character. `byteLength` is the measure that joins the two: it adds along
concatenation, so the offset of a character is the byte length of what stands before it.
-/

namespace TemplateLang.Text

/-- The number of UTF-8 bytes that the characters take. -/
def byteLength : List Char → Nat
  | [] => 0
  | c :: cs => c.utf8Size + byteLength cs

@[simp] theorem byteLength_nil : byteLength [] = 0 := rfl

@[simp] theorem byteLength_cons (c : Char) (cs : List Char) :
    byteLength (c :: cs) = c.utf8Size + byteLength cs := rfl

@[simp] theorem byteLength_append (cs ds : List Char) :
    byteLength (cs ++ ds) = byteLength cs + byteLength ds := by
  induction cs with
  | nil => simp
  | cons c cs ih => simp [ih, Nat.add_assoc]

/-- A character takes at least one byte, so a text is never longer than its bytes. -/
theorem length_le_byteLength (cs : List Char) : cs.length ≤ byteLength cs := by
  induction cs with
  | nil => simp
  | cons c cs ih =>
      have hc := c.utf8Size_pos
      simp only [List.length_cons, byteLength_cons]
      omega

/-- The byte length is the size of the string that the characters spell. -/
theorem utf8ByteSize_ofList (cs : List Char) :
    (String.ofList cs).utf8ByteSize = byteLength cs := by
  induction cs with
  | nil => rfl
  | cons c cs ih =>
      have h : String.ofList (c :: cs) = String.singleton c ++ String.ofList cs := by
        apply String.toList_injective
        simp
      rw [h, String.utf8ByteSize_append, String.utf8ByteSize_singleton, ih, byteLength_cons]

end TemplateLang.Text

/-!
# TemplateLang.Text.Order — texts in code point order

Texts are ordered by their first differing character, a character by its code point, and a text
comes before every longer text that continues it. On UTF-8 this is the order of the bytes too.
Maps list their names in this order, and the comparison operator uses it between words.
-/

namespace TemplateLang.Text

/-- Whether the first character list comes strictly before the second in code point order. -/
def precedes : List Char → List Char → Bool
  | _, [] => false
  | [], _ :: _ => true
  | c :: cs, d :: ds => if c = d then precedes cs ds else Nat.blt c.toNat d.toNat

/-- Whether `s` comes strictly before `t` in code point order. -/
def before (s t : String) : Bool :=
  precedes s.toList t.toList

theorem precedes_irrefl (cs : List Char) : precedes cs cs = false := by
  induction cs with
  | nil => rfl
  | cons c cs ih => simp [precedes, ih]

end TemplateLang.Text

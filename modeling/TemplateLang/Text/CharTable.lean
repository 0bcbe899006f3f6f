/-!
# TemplateLang.Text.CharTable — character classes as tables of code point ranges

A character class of the Unicode standard is data: a list of closed ranges of code points.
Membership scans the list, so a table needs no order to be right, and two classes are told
apart by comparing their ranges: `CharTable.apart` compares every range of one table with every
range of the other, and `contains_eq_false_of_apart` says what that buys for single characters.
-/

namespace TemplateLang.Text

/-- A closed range of code points; both ends belong to it. -/
structure CharRange where
  first : Nat
  last : Nat

/-- A character class, written as the ranges of its code points. -/
abbrev CharTable := List CharRange

namespace CharRange

/-- Whether the code point of `c` lies between the ends of the range. -/
def contains (r : CharRange) (c : Char) : Bool :=
  Nat.ble r.first c.toNat && Nat.ble c.toNat r.last

theorem contains_iff (r : CharRange) (c : Char) :
    r.contains c = true ↔ r.first ≤ c.toNat ∧ c.toNat ≤ r.last := by
  simp [contains]

/-- Whether one range ends before the other begins. -/
def apart (r s : CharRange) : Bool :=
  Nat.blt r.last s.first || Nat.blt s.last r.first

end CharRange

namespace CharTable

/-- Whether some range of the table holds `c`. -/
def contains (t : CharTable) (c : Char) : Bool :=
  t.any fun r => r.contains c

/-- Whether no range of one table meets a range of the other. -/
def apart (t u : CharTable) : Bool :=
  t.all fun r => u.all fun s => r.apart s

theorem contains_iff (t : CharTable) (c : Char) :
    t.contains c = true ↔ ∃ r ∈ t, r.first ≤ c.toNat ∧ c.toNat ≤ r.last := by
  simp [contains, CharRange.contains_iff]

/-- A character of one class is in no class that lies apart from it. -/
theorem contains_eq_false_of_apart {t u : CharTable} {c : Char} (h : t.apart u = true)
    (hc : t.contains c = true) : u.contains c = false := by
  obtain ⟨r, hr, hrc⟩ := (contains_iff t c).mp hc
  cases hu : u.contains c with
  | false => rfl
  | true =>
      obtain ⟨s, hs, hsc⟩ := (contains_iff u c).mp hu
      have hrs := List.all_eq_true.mp (List.all_eq_true.mp h r hr) s hs
      simp only [CharRange.apart, Bool.or_eq_true, Nat.blt_eq] at hrs
      omega

end CharTable

end TemplateLang.Text

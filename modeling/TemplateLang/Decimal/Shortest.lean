import TemplateLang.Decimal.Basic

/-!
# TemplateLang.Decimal.Shortest — the shortest decimal that reads back as a number

Every finite magnitude is a decimal exactly (`Decimal.exact`), though often one of hundreds of
digits. The decimals worth writing are coarser: on the grid of all multiples of `10 ^ p` a value
has two neighbours, and either may be the decimal that stands for it, provided that it **reads
back**, that is, the magnitude nearest to it is the one we started from. `Decimal.shortest` takes
the coarsest grid that has such a neighbour. A coarser grid means fewer digits, so nothing shorter
reads back; of two neighbours that both read back the nearer is taken, and of two equally near
the larger. The finest grid tried is that of the exact decimal, so the search always ends there
at the latest.
-/

namespace TemplateLang.Decimal

/-- The finite magnitude `bits`, written out exactly. -/
def exact (bits : Nat) : Decimal :=
  let m := Binary64.significand bits
  let s := Binary64.scale bits
  if 1074 ≤ s then ⟨m <<< (s - 1074), 0⟩
  else ⟨m * Nat.pow 5 (1074 - s), -((1074 - s : Nat) : Int)⟩

/-- Whether the magnitude nearest to `d` is `bits`. -/
def readsBack (bits : Nat) (d : Decimal) : Bool :=
  d.nearest == bits

/-- The largest decimal not above `d` whose last `j` digits are left off. -/
def below (d : Decimal) (j : Nat) : Decimal :=
  ⟨d.digits / Nat.pow 10 j, d.exponent + j⟩

/-- The smallest decimal above `d` whose last `j` digits are left off. -/
def above (d : Decimal) (j : Nat) : Decimal :=
  ⟨d.digits / Nat.pow 10 j + 1, d.exponent + j⟩

/-- The neighbour of `d` on the grid that leaves off `j` digits which reads back as `bits`: the
nearer one if both do, and the larger one if they are equally near. -/
def neighbour? (bits : Nat) (d : Decimal) (j : Nat) : Option Decimal :=
  match readsBack bits (d.below j), readsBack bits (d.above j) with
  | true, false => some (d.below j)
  | false, true => some (d.above j)
  | true, true =>
      if 2 * (d.digits % Nat.pow 10 j) < Nat.pow 10 j then some (d.below j) else some (d.above j)
  | false, false => none

/-- The neighbour of `d` on the coarsest grid that has one, among the grids that leave off at most
`j` digits. -/
def coarsest (bits : Nat) (d : Decimal) : Nat → Decimal
  | 0 => d
  | j + 1 =>
      match neighbour? bits d (j + 1) with
      | some found => found
      | none => coarsest bits d j

/-- The shortest decimal that reads back as the finite magnitude `bits`. -/
def shortest (bits : Nat) : Decimal :=
  let d := exact bits
  coarsest bits d (Nat.toDigits 10 d.digits).length

/-- What a grid offers reads back. -/
theorem readsBack_of_neighbour? {bits : Nat} {d e : Decimal} {j : Nat}
    (h : neighbour? bits d j = some e) : readsBack bits e = true := by
  unfold neighbour? at h
  split at h
  · rename_i hb _; cases h; exact hb
  · rename_i _ ha; cases h; exact ha
  · rename_i hb ha
    split at h <;> cases h
    · exact hb
    · exact ha
  · cases h

/-- The search finds a decimal that reads back, if the exact one does. -/
theorem readsBack_coarsest {bits : Nat} {d : Decimal} (h : readsBack bits d = true) (j : Nat) :
    readsBack bits (coarsest bits d j) = true := by
  induction j with
  | zero => exact h
  | succ j ih =>
      unfold coarsest
      split
      · rename_i found hf; exact readsBack_of_neighbour? hf
      · exact ih

end TemplateLang.Decimal

namespace Templating.Text

/-- A set of code points, as the first and last of each run. -/
abbrev Ranges := List (Nat × Nat)

def Ranges.has (ranges : Ranges) (c : Char) : Bool :=
  ranges.any fun (first, last) => first ≤ c.toNat && c.toNat ≤ last

/-- The code points `first`, `first + stride`, … up to `last`, each moved by `offset`. -/
structure Shift where
  first : Nat
  last : Nat
  stride : Nat
  offset : Int

def Shift.target? (shift : Shift) (n : Nat) : Option Nat :=
  if shift.first ≤ n ∧ n ≤ shift.last ∧ (n - shift.first) % shift.stride = 0 then
    some (n + shift.offset).toNat
  else none

/-- Moves a character by the first shift that holds it; every other character stays. -/
def shiftBy (shifts : List Shift) (c : Char) : Char :=
  match shifts.findSome? (·.target? c.toNat) with
  | some n => Char.ofNat n
  | none => c

end Templating.Text

import Templating.Decimal.Binary64

namespace Templating.Decimal

/-- The exponent of ten of the leading digit of `num / den`. -/
def leadingExponent (num den : Nat) : Int :=
  if den ≤ num then (Nat.toDigits 10 (num / den)).length - 1
  else -((Nat.toDigits 10 ((den - 1) / num)).length : Int)

/-- The decimals that read back as `m * 2 ^ e` lie between two bounds, which count if `m` is even. All
numbers are in units of `2 ^ (e - 2)`. -/
structure Interval where
  lower : Nat
  upper : Nat
  closed : Bool

def interval (m : Nat) (e : Int) : Interval :=
  let nearBelow := m = Binary64.leastFull ∧ Binary64.leastExponent < e
  ⟨if nearBelow then 4 * m - 1 else 4 * m - 2, 4 * m + 2, m % 2 = 0⟩

def Interval.has (i : Interval) (num den : Nat) : Bool :=
  if i.closed then i.lower * den ≤ num && num ≤ i.upper * den
  else i.lower * den < num && num < i.upper * den

/-- The better of the two neighbours of the fraction `n / d` among the whole numbers, of those that
read back. -/
def neighbour? (readsBack : Nat → Bool) (n d : Nat) : Option Nat :=
  let below := n / d
  match readsBack below, readsBack (below + 1) with
  | false, false => none
  | true, false => some below
  | false, true => some (below + 1)
  | true, true =>
    let r := n % d
    if 2 * r < d ∨ (2 * r = d ∧ below % 2 = 0) then some below else some (below + 1)

/-- The fraction `num / den` in units of `10 ^ g`. -/
def inTens (num den : Nat) (g : Int) : Nat × Nat :=
  if 0 ≤ g then (num, den * Nat.pow 10 g.toNat) else (num * Nat.pow 10 (-g).toNat, den)

/-- The first decimal found among those of `18 - left` digits, then among those of one digit more, and
so on up to seventeen digits, which are always enough. -/
def search (m : Nat) (e : Int) (leading : Int) : (left : Nat) → Nat × Int
  | 0 => (m, 0)
  | left + 1 =>
    let g := leading - (16 - left : Nat)
    let (num, den) := Binary64.scale (4 * m) 1 (2 - e)
    let (n, d) := inTens num den g
    let readsBack (c : Nat) : Bool :=
      let (up, down) := if 0 ≤ g then (c * Nat.pow 10 g.toNat, 1) else (c, Nat.pow 10 (-g).toNat)
      let (up, down) := Binary64.scale up down (e - 2)
      (interval m e).has up down
    match neighbour? readsBack n d with
    | some c => if c % 10 = 0 then (c / 10, g + 1) else (c, g)
    | none => search m e leading left

/-- The digits and the exponent of ten of the shortest decimal of `m * 2 ^ e`: the fewest digits that read back as the
number, and of several such decimals the nearest one. -/
def shortest (m : Nat) (e : Int) : Nat × Int :=
  let (num, den) := Binary64.scale m 1 (-e)
  search m e (leadingExponent num den) 17

end Templating.Decimal

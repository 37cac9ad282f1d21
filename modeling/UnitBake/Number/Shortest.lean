/-
# Shortest decimal digits

The digits of the floating-point numbers that a document tree (specification, section 1) is written
with.

The decimal written for a binary number is the shortest that reads back: of the decimal numbers
which round to it, those with the fewest digits, and of these the nearest to it (a tie goes to the
even digit).  All comparisons are exact, between natural numbers.

If some point of a decimal grid rounds to the number, one of the two grid points next to the number
does, so for each digit count only these two are tried.
-/
import UnitBake.Number.Binary

namespace UnitBake

/-- The decimal number `digits * 10 ^ exponent`. -/
structure Decimal where
  digits : Nat
  exponent : Int
deriving DecidableEq, Repr

namespace Decimal

/-- The numbers that round to one binary number, between `low` and `high` in units of
`1 / denominator`; the two ends belong to them if `closed`. -/
structure Interval where
  low : Nat
  value : Nat
  high : Nat
  closed : Bool
  denominator : Nat

/-- The interval of the finite magnitude with pattern `m`. -/
def Interval.of (f : Format) (m : Nat) : Interval :=
  let u := f.units m
  { low := u + f.units (m - 1)
    value := 2 * u
    high := u + f.units (m + 1)
    closed := m % 2 == 0
    denominator := 2 * Nat.pow 2 f.scale }

/-- Whether `c * 10 ^ e` lies in the interval, after scaling by `up` and `down` so that
`10 ^ e = down / up`. -/
def Interval.holds (i : Interval) (up down c : Nat) : Bool :=
  let x := c * (i.denominator * down)
  if i.closed then decide (i.low * up ≤ x) && decide (x ≤ i.high * up)
  else decide (i.low * up < x) && decide (x < i.high * up)

/-- The better of the two points of the grid `10 ^ e` next to the value, if one of them lies in the
interval. -/
def Interval.onGrid? (i : Interval) (e : Int) : Option Decimal :=
  let up := Nat.pow 10 (-e).toNat
  let down := Nat.pow 10 e.toNat
  let unit := i.denominator * down
  let below := i.value * up / unit
  let rest := i.value * up % unit
  let above := below + 1
  match i.holds up down below, i.holds up down above with
  | true, true =>
    let upward := decide (unit < 2 * rest) || (decide (unit = 2 * rest) && below % 2 == 1)
    some ⟨if upward then above else below, e⟩
  | true, false => some ⟨below, e⟩
  | false, true => some ⟨above, e⟩
  | false, false => none

/-- The number of digits before the decimal point of `num / den`, counted negatively for the zeros
after the point. -/
def pointOf (num den : Nat) : Int :=
  ((Nat.toDigits 10 (num * Nat.pow 10 400 / den)).length : Int) - 400

/-- Moves trailing zeros of the digits into the exponent. -/
def stripZeros : Nat → Decimal → Decimal
  | 0, d => d
  | fuel + 1, d =>
    if d.digits ≠ 0 ∧ d.digits % 10 = 0 then stripZeros fuel ⟨d.digits / 10, d.exponent + 1⟩ else d

/-- The shortest decimal that reads back as the finite nonzero magnitude with pattern `m`.
Seventeen digits always suffice for the formats here; without a hit the answer would be zero. -/
def shortest (f : Format) (m : Nat) : Decimal :=
  let i := Interval.of f m
  let point := pointOf i.value i.denominator
  let grids := (List.range 17).map fun (n : Nat) => point - 1 - (n : Int)
  match grids.findSome? i.onGrid? with
  | some d => stripZeros 20 d
  | none => ⟨0, 0⟩

end Decimal

end UnitBake

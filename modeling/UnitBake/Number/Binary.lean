/-
# Binary floating-point numbers as bit patterns

The floating-point numbers of documents (64 bits) and of the records of the specification (section
4.5, 32 bits).

A finite magnitude of a binary format is a whole number of *least units* (the smallest positive
number of the format), so values and operations are exact arithmetic on natural numbers followed by
one rounding.  `Format.round num den` is the pattern of the number nearest to `num / den`, a tie
going to the even pattern; past the largest finite number it is the pattern of infinity.

With `s` the number of doublings of the unit and `q` the significand, the pattern of a magnitude is
`s * 2 ^ (precision - 1) + q`, for small numbers (`s = 0`) and for those whose rounding carries into
the next power of two alike.  No case is treated apart.
-/
namespace UnitBake

/-! ## 1. Rounding a quotient -/

/-- The natural number nearest to `num / den`; halfway, the even one. -/
def roundHalfEven (num den : Nat) : Nat :=
  let q := num / den
  let r := num % den
  if 2 * r < den then q
  else if den < 2 * r then q + 1
  else q + q % 2

/-! ## 2. Formats -/

/-- A binary format: the number of significant bits, the exponent of the least unit
`2 ^ (-scale)`, and the pattern of infinity. -/
structure Format where
  precision : Nat
  scale : Nat
  infinity : Nat
deriving DecidableEq, Repr

namespace Format

/-- The 32-bit format. -/
def single : Format := ⟨24, 149, 0x7f800000⟩

/-- The 64-bit format. -/
def double : Format := ⟨53, 1074, 0x7ff0000000000000⟩

/-- How many least units the magnitude with pattern `m` holds. -/
def units (f : Format) (m : Nat) : Nat :=
  let top := Nat.pow 2 (f.precision - 1)
  if m / top = 0 then m else (top + m % top) * Nat.pow 2 (m / top - 1)

/-- The pattern nearest to `num / den`. -/
def round (f : Format) (num den : Nat) : Nat :=
  let n := num * Nat.pow 2 f.scale
  let s := (n / den).log2 + 1 - f.precision
  min f.infinity (s * Nat.pow 2 (f.precision - 1) + roundHalfEven n (den * Nat.pow 2 s))

end Format

/-! ## 3. Signed numbers -/

/-- A 32-bit floating-point number by its bits. -/
structure Binary32 where
  bits : UInt32
deriving DecidableEq, Repr, Inhabited

/-- A 64-bit floating-point number by its bits. -/
structure Binary64 where
  bits : UInt64
deriving DecidableEq, Repr, Inhabited

namespace Binary32

/-- The number with the given sign and magnitude pattern. -/
def ofMagnitude (negative : Bool) (m : Nat) : Binary32 :=
  ⟨UInt32.ofNat (m + if negative then 0x80000000 else 0)⟩

/-- The number nearest to an integer. -/
def ofInt (n : Int) : Binary32 := ofMagnitude (n < 0) (Format.single.round n.natAbs 1)

end Binary32

namespace Binary64

/-- Whether the sign bit is set. -/
def negative (x : Binary64) : Bool := decide (0x8000000000000000 ≤ x.bits.toNat)

/-- The pattern without its sign bit. -/
def magnitude (x : Binary64) : Nat := x.bits.toNat % 0x8000000000000000

/-- The number with the given sign and magnitude pattern. -/
def ofMagnitude (negative : Bool) (m : Nat) : Binary64 :=
  ⟨UInt64.ofNat (m + if negative then 0x8000000000000000 else 0)⟩

/-- How many least units the magnitude holds. -/
def units (x : Binary64) : Nat := Format.double.units x.magnitude

/-- Whether the number is an infinity. -/
def isInfinite (x : Binary64) : Bool := x.magnitude == Format.double.infinity

/-- The positive number nearest to `num / den`. -/
def ofRatio (num den : Nat) : Binary64 := ofMagnitude false (Format.double.round num den)

/-- The number nearest to a natural number. -/
def ofNat (n : Nat) : Binary64 := ofRatio n 1

/-- The same magnitude with the opposite sign. -/
def neg (x : Binary64) : Binary64 := ofMagnitude (!x.negative) x.magnitude

/-- The product of two positive finite numbers, rounded once. -/
def mul (x y : Binary64) : Binary64 :=
  ofRatio (x.units * y.units) (Nat.pow 2 (2 * Format.double.scale))

/-- The quotient of two positive finite numbers, rounded once. -/
def div (x y : Binary64) : Binary64 := ofRatio x.units y.units

/-- The 32-bit number nearest to a finite number. -/
def toBinary32 (x : Binary64) : Binary32 :=
  .ofMagnitude x.negative (Format.single.round x.units (Nat.pow 2 Format.double.scale))

end Binary64

end UnitBake

/-
# Numerals

The numbers in the unit files of the specification (section 6).

The grammar of a JSON number, one character at a time, and the number a numeral stands for.

A numeral without point and exponent is an integer if it fits 64 bits: unsigned, or negative down to
`-2 ^ 63`.  All others, and `-0`, are floating-point numbers.  Their value is taken from a 64-bit
significand: an integer digit that no longer fits raises the power of ten instead, a fraction digit
that no longer fits is dropped.  The significand and the power of ten are each rounded to a
floating-point number and joined by one multiplication or division, which rounds again.
-/
import UnitBake.Json.Basic

namespace UnitBake

/-! ## 1. Scanning -/

/-- Where the scanning of a numeral stands: what was read last. -/
inductive NumeralPart where
  | sign | zero | whole | point | fraction | mark | markSign | exponent
deriving DecidableEq, Repr

/-- The digits of a numeral, each list with the last digit first. -/
structure Numeral where
  part : NumeralPart
  negative : Bool := false
  whole : List Nat := []
  fraction : List Nat := []
  exponentNegative : Bool := false
  exponent : List Nat := []
deriving DecidableEq, Repr

namespace Numeral

/-- What a further character does to a numeral. -/
inductive Step where
  | more (numeral : Numeral)
  | ended
  | malformed

/-- The value of a decimal digit. -/
def digit? (c : Char) : Option Nat :=
  if 48 ≤ c.toNat ∧ c.toNat ≤ 57 then some (c.toNat - 48) else none

/-- The numeral that one character begins. -/
def start? (c : Char) : Option Numeral :=
  if c = '-' then some { part := .sign, negative := true }
  else (digit? c).map fun d => { part := if d = 0 then .zero else .whole, whole := [d] }

/-- Whether the numeral may end here. -/
def complete (n : Numeral) : Bool :=
  match n.part with
  | .zero | .whole | .fraction | .exponent => true
  | .sign | .point | .mark | .markSign => false

/-- Goes on behind the integer digits or the fraction. -/
def afterDigits (n : Numeral) (c : Char) (pointAllowed : Bool) : Step :=
  if c = '.' ∧ pointAllowed then .more { n with part := .point }
  else if c = 'e' ∨ c = 'E' then .more { n with part := .mark }
  else .ended

/-- Reads one more character.  A zero may not be followed by a digit. -/
def step (n : Numeral) (c : Char) : Step :=
  match n.part, digit? c with
  | .sign, some d => .more { n with part := if d = 0 then .zero else .whole, whole := [d] }
  | .sign, none => .malformed
  | .zero, some _ => .malformed
  | .zero, none => n.afterDigits c true
  | .whole, some d => .more { n with whole := d :: n.whole }
  | .whole, none => n.afterDigits c true
  | .point, some d => .more { n with part := .fraction, fraction := [d] }
  | .point, none => .malformed
  | .fraction, some d => .more { n with fraction := d :: n.fraction }
  | .fraction, none => n.afterDigits c false
  | .mark, some d => .more { n with part := .exponent, exponent := [d] }
  | .mark, none =>
    if c = '+' then .more { n with part := .markSign }
    else if c = '-' then .more { n with part := .markSign, exponentNegative := true }
    else .malformed
  | .markSign, some d => .more { n with part := .exponent, exponent := [d] }
  | .markSign, none => .malformed
  | .exponent, some d => .more { n with exponent := d :: n.exponent }
  | .exponent, none => .ended

/-! ## 2. The significand -/

/-- A significand of at most 64 bits and the power of ten it is to be multiplied by. -/
structure Scaled where
  significand : Nat
  power : Int
deriving DecidableEq, Repr

/-- Takes up integer digits.  From the first one that does not fit on, each raises the power. -/
def Scaled.addWhole (s : Scaled) : List Nat → Scaled
  | [] => s
  | d :: ds =>
    if s.significand * 10 + d < 0x10000000000000000 then
      addWhole { s with significand := s.significand * 10 + d } ds
    else { s with power := s.power + (ds.length + 1) }

/-- Takes up fraction digits.  From the first one that does not fit on, all are dropped. -/
def Scaled.addFraction (s : Scaled) : List Nat → Scaled
  | [] => s
  | d :: ds =>
    if s.significand * 10 + d < 0x10000000000000000 then
      addFraction ⟨s.significand * 10 + d, s.power - 1⟩ ds
    else s

/-- The number that the digits of an exponent stand for, unless it exceeds 31 bits. -/
def exponentValue? (digits : List Nat) : Option Nat :=
  digits.foldl (fun acc d => acc.bind fun e =>
    if e * 10 + d < 0x80000000 then some (e * 10 + d) else none) (some 0)

/-! ## 3. The value -/

/-- Multiplies by a power of ten.  Powers up to `10 ^ 308` take one step; a smaller one first divides
by `10 ^ 308`, and after the third such division nothing is left of any significand.  A product
beyond the largest finite number is refused. -/
def scale : Nat → Binary64 → Int → Option Binary64
  | 0, x, _ => some x
  | fuel + 1, x, power =>
    if power.natAbs ≤ 308 then
      let tens := Binary64.ofNat (Nat.pow 10 power.natAbs)
      if 0 ≤ power then
        let y := x.mul tens
        if y.isInfinite then none else some y
      else some (x.div tens)
    else if x.magnitude = 0 then some x
    else if 0 ≤ power then none
    else scale fuel (x.div (Binary64.ofNat (Nat.pow 10 308))) (power + 308)

/-- A floating-point number with the sign of the numeral. -/
def signed (n : Numeral) (x : Binary64) : Number := .float (if n.negative then x.neg else x)

/-- A sum kept within 32 bits with a sign. -/
def saturate (e : Int) : Int := max (-0x80000000) (min 0x7fffffff e)

/-- The number a numeral with point or exponent stands for. -/
def floatValue? (n : Numeral) : Option Number :=
  let s := (Scaled.addWhole ⟨0, 0⟩ n.whole.reverse).addFraction n.fraction.reverse
  match exponentValue? n.exponent.reverse with
  | some e =>
    let power := saturate (if n.exponentNegative then s.power - e else s.power + e)
    (scale 4 (Binary64.ofNat s.significand) power).map n.signed
  | none =>
    if s.significand ≠ 0 ∧ ¬ n.exponentNegative then none
    else some (n.signed ⟨0⟩)

/-- The number a numeral of integer digits stands for. -/
def integerValue? (n : Numeral) : Option Number :=
  let s := Scaled.addWhole ⟨0, 0⟩ n.whole.reverse
  if s.power ≠ 0 then (scale 4 (Binary64.ofNat s.significand) s.power).map n.signed
  else if ¬ n.negative then some (.integer s.significand)
  else if s.significand = 0 ∨ 0x8000000000000000 < s.significand then
    some (n.signed (Binary64.ofNat s.significand))
  else some (.integer (-(s.significand : Int)))

/-- The number a complete numeral stands for; nothing if it is too large. -/
def value? (n : Numeral) : Option Number :=
  match n.part with
  | .fraction | .exponent => n.floatValue?
  | _ => n.integerValue?

end Numeral

end UnitBake

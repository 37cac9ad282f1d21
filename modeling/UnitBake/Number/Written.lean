/-
# Written form of floating-point numbers

The floating-point numbers in the text of a document tree (specification, section 1).

A number is written with its shortest digits.  Between `1e-5` and `1e16` the decimal point stands in
its place and at least one digit follows it; other numbers are written with one digit before the
point and an exponent whose sign is always shown.
-/
import UnitBake.Number.Shortest

namespace UnitBake

/-- `n` zeros. -/
def zeros (n : Nat) : String := String.ofList (List.replicate n '0')

/-- The written form of a positive decimal. -/
def Decimal.text (d : Decimal) : String :=
  let digits := (Nat.toDigits 10 d.digits)
  let count : Int := digits.length
  let point := count + d.exponent
  if 0 ≤ d.exponent ∧ point ≤ 16 then
    String.ofList digits ++ zeros d.exponent.toNat ++ ".0"
  else if 0 < point ∧ point ≤ 16 then
    String.ofList (digits.take point.toNat) ++ "." ++ String.ofList (digits.drop point.toNat)
  else if -5 < point ∧ point ≤ 0 then
    "0." ++ zeros (-point).toNat ++ String.ofList digits
  else
    let mantissa :=
      String.ofList (digits.take 1) ++
        if digits.length = 1 then "" else "." ++ String.ofList (digits.drop 1)
    let power := point - 1
    mantissa ++ "e" ++ (if power < 0 then "-" else "+") ++ toString power.natAbs

/-- The written form of a finite number. -/
def Binary64.text (x : Binary64) : String :=
  (if x.negative then "-" else "") ++
    if x.magnitude = 0 then "0.0" else (Decimal.shortest .double x.magnitude).text

end UnitBake

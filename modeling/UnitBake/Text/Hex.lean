/-
# Hexadecimal text

How the texts of component ids and type ids (specification, sections 3 and 4.1) write numbers.

Numbers as lower-case hexadecimal digits, and digits read back in either case.
-/
namespace UnitBake.Hex

/-- The value of a hexadecimal digit, upper or lower case. -/
def digit? (c : Char) : Option (Fin 16) :=
  if h : 48 ≤ c.toNat ∧ c.toNat ≤ 57 then some ⟨c.toNat - 48, by omega⟩
  else if h : 97 ≤ c.toNat ∧ c.toNat ≤ 102 then some ⟨c.toNat - 87, by omega⟩
  else if h : 65 ≤ c.toNat ∧ c.toNat ≤ 70 then some ⟨c.toNat - 55, by omega⟩
  else none

/-- The lower-case digit of a value. -/
def digit (d : Fin 16) : Char :=
  if d.val < 10 then Char.ofNat (48 + d.val) else Char.ofNat (87 + d.val)

/-- A written digit reads back. -/
theorem digit?_digit (d : Fin 16) : digit? (digit d) = some d := by
  revert d
  decide

/-- The last `n` digits of a number, most significant first. -/
def digits : Nat → Nat → List Char
  | 0, _ => []
  | n + 1, v => digits n (v / 16) ++ [digit ⟨v % 16, Nat.mod_lt _ (by decide)⟩]

@[simp] theorem length_digits (n v : Nat) : (digits n v).length = n := by
  induction n generalizing v with
  | zero => rfl
  | succ n ih => simp [digits, ih]

/-- A number with at least `width` digits, padded by zeros on the left. -/
def padded (width v : Nat) : String := String.ofList (digits (max width (v.log2 / 4 + 1)) v)

end UnitBake.Hex

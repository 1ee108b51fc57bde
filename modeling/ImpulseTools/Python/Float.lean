import ImpulseTools.Python.Number

/-! # Decimal literals as floats

A runtime that reads digits with a decimal point, and packs what is normal in single precision.
-/

namespace ImpulseTools

/-- The integer nearest to `a / b`, the even one of two. -/
def roundDiv (a b : ℕ) : ℕ :=
  if 2 * (a % b) < b ∨ 2 * (a % b) = b ∧ a / b % 2 = 0 then a / b else a / b + 1

/-- The bits of the double nearest to `a / b`, for a number from `2 ^ -64` on. -/
def doubleBits (a b : ℕ) : ℕ :=
  let exponent := Nat.log2 (a * 2 ^ 64 / b)
  (exponent + (1023 - 64)) * 2 ^ 52 + roundDiv (a * 2 ^ (64 + 52)) (b * 2 ^ exponent) - 2 ^ 52

/-- The digits of a literal without their point, and the power of ten they count. -/
def decimalLiteral (t : Text) : Option (ℕ × ℕ) :=
  match Scan.cut '.' t with
  | (a, some b) =>
    if a ≠ [] ∧ b ≠ [] ∧ (a ++ b).all Char.isDigit then
      some (digitsValue 10 ((a ++ b).map fun c => c.toNat - '0'.toNat), 10 ^ b.length)
    else none
  | (_, none) => none

/-- `Runtime.ascii` with decimal literals that are not too large or too small. -/
def Runtime.decimals : Runtime :=
  { Runtime.ascii with
    float := fun t =>
      match decimalLiteral t with
      | some (a, b) =>
        if b ≤ a * 2 ^ 64 ∧ a < b * 2 ^ 64 then some (BitVec.ofNat 64 (doubleBits a b)) else none
      | none => none
    packFloat := fun x =>
      if 897 * 2 ^ 52 ≤ x.toNat ∧ x.toNat < 1150 * 2 ^ 52 then
        some (BitVec.ofNat 32 (roundDiv (x.toNat - 896 * 2 ^ 52) (2 ^ 29)))
      else none }

example : Runtime.decimals.float (chars "0.1") = some 0x3FB999999999999A#64 := by decide +kernel

example : Runtime.decimals.packFloat 0x3FB999999999999A#64 = some 0x3DCCCCCD#32 := by
  decide +kernel

end ImpulseTools

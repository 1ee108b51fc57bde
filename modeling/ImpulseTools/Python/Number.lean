import ImpulseTools.Python.Text
import Mathlib.Algebra.Group.Int.Defs
import Mathlib.Algebra.Group.Nat.Defs

/-! # Numbers in text

`int()` in bases ten and sixteen, the errors the tools can raise, and packing to
little-endian bytes.
-/

namespace ImpulseTools

/-- What can be raised while a file is assembled or checked, with the data its message shows. -/
inductive PyErr where
  /-- `ValueError: invalid literal for int() with base …` -/
  | invalidLiteral (base : ℕ) (text : Text)
  /-- `ValueError: Exceeds the limit (4300 digits) for integer string conversion` -/
  | tooManyDigits (count : ℕ)
  /-- `ValueError: could not convert string to float` -/
  | invalidFloat (text : Text)
  /-- `OverflowError: float too large to pack with f format` -/
  | floatTooLarge
  /-- `struct.error`: the number is not an unsigned one of the format's width -/
  | packRange
  /-- `ValueError` of an assignment to two names: the number of values there were -/
  | unpack (count : ℕ)
  /-- `TypeError: unsupported operand type(s) for <<: 'list' and 'int'` -/
  | shiftOfList
  /-- `IndexError: invalid index`, of a ctypes array -/
  | indexOutOfRange
  /-- `ValueError: Unknown opcode '…' in line: …` -/
  | unknownOpcode (name line : Text)
  deriving DecidableEq

/-- Blanks `int()` removes: the ASCII separators U+001C to U+001F stay. -/
def intSpace (c : Char) : Bool := isSpace c && !(0x1C ≤ c.toNat && c.toNat ≤ 0x1F)

/-- Digits with single underscores between them; `some` of the digit values. -/
def digitRun (digit : Char → Option ℕ) : Bool → Text → Option (List ℕ)
  | afterDigit, [] => if afterDigit then some [] else none
  | afterDigit, c :: t =>
    if afterDigit && c == '_' then digitRun digit false t
    else do
      let d ← digit c
      let ds ← digitRun digit true t
      some (d :: ds)

def digitsValue (base : ℕ) (ds : List ℕ) : ℕ := ds.foldl (fun n d => base * n + d) 0

def signed : Text → ℤ × Text
  | '+' :: t => (1, t)
  | '-' :: t => (-1, t)
  | t => (1, t)

/-- `sys.int_info.default_max_str_digits` -/
def maxStrDigits : ℕ := 4300

namespace Runtime

variable (py : Runtime)

def int (t : Text) : Except PyErr ℤ :=
  let (sign, body) := signed (Scan.trim intSpace t)
  match digitRun py.decimal false body with
  | none => .error (.invalidLiteral 10 t)
  | some ds =>
    if maxStrDigits < ds.length then .error (.tooManyDigits ds.length)
    else .ok (sign * digitsValue 10 ds)

def hexDigit (c : Char) : Option ℕ :=
  match py.decimal c with
  | some d => some d
  | none =>
    if 'a' ≤ c ∧ c ≤ 'f' then some (c.toNat - 'a'.toNat + 10)
    else if 'A' ≤ c ∧ c ≤ 'F' then some (c.toNat - 'A'.toNat + 10)
    else none

/-- Drop `0x` or `0X`, and one underscore after it. -/
def hexBody : Text → Text
  | '0' :: 'x' :: '_' :: t | '0' :: 'X' :: '_' :: t => t
  | '0' :: 'x' :: t | '0' :: 'X' :: t => t
  | t => t

def int16 (t : Text) : Except PyErr ℤ :=
  let (sign, body) := signed (Scan.trim intSpace t)
  match digitRun py.hexDigit false (hexBody body) with
  | none => .error (.invalidLiteral 16 t)
  | some ds => .ok (sign * digitsValue 16 ds)

end Runtime

abbrev Byte := BitVec 8

def le32 (n : ℕ) : List Byte :=
  [BitVec.ofNat 8 n, BitVec.ofNat 8 (n >>> 8), BitVec.ofNat 8 (n >>> 16),
    BitVec.ofNat 8 (n >>> 24)]

/-- `struct.pack("<I", v)` -/
def packU32 (v : ℤ) : Except PyErr (List Byte) :=
  if 0 ≤ v ∧ v < 2 ^ 32 then .ok (le32 v.toNat) else .error .packRange

/-- `str(n)` -/
def decimalText (n : ℕ) : Text := Nat.toDigits 10 n

end ImpulseTools

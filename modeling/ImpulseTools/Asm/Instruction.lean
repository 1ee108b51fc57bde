import ImpulseTools.Asm.Opcode
import Mathlib.Data.List.AList
import Mathlib.Data.Int.Bitwise

/-! # Instruction words and operand values

The 8-byte word of the virtual machine, the table of named constants that lives as
long as the process, and the value of an operand token.
-/

namespace ImpulseTools

/-- `class Instruction(ctypes.Structure)` -/
structure Instruction where
  opcode : BitVec 8
  flags : BitVec 8
  dstReg : BitVec 16
  payload : BitVec 32
  deriving DecidableEq

/-- `Instruction(opcode, flags, dst_reg, payload)`: ctypes keeps the low bits of each field. -/
def Instruction.ofInts (opcode : BitVec 8) (flags dstReg payload : ℤ) : Instruction :=
  ⟨opcode, .ofInt 8 flags, .ofInt 16 dstReg, .ofInt 32 payload⟩

/-- The module-level dictionary `CONSTANTS`. -/
abbrev Constants := AList fun _ : Text => ℤ

def constants : Constants := List.toAList [
  ⟨chars "SEMIRING_PLUS_TIMES", 0⟩,
  ⟨chars "SEMIRING_MIN_PLUS", 1⟩,
  ⟨chars "SEMIRING_MAX_MIN", 2⟩,
  ⟨chars "SEMIRING_BOOL", 3⟩,
  ⟨chars "BINARY_OP_ADD", 0⟩,
  ⟨chars "BINARY_OP_MUL", 1⟩,
  ⟨chars "BINARY_OP_MIN", 2⟩,
  ⟨chars "BINARY_OP_MAX", 3⟩,
  ⟨chars "BINARY_OP_AND", 4⟩,
  ⟨chars "BINARY_OP_OR", 5⟩,
  ⟨chars "BINARY_OP_ARGMIN", 6⟩,
  ⟨chars "BINARY_OP_ARGMAX", 7⟩]

namespace Runtime

variable (py : Runtime)

def parseVal (K : Constants) (t : Text) : Except PyErr ℤ :=
  match K.lookup t with
  | some v => .ok v
  | none =>
    if t.startsWith (chars "0x") then py.int16 t
    else if t.startsWith (chars "R") then py.int (t.drop 1)
    else
      -- the bare `except` also turns a literal that is too long into 0
      match py.int t with
      | .ok v => .ok v
      | .error _ => .ok 0

theorem parseVal_insert_self (K : Constants) (n : Text) (v : ℤ) :
    py.parseVal (K.insert n v) n = .ok v := by
  simp [parseVal]

theorem parseVal_insert_of_ne (K : Constants) {n t : Text} (v : ℤ) (h : t ≠ n) :
    py.parseVal (K.insert n v) t = py.parseVal K t := by
  simp [parseVal, AList.lookup_insert_ne h]

end Runtime

end ImpulseTools

import ImpulseTools.Asm.Encode
import Mathlib.Tactic.NormNum

/-! # Reading the instruction stream

How the virtual machine takes units from the stream (`VM_SPECIFICATION.md`, section 3.2),
without reference to the encoder, and what it reads back from the words of one line.
-/

namespace ImpulseTools

def Instruction.extended (w : Instruction) : Bool := w.flags.getLsbD 7

structure VmUnit where
  opcode : BitVec 8
  /-- The modifier bits, without `FLAG_EXTENDED`. -/
  flags : ℕ
  dst : ℕ
  payload : ℕ
  deriving DecidableEq

/-- The low half of an extended unit's payload is `arg1` of the first word, the high half `arg3`. -/
def readUnit : List Instruction → Option VmUnit
  | [w] => if w.extended then none else
      some ⟨w.opcode, w.flags.toNat, w.dstReg.toNat, w.payload.toNat⟩
  | [w, e] => if w.extended ∧ e.opcode = 0xFF ∧ e.flags = 0 then
      some ⟨w.opcode, w.flags.toNat - 128, w.dstReg.toNat,
        w.payload.toNat % 2 ^ 16 + 2 ^ 16 * e.dstReg.toNat⟩
      else none
  | _ => none

/-- Cut the stream into units from left to right: two words when flag bit 7 is set. -/
def frame : List Instruction → Option (List (List Instruction))
  | [] => some []
  | w :: ws =>
    if w.extended then
      match ws with
      | [] => none
      | e :: ws => ([w, e] :: ·) <$> frame ws
    else ([w] :: ·) <$> frame ws

theorem Instruction.extended_iff (w : Instruction) : w.extended ↔ 128 ≤ w.flags.toNat := by
  rw [extended, show 7 = 8 - 1 from rfl, ← BitVec.msb_eq_getLsbD_last, BitVec.msb_eq_decide]
  simp

@[simp] theorem Instruction.ofInts_opcode (c : BitVec 8) (f d p : ℤ) :
    (Instruction.ofInts c f d p).opcode = c := rfl

@[simp] theorem Instruction.ofInts_flags (c : BitVec 8) (f d p : ℤ) :
    (Instruction.ofInts c f d p).flags = .ofInt 8 f := rfl

@[simp] theorem Instruction.ofInts_dstReg (c : BitVec 8) (f d p : ℤ) :
    (Instruction.ofInts c f d p).dstReg = .ofInt 16 d := rfl

@[simp] theorem Instruction.ofInts_payload (c : BitVec 8) (f d p : ℤ) :
    (Instruction.ofInts c f d p).payload = .ofInt 32 p := rfl

theorem emit_cases (op : Op) (o : Operands) :
    (extendable op ∧ 255 < o.payload >>> (16 : ℕ) ∧
      emit op o = [.ofInts op.code (o.flags.lor 0x80) o.dst (mask 16 o.payload),
        .ofInts 0xFF 0 (mask 16 (o.payload >>> (16 : ℕ))) 0]) ∨
    (¬ (255 < o.payload >>> (16 : ℕ) ∧ extendable op) ∧
      emit op o = [.ofInts op.code o.flags o.dst (mask 32 o.payload)]) := by
  by_cases h : 255 < o.payload >>> (16 : ℕ) ∧ extendable op
  · exact .inl ⟨h.2, h.1, if_pos h⟩
  · exact .inr ⟨h, if_neg h⟩

theorem mask_nonneg (w : ℕ) (v : ℤ) : 0 ≤ mask w v :=
  Int.emod_nonneg _ (pow_ne_zero w two_ne_zero)

theorem mask_lt (w : ℕ) (v : ℤ) : mask w v < 2 ^ w :=
  Int.emod_lt_of_pos _ (Int.pow_pos two_pos)

theorem toNat_mask_lt (w : ℕ) (v : ℤ) : (mask w v).toNat < 2 ^ w := by
  rw [Int.toNat_lt (mask_nonneg w v)]
  exact_mod_cast mask_lt w v

theorem toNat_mask_natCast (w n : ℕ) : (mask w n).toNat = n % 2 ^ w := by
  rw [mask, ← Int.toNat_natCast (n % 2 ^ w)]
  push_cast
  rfl

theorem mask_of_lt {w : ℕ} {v : ℤ} (h0 : 0 ≤ v) (h1 : v < 2 ^ w) : mask w v = v :=
  Int.emod_eq_of_lt h0 h1

theorem toNat_ofInt_mask (w : ℕ) (v : ℤ) :
    (BitVec.ofInt w (mask w v)).toNat = (mask w v).toNat := by
  rw [BitVec.toNat_ofInt, Nat.cast_pow, Nat.cast_ofNat,
    Int.emod_eq_of_lt (mask_nonneg w v) (mask_lt w v)]

theorem toNat_ofInt (w : ℕ) (v : ℤ) : (BitVec.ofInt w v).toNat = (mask w v).toNat := by
  simp [BitVec.toNat_ofInt, mask]

theorem mask_halves (v : ℤ) :
    (mask 16 v).toNat + 2 ^ 16 * (mask 16 (v >>> (16 : ℕ))).toNat = (mask 32 v).toNat := by
  have hs : v >>> (16 : ℕ) = v / 65536 := by rw [Int.shiftRight_eq_div_pow]; rfl
  have hm : v / 65536 = v / 65536 / 65536 * 65536 + v / 65536 % 65536 := by omega
  have hd : v / 65536 / 65536 = v / 4294967296 := by
    rw [Int.ediv_ediv_of_nonneg (by norm_num)]; rfl
  simp only [mask, hs, show (2 : ℤ) ^ 16 = 65536 by norm_num,
    show (2 : ℤ) ^ 32 = 4294967296 by norm_num]
  omega

theorem toNat_flags_or {f : ℤ} (h0 : 0 ≤ f) (h1 : f < 128) :
    (BitVec.ofInt 8 (f.lor 0x80)).toNat = f.toNat + 128 := by
  obtain ⟨n, rfl⟩ := Int.eq_ofNat_of_zero_le h0
  have hn : n < 2 ^ 7 := by omega
  have hor : n ||| 128 = 128 + n := by
    rw [Nat.lor_comm]; exact (Nat.two_pow_add_eq_or_of_lt hn 1).symm
  have : (n : ℤ).lor 0x80 = ((n ||| 128 : ℕ) : ℤ) := rfl
  rw [this, BitVec.ofInt_natCast, BitVec.toNat_ofNat, hor]
  omega

/-- What the machine reads back from a line whose flags leave bit 7 free. -/
theorem readUnit_emit (op : Op) (o : Operands) (h0 : 0 ≤ o.flags) (h1 : o.flags < 128) :
    readUnit (emit op o) =
      some ⟨op.code, o.flags.toNat, (mask 16 o.dst).toNat, (mask 32 o.payload).toNat⟩ := by
  obtain ⟨-, -, he⟩ | ⟨-, he⟩ := emit_cases op o
  · have hf := toNat_flags_or h0 h1
    have hx : (Instruction.ofInts op.code (o.flags.lor 0x80) o.dst (mask 16 o.payload)).extended :=
      (Instruction.extended_iff _).mpr (by simp only [Instruction.ofInts_flags, hf]; omega)
    rw [he, readUnit, if_pos ⟨hx, rfl, rfl⟩]
    simp only [Instruction.ofInts_opcode, Instruction.ofInts_flags, Instruction.ofInts_dstReg,
      Instruction.ofInts_payload, hf, toNat_ofInt_mask, toNat_ofInt 16 o.dst, Nat.add_sub_cancel]
    rw [← mask_halves, toNat_ofInt]
    simp only [mask]
    congr 2
    omega
  · have hf : (BitVec.ofInt 8 o.flags).toNat = o.flags.toNat := by
      rw [toNat_ofInt, mask, Int.emod_eq_of_lt h0 (by omega)]
    have hx : ¬ (Instruction.ofInts op.code o.flags o.dst (mask 32 o.payload)).extended := by
      rw [Instruction.extended_iff, Instruction.ofInts_flags, hf]; omega
    rw [he, readUnit, if_neg hx]
    simp only [Instruction.ofInts_opcode, Instruction.ofInts_flags, Instruction.ofInts_dstReg,
      Instruction.ofInts_payload, hf, toNat_ofInt_mask, toNat_ofInt 16 o.dst]

end ImpulseTools

import ImpulseTools.Python.Number
import Mathlib.Algebra.GroupWithZero.Nat
import Mathlib.Data.List.AList

/-! # Engine states

The state an engine leaves behind, as the C structure the suite reads and as the
dictionary the four-way comparison reads.
-/

namespace ImpulseTools

instance neZero64 : NeZero 64 := ⟨Nat.succ_ne_zero 63⟩

/-- The fields of `class VmState(ctypes.Structure)` that are read after a run. -/
structure VmState where
  pc : BitVec 32
  flags : BitVec 64
  registers : Fin 64 → BitVec 64
  registerTypes : Fin 64 → BitVec 8
  callStackDepth : BitVec 32

def intText (i : ℤ) : Text :=
  if i < 0 then '-' :: decimalText i.natAbs else decimalText i.natAbs

def statusNames : List (ℤ × Text) := [
  (0, chars "IMPULSE_VM_OK"),
  (1, chars "IMPULSE_VM_ERR_INVALID_OPCODE"),
  (2, chars "IMPULSE_VM_ERR_OUT_OF_BOUNDS"),
  (3, chars "IMPULSE_VM_ERR_NULL_SNAPSHOT"),
  (4, chars "IMPULSE_VM_ERR_STACK_OVERFLOW"),
  (5, chars "IMPULSE_VM_ERR_STACK_UNDERFLOW"),
  (6, chars "IMPULSE_VM_ERR_INVALID_REGISTER"),
  (7, chars "IMPULSE_VM_ERR_USER_THROW"),
  (8, chars "IMPULSE_VM_ERR_ASSERTION_FAILED"),
  (9, chars "IMPULSE_VM_ERR_TRAP"),
  (10, chars "IMPULSE_VM_ERR_RESERVED_OPCODE"),
  (11, chars "IMPULSE_VM_ERR_BUFFER_OVERFLOW"),
  (12, chars "IMPULSE_VM_ERR_FLOATING_POINT"),
  (13, chars "IMPULSE_VM_ERR_GAS_EXHAUSTED")]

/-- `STATUS_NAMES.get(status_code, f"UNKNOWN({status_code})")` -/
def statusName (code : ℤ) : Text :=
  (statusNames.lookup code).getD (chars "UNKNOWN(" ++ intText code ++ chars ")")

/-- What a run of an engine leaves: a `c_int`, the state, and the sizes kept in the context. -/
structure Outcome where
  statusCode : BitVec 32
  state : VmState
  scratchBytes : ℕ
  maxDop : ℕ

def Outcome.status (o : Outcome) : Text := statusName o.statusCode.toInt

/-- `f"R{i}"` -/
def regName (i : ℤ) : Text := 'R' :: intText i

theorem decimalText_injective {m n : ℕ} (h : decimalText m = decimalText n) : m = n := by
  have hm : Nat.ofDigitChars 10 (decimalText m) 0 = m := Nat.ofDigitChars_ten_toDigits
  rw [h] at hm
  exact hm.symm.trans Nat.ofDigitChars_ten_toDigits

theorem decimalText_ne_minus (n : ℕ) (t : Text) : decimalText n ≠ '-' :: t := by
  intro h
  have hd : '-'.isDigit = true := Nat.isDigit_of_mem_toDigits (b := 10) (n := n) (by decide)
    (by decide) (by rw [← decimalText, h]; exact List.mem_cons_self)
  exact absurd hd (by decide)

theorem intText_injective : Function.Injective intText := by
  intro i j h
  unfold intText at h
  split at h <;> split at h
  · have := decimalText_injective (List.cons.inj h).2
    omega
  · exact absurd h.symm (decimalText_ne_minus _ _)
  · exact absurd h (decimalText_ne_minus _ _)
  · have := decimalText_injective h
    omega

theorem regName_injective : Function.Injective regName :=
  fun _ _ h => intText_injective (List.cons.inj h).2

/-- A state as a dictionary with the keys `run_cpp` gives it. -/
structure EngineState where
  status : Text
  pc : ℤ
  flags : AList fun _ : Text => Bool
  contextHash : Option Text
  registers : AList fun _ : Text => ℤ
  registerTypes : Option (AList fun _ : Text => ℤ)

/-- `d.get(k, default)` -/
def getD {α : Type} (d : AList fun _ : Text => α) (k : Text) (default : α) : α :=
  (d.lookup k).getD default

def registerTable (v : Fin 64 → ℤ) : AList fun _ : Text => ℤ :=
  List.toAList ((List.finRange 64).map fun i => ⟨regName i.val, v i⟩)

/-- The dictionary `run_cpp` builds. The hash of the state comes from the library. -/
def runCpp (hash : Text) (o : Outcome) : EngineState where
  status := o.status
  pc := o.state.pc.toNat
  flags := List.toAList
    [⟨chars "zf", o.state.flags.getLsbD 0⟩, ⟨chars "st", o.state.flags.getLsbD 4⟩]
  contextHash := some hash
  registers := registerTable fun i => (o.state.registers i).toNat
  registerTypes := some (registerTable fun i => (o.state.registerTypes i).toNat)

theorem lookup_registerTable (v : Fin 64 → ℤ) (i : Fin 64) :
    (registerTable v).lookup (regName i.val) = some (v i) := by
  rw [registerTable, AList.lookup_to_alist]
  refine List.mem_dlookup ?_ (List.mem_map.mpr ⟨i, List.mem_finRange i, rfl⟩)
  rw [List.NodupKeys, List.keys, List.map_map]
  refine (List.nodup_finRange 64).map fun i j h => ?_
  exact Fin.ext (Int.ofNat_inj.mp (regName_injective h))

theorem lookup_registerTable_of_not_mem (v : Fin 64 → ℤ) {k : ℤ} (h : ¬ (0 ≤ k ∧ k < 64)) :
    (registerTable v).lookup (regName k) = none := by
  rw [registerTable, AList.lookup_to_alist, List.dlookup_eq_none, List.keys, List.map_map]
  intro hk
  obtain ⟨i, -, hi⟩ := List.mem_map.mp hk
  have := regName_injective hi
  omega

theorem getD_runCpp_zf (hash : Text) (o : Outcome) :
    getD (runCpp hash o).flags (chars "zf") false = o.state.flags.getLsbD 0 := by
  rw [getD, runCpp, AList.lookup_to_alist]
  rfl

theorem getD_runCpp_st (hash : Text) (o : Outcome) :
    getD (runCpp hash o).flags (chars "st") false = o.state.flags.getLsbD 4 := by
  rw [getD, runCpp, AList.lookup_to_alist]
  rfl

theorem getD_runCpp_register (hash : Text) (o : Outcome) (i : Fin 64) :
    getD (runCpp hash o).registers (regName i.val) 0 = (o.state.registers i).toNat := by
  rw [getD, runCpp, lookup_registerTable]
  rfl

theorem getD_runCpp_of_not_mem (hash : Text) (o : Outcome) {k : ℤ} (h : ¬ (0 ≤ k ∧ k < 64)) :
    getD (runCpp hash o).registers (regName k) 0 = 0 := by
  rw [getD, runCpp, lookup_registerTable_of_not_mem _ h]
  rfl

end ImpulseTools

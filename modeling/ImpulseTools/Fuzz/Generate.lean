import ImpulseTools.Asm.Format
import ImpulseTools.Fuzz.Contract
import ImpulseTools.Verify.State

/-! # The program generator

`VmContractFuzzer.generate_program`. The random generator is a list of draws, one for each
turn of the loop: any numbers may come, and each is reduced to the range it is asked for.
-/

namespace ImpulseTools

abbrev RegState := ℕ → Finset RegType

/-- The numbers drawn in one turn of the loop. -/
structure Draw where
  contract : ℕ := 0
  dst : ℕ := 0
  src : ℕ := 0
  /-- `rng.random() < 0.3` -/
  skipAux1 : Bool := false
  aux1 : ℕ := 0
  operand : ℕ := 0
  outType : ℕ := 0

/-- `rng.choice(l)`, which is only called on a list that is not empty. -/
def choice {α : Type} (l : List α) (n : ℕ) : Option α := l[n % l.length]?

def randint (a b n : ℕ) : ℕ := a + n % (b + 1 - a)

def fuzzerContracts (table : List Contract) : List Contract :=
  table.filter fun c => !(c.mnemonic.startsWith (chars "OP_STREAM_") ||
    c.op ∈ [some Op.halt, some .trap, some .throw, some .ret, some .leaveFrame])

def setMask : ℕ :=
  [RegType.bitsetHandle, .nodeId, .int64, .nodeVector, .uint64Vector, .laneFrontier].foldl
    (fun m t => m ||| 1 <<< t.tag) 0

namespace Contract

variable (c : Contract)

def isSetOp : Bool := c.op ∈ [some Op.setUnion, some .setIntersect, some .setDifference]

def allowedSrc : ℕ := if c.isSetOp then c.allowedSrcTypes &&& setMask else c.allowedSrcTypes

def allowedAux1 : ℕ := if c.isSetOp then c.allowedAux1Types &&& setMask else c.allowedAux1Types

end Contract

/-- `any((allowed & (1 << t)) for t in types if t != TYPE_NULL or r == 0)` -/
def accepts (allowed : ℕ) (types : Finset RegType) (r : ℕ) : Bool :=
  ∃ t ∈ types, (t ≠ .null ∨ r = 0) ∧ allowed.testBit t.tag

def validRegs (s : RegState) (allowed : ℕ) : List ℕ :=
  (List.range 64).filter fun r => accepts allowed (s r) r

/-- The body of the loop that collects `eligible`. -/
def isEligible (s : RegState) (c : Contract) : Bool :=
  let srcRegs := (List.range 64).filter fun r =>
    c.allowedSrc == 0 || accepts c.allowedSrc (s r) r
  let aux1Regs := (List.range 64).filter fun r =>
    c.allowedAux1 == 0 || c.allowZeroSkipAux1 || accepts c.allowedAux1 (s r) r
  let aux2Regs := (List.range 64).filter fun r =>
    c.allowedAux2Types == 0 || c.allowZeroSkipAux2 || accepts c.allowedAux2Types (s r) r
  !(c.allowedSrc != 0 && srcRegs.isEmpty) &&
    !(c.allowedAux1 != 0 && !c.allowZeroSkipAux1 && aux1Regs.isEmpty) &&
    !(c.allowedAux2Types != 0 && !c.allowZeroSkipAux2 && aux2Regs.isEmpty)

/-- `f"0x{pc:02X}"` -/
def hexPc (pc : ℕ) : Text :=
  let digits := (Nat.toDigits 16 pc).map Char.toUpper
  chars "0x" ++ List.replicate (2 - digits.length) '0' ++ digits

def regText (r : ℕ) : Text := 'R' :: decimalText r

/-- The text of `k / 100`, a float with at most two decimals. -/
def centText (k : ℕ) : Text :=
  decimalText (k / 100) ++ '.' ::
    (if k % 10 = 0 then [Nat.digitChar (k / 10 % 10)]
      else [Nat.digitChar (k / 10 % 10), Nat.digitChar (k % 10)])

/-- The operands `_format_instruction` writes, nothing for a mnemonic it does not know. -/
def formatOperands (op : Op) (dst src aux1 n : ℕ) : Option (List Text) :=
  match op with
  | .csrWalk | .cscWalk | .adaptiveWalk | .csrDegree => some [regText dst, regText src, chars "0"]
  | .setUnion | .setIntersect | .setDifference => some [regText dst, regText src, regText aux1]
  | .setCardinality => some [regText dst, regText src]
  | .mov => some [regText dst, regText src]
  | .clearReg => some [regText dst]
  | .vecCmpEq | .vecCmpGt | .vecCmpLt => some [regText dst, regText src, regText aux1]
  | .vecMathUnary => some [regText dst, regText src, decimalText (randint 0 4 n)]
  | .vecMathBinary =>
    some [regText dst, regText src, regText aux1, decimalText (randint 0 3 n)]
  | .vectorReduceSum => some [regText dst, regText src]
  | .floatVectorScale => some [regText dst, regText src, chars "2"]
  | .extractValidity => some [regText dst, regText src]
  | .laneInitSeeds => some [regText dst, chars "0"]
  | .laneInitGroups => some [regText dst, regText src]
  | .laneCsrWalk | .laneCscWalk => some [regText dst, regText src, chars "0"]
  | .laneFilterQuorum => some [regText dst, regText src, chars "1"]
  | .laneReduceAnd => some [regText dst, regText src]
  | .vectorAnnSearch => some [regText dst, regText src, chars "2", chars "0", chars "0"]
  | .vectorRerankDot => some [regText dst, regText src, regText aux1, chars "0", chars "0"]
  | .loadConstInt => some [regText dst, decimalText (randint 1 100 n)]
  -- `round(rng.uniform(0.1, 10.0), 2)`
  | .loadConstFloat => some [regText dst, centText (randint 10 1000 n)]
  | .assert => some [regText src, chars "0"]
  | _ => none

/-- `_format_instruction`: the mnemonic takes 24 characters, and a blank follows. -/
def formatInstruction (pc : ℕ) (c : Contract) (dst src aux1 n : ℕ) : Option Text := do
  let op ← c.op
  let operands ← formatOperands op dst src aux1 n
  return formatLine (hexPc pc) op (24 - op.name.length + 1) operands

/-- The type that `reg_state[dst_reg]` gets for an emitted instruction. -/
def recordTypes (s : RegState) (c : Contract) (dst src aux1 n : ℕ) : RegState :=
  match c.op with
  | some .vecMathUnary =>
    Function.update s dst (if s src = {.float} then {.float} else {.floatVector})
  | some .vecMathBinary =>
    Function.update s dst
      (if s src = {.float} ∧ s aux1 = {.float} then {.float} else {.floatVector})
  | some .csrWalk | some .cscWalk | some .adaptiveWalk | some .setUnion | some .setIntersect
  | some .setDifference | some .initInputSet | some .extractValidity =>
    Function.update s dst {.bitsetHandle}
  | some .setCardinality | some .csrDegree => Function.update s dst {.int64}
  | some .clearReg => Function.update s dst {.null}
  | some .mov => Function.update s dst (s src)
  | some .floatVectorScale => s
  | _ =>
    match choice (possibleTypes c.outputDstTypes) n with
    | some t => if c.modifiesDstState then Function.update s dst {t} else s
    | none => s

structure Emission where
  contract : Contract
  dst : ℕ
  src : ℕ
  line : Text
  regState : RegState

structure FuzzState where
  pc : ℕ
  regState : RegState
  emitted : List Emission

/-- One turn of the loop; nothing is eligible when it ends early. -/
def turn (table : List Contract) (s : FuzzState) (d : Draw) : Option FuzzState := do
  let c ← choice ((fuzzerContracts table).filter (isEligible s.regState)) d.contract
  let dst := randint 10 31 d.dst
  let pick (allowed n : ℕ) : ℕ := (choice (validRegs s.regState allowed) n).getD 0
  let src := if c.allowedSrc = 0 then 0 else pick c.allowedSrc d.src
  let aux1 :=
    if c.allowedAux1 = 0 then 0
    else if c.allowZeroSkipAux1 && d.skipAux1 then 0
    else pick c.allowedAux1 d.aux1
  -- a register for aux2 is drawn as well, and no format has a place for it
  match formatInstruction s.pc c dst src aux1 d.operand with
  | none => return s
  | some line =>
    let regState := recordTypes s.regState c dst src aux1 d.outType
    return ⟨s.pc + 1, regState, s.emitted ++ [⟨c, dst, src, line, regState⟩]⟩

def generate (table : List Contract) : List Draw → FuzzState → FuzzState
  | [], s => s
  | d :: ds, s =>
    match turn table s d with
    | some s => generate table ds s
    | none => s

def preambleTypes : RegState
  | 1 => {.int64}
  | 2 => {.float}
  | 3 => {.nodeId}
  | 4 => {.bitsetHandle}
  | 5 => {.floatVector}
  | 6 => {.nodeVector}
  | _ => {.null}

def preamble (seed : ℤ) : List Text := [
  chars "; CONTRACT-GUIDED FUZZ TEST (Seed: " ++ intText seed ++ chars ")",
  chars "; \x7bEXPECT: STATUS = IMPULSE_VM_OK\x7d",
  chars ".fuel 5000",
  chars "",
  chars ".data",
  chars ".csr_inline FUZZ_GRAPH = \x7b",
  chars "    0: [1, 2],",
  chars "    1: [2, 3],",
  chars "    2: [3],",
  chars "    3: []",
  chars "\x7d",
  chars ".array_float ATTR_FLOAT = [1.5, 2.5, 3.5, 4.5]",
  chars ".array_int ATTR_INT = [10, 20, 30, 40]",
  chars "",
  chars ".text",
  chars "0x00: OP_INIT_MOCK_GRAPH         R0, FUZZ_GRAPH",
  chars "0x01: OP_LOAD_CONST_INT          R1, 42",
  chars "0x02: OP_LOAD_CONST_FLOAT        R2, 3.5",
  chars "0x03: OP_INIT_INPUT_NODE         R3, 0",
  chars "0x04: OP_INIT_INPUT_SET          R4",
  chars "0x05: OP_LOAD_INLINE_ARRAY       R5, ATTR_FLOAT",
  chars "0x06: OP_LOAD_INLINE_INT_ARRAY   R6, ATTR_INT"]

def fuzzRun (table : List Contract) (draws : List Draw) : FuzzState :=
  generate table draws ⟨7, preambleTypes, []⟩

def programLines (table : List Contract) (seed : ℤ) (draws : List Draw) : List Text :=
  let s := fuzzRun table draws
  preamble seed ++ s.emitted.map Emission.line ++ [formatLine (hexPc s.pc) .halt 0 []]

def generateProgram (table : List Contract) (seed : ℤ) (draws : List Draw) : Text :=
  (programLines table seed draws).flatMap fun line => line ++ ['\n']

end ImpulseTools

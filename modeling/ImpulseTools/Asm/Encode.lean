import ImpulseTools.Asm.Data

/-! # The encoder

What `parse_impas_file` does with the operands of an instruction line. A branch of the
source is a `Form`: which token names the destination, which tokens are masked and shifted
into the payload, and which one is stored in the flags. Token 0 is the mnemonic, so that
token numbers are those of the source.
-/

namespace ImpulseTools

/-- `payload |= (parse_val(tokens[tok]) & (2 ** width - 1)) << shift` -/
structure Field where
  tok : ℕ
  width : ℕ
  shift : ℕ
  deriving DecidableEq

/-- `v & (2 ** width - 1)`, which is the remainder for a number of either sign. -/
def mask (width : ℕ) (v : ℤ) : ℤ := v % 2 ^ width

/-- A branch of the encoder for a line of a given shape. A token the line lacks is skipped. -/
structure Form where
  /-- The token of `dst_reg`. -/
  dst : Option ℕ := some 1
  /-- A token copied whole to the payload, before the fields are added. -/
  whole : Option ℕ := none
  /-- Payload bits that do not come from an operand. -/
  base : ℕ := 0
  fields : List Field := []
  /-- The token of `flags`. -/
  flags : Option ℕ := none
  /-- `flags` on a line without that token. -/
  flagsElse : ℕ := 0

/-- Fields of the given widths, one token each from `tok` on, next to each other from `shift` up. -/
def layout (tok shift : ℕ) : List ℕ → List Field
  | [] => []
  | w :: ws => ⟨tok, w, shift⟩ :: layout (tok + 1) (shift + w) ws

inductive Branch where
  | form (f : Form)
  /-- The loads that name a data symbol. -/
  | inlineLoad
  /-- A float in the payload. -/
  | float (tok : ℕ)
  /-- `OP_INIT_MOCK_NODE_ATTR`, whose third operand is checked. -/
  | mockAttr

/-- `struct.unpack("<I", struct.pack("<f", 1.0))[0]` -/
def oneFloat : ℕ := 0x3F800000

def branch (op : Op) (toks : List Text) : Branch :=
  let n := toks.length
  let spelt (i : ℕ) (p : Text) : Bool := (toks.getD i []).startsWith p
  match op with
  | .jmp | .jz | .jnz | .call | .trap | .nop | .halt | .ret | .leaveFrame =>
    .form { dst := none, whole := some 1 }
  | .stableCheck =>
    if n = 2 then .form { dst := none, fields := [⟨1, 16, 0⟩] }
    else if 2 < n then .form { fields := [⟨1, 16, 0⟩, ⟨2, 16, 16⟩] }
    else .form { dst := none }
  | .initMockGraph | .loadInlineArray | .loadInlineIntArray | .loadInlineSet
  | .loadInlineSetDense | .loadInlineSetRoaring | .loadInlineNodeArray => .inlineLoad
  | .loadConstFloat => .float 2
  | .loadConstInt => .form { fields := layout 2 0 [32] }
  | .initMockNodeAttr | .initMockEdgeAttr => .mockAttr
  | .readEdgeWeight =>
    if n = 3 then .form { fields := [⟨2, 8, 0⟩, ⟨2, 8, 8⟩] }
    else if n = 4 then .form { fields := [⟨2, 8, 0⟩, ⟨2, 8, 8⟩, ⟨3, 16, 16⟩] }
    else if 5 ≤ n then .form { fields := layout 2 0 [8, 8, 16] }
    else .form {}
  | .floatVectorScale =>
    if n = 3 then
      if spelt 2 (chars "R") then .form { base := oneFloat } else .float 2
    else if 4 ≤ n then
      if spelt 3 (chars "R") then
        .form { fields := [⟨3, 16, 0⟩], flags := some 4, flagsElse := 1 }
      else if spelt 2 (chars "R") then
        .form { fields := layout 2 0 [16, 16], flags := some 4, flagsElse := 1 }
      else .float 2
    else .form {}
  | .islandDetect =>
    if n = 3 then .form { fields := [⟨2, 8, 0⟩, ⟨2, 8, 8⟩] }
    else if 4 ≤ n then .form { fields := layout 2 0 [8, 8, 16] }
    else .form {}
  | .frontierDiff => .form { fields := layout 2 0 [8, 8] }
  | .mapDenseToKeys => .form { fields := layout 2 0 [8, 16] }
  | .collectValueMap => .form { fields := layout 2 0 [8, 8, 16] }
  | .vectorDiv | .vectorStrConcat | .l1NormDiff | .roaringBitmapAnd | .roaringBitmapOr
  | .roaringBitmapAndNot =>
    if n = 3 then .form { fields := [⟨2, 16, 0⟩, ⟨2, 16, 16⟩] }
    else if 4 ≤ n then .form { fields := layout 2 0 [16, 16], flags := some 4 }
    else .form {}
  | .coalesce => .form { fields := layout 2 0 [16, 16] }
  | .extractValidity => .form { fields := layout 2 0 [16] }
  | .nodeFilter | .nodeFilterStrPrefix | .vectorTimeValidAt =>
    .form { fields := layout 2 0 [8, 8, 8, 8] }
  | .cscWalk =>
    if n = 4 then .form { fields := layout 2 0 [16, 16] }
    else if 4 < n then .form { fields := layout 2 0 [16, 8, 8] }
    else .form { fields := layout 2 0 [16] }
  | .csrWalkFiltered =>
    if n = 4 then .form { fields := layout 2 0 [16, 16] }
    else if 4 < n then .form { fields := layout 2 0 [8, 8, 16] }
    else .form {}
  | .csrWalkPredicate => .form { fields := layout 2 0 [8, 8, 16] }
  | .csrWalk2hop =>
    if n = 4 then .form { fields := layout 2 0 [16, 16] }
    -- the second field is 16 bits wide but only 8 below the third
    else if 4 < n then .form { fields := [⟨2, 8, 0⟩, ⟨3, 16, 8⟩, ⟨4, 16, 16⟩] }
    else .form {}
  | .mxv | .vxm => .form { fields := layout 2 0 [8, 8, 16] }
  | .ewiseAdd => .form { fields := layout 2 0 [8, 8, 16] }
  | .ewiseMult =>
    .form { fields := layout 2 0 [8, 8, 16], base := if 4 < n then 0 else 1 <<< 16 }
  | .vecBlend => .form { fields := layout 2 0 [8, 8, 8] }
  | .vecCmpBetween =>
    if n = 4 ∧ spelt 2 (chars "0x") then .form { fields := layout 2 0 [16, 16] }
    else .form { fields := layout 2 0 [8, 8, 8] }
  | .vecCmpEq | .vecCmpGt | .vecCmpLt | .maskAnd | .maskOr =>
    if n = 3 then .form { fields := layout 2 0 [16] }
    else .form { fields := layout 2 0 [8, 8] }
  | .maskNot => .form { fields := layout 2 0 [8] }
  | .vecMathUnary => .form { fields := layout 2 0 [8, 8], flags := some 4 }
  | .cooWalkStream | .csrWalkStream | .cscWalkStream =>
    .form { fields := layout 2 0 [16, 16], flags := some 4 }
  | .streamLoadConst => .form { whole := some 2 }
  | .vecMathBinary => .form { fields := layout 2 0 [8, 8, 8], flags := some 5 }
  | .vecMathTernary => .form { fields := layout 2 0 [8, 8, 8, 8], flags := some 6 }
  | .gatherNodeAttr => .form { fields := layout 2 0 [8, 8, 16] }
  | .cooWalkFiltered => .form { fields := layout 2 0 [8, 8, 16] }
  | .setUnion | .setIntersect | .setDifference =>
    .form { fields := layout 2 0 [16, 16], flags := some 4 }
  | .assert =>
    if n = 3 then .form { fields := layout 2 0 [32], flags := some 4 }
    else .form { fields := layout 2 0 [16, 16], flags := some 4 }
  | .loadIndirect | .enterFrame => .form { fields := layout 2 0 [16, 16], flags := some 4 }
  | .allocScratch | .assertScratchBytes | .setMaxDop => .form { whole := some 2 }
  | .laneInitGroups | .laneSetEdgeMask | .laneReduceAttr | .laneSetCover | .vectorAnnSearch
  | .vectorRerankDot =>
    if n = 4 then .form { fields := layout 2 0 [16, 16] }
    else if 5 ≤ n then .form { fields := layout 2 0 [8, 8, 16], flags := some 5 }
    else .form { fields := layout 2 0 [16] }
  | .lanePruneMask =>
    if 6 ≤ n then .form { fields := layout 2 0 [8, 8, 8, 8], flags := some 6 }
    else .form { fields := layout 2 0 [8, 8], flags := some 4 }
  | .laneFilterQuorum =>
    if 6 ≤ n then .form { fields := layout 2 0 [8, 8, 8, 8], flags := some 6, flagsElse := 1 }
    else .form { fields := layout 2 0 [16, 16], flags := some 4 }
  | op =>
    if op.name.startsWith (chars "OP_STREAM_") then .form { fields := layout 2 0 [16, 8, 8] }
    else if spelt 1 (chars "R") then .form { fields := layout 2 0 [16, 16], flags := some 4 }
    -- a first operand that is not a register goes to the payload, under the other two
    else .form { dst := none, whole := some 1, fields := layout 2 0 [16, 16], flags := some 4 }

/-- `dst_reg`, `payload` and `flags` at the end of a branch. -/
structure Operands where
  dst : ℤ
  payload : ℤ
  flags : ℤ
  deriving DecidableEq

structure Env where
  constants : Constants
  symbols : Symbols
  intSymbols : Finset Text

namespace Runtime

variable (py : Runtime)

section

variable (K : Constants) (toks : List Text)

def tokVal (i : Option ℕ) (missing : ℤ) : Except PyErr ℤ :=
  match i.bind (toks[·]?) with
  | some t => py.parseVal K t
  | none => .ok missing

/-- One `|=` of a branch. -/
def orField (payload : ℤ) (f : Field) : Except PyErr ℤ :=
  match toks[f.tok]? with
  | some t => do return payload.lor (mask f.width (← py.parseVal K t) * 2 ^ f.shift)
  | none => .ok payload

def evalForm (f : Form) : Except PyErr Operands := do
  let dst ← py.tokVal K toks f.dst 0
  let whole ← py.tokVal K toks f.whole f.base
  let payload ← f.fields.foldlM (py.orField K toks) whole
  let flags ← py.tokVal K toks f.flags f.flagsElse
  return ⟨dst, payload, flags⟩

def evalFloat (tok : ℕ) : Except PyErr Operands := do
  let dst ← py.tokVal K toks (some 1) 0
  match toks[tok]? with
  | none => return ⟨dst, 0, 0⟩
  | some t =>
    match py.float t with
    | none => .error (.invalidFloat t)
    | some f => return ⟨dst, (← py.floatBits f).toNat, 0⟩

def evalMockAttr : Except PyErr Operands := do
  let dst ← py.tokVal K toks (some 1) 0
  let payload ← py.orField K toks 0 ⟨2, 8, 0⟩
  match toks[3]? with
  | none => return ⟨dst, payload, 0⟩
  | some t =>
    let m := mask 8 (← py.parseVal K t)
    let m := if 64 ≤ m then 0 else m
    return ⟨dst, payload.lor (m * 2 ^ 8), 0⟩

end

/-- `off_b | (cnt << 16)` -/
def symbolPayload (s : Symbol) : Except PyErr ℤ :=
  match s.cnt with
  | .num n => .ok (s.off.lor (n * 2 ^ 16))
  | .ids _ => .error .shiftOfList

/-- The payload for the name of a symbol: 0 if the file does not define it. -/
def namedPayload (env : Env) (sym : Text) : Except PyErr ℤ :=
  match env.symbols.lookup sym with
  | some s => symbolPayload s
  | none => .ok 0

def evalInlineLoad (env : Env) (op : Op) (toks : List Text) : Except PyErr Operands := do
  let dst ← py.tokVal env.constants toks (some 1) 0
  match toks[2]? with
  | none => return ⟨dst, 0, 0⟩
  | some t =>
    let sym := t.strip
    let payload ← namedPayload env sym
    let ints := op = .loadInlineIntArray ∨ (op = .loadInlineArray ∧ sym ∈ env.intSymbols)
    return ⟨dst, payload, if ints then 1 else 0⟩

def operands (env : Env) (op : Op) (toks : List Text) : Except PyErr Operands :=
  match branch op toks with
  | .form f => py.evalForm env.constants toks f
  | .inlineLoad => py.evalInlineLoad env op toks
  | .float tok => py.evalFloat env.constants toks tok
  | .mockAttr => py.evalMockAttr env.constants toks

end Runtime

/-- The mnemonics that may take two words. -/
def extendable : Op → Bool
  | .csrWalk | .csrWalkFiltered | .csrDegree | .csrWalk2hop | .csrWalkState | .csrWalkReduceSum
  | .csrWalkPredicate | .cscWalk | .gatherNodeAttr => true
  | _ => false

/-- The words appended for a line: two when a relation or attribute id is above 255. -/
def emit (op : Op) (o : Operands) : List Instruction :=
  if 255 < o.payload >>> (16 : ℕ) ∧ extendable op then
    [.ofInts op.code (o.flags.lor 0x80) o.dst (mask 16 o.payload),
      .ofInts 0xFF 0 (mask 16 (o.payload >>> (16 : ℕ))) 0]
  else [.ofInts op.code o.flags o.dst (mask 32 o.payload)]

namespace Runtime

variable (py : Runtime)

def encode (env : Env) (op : Op) (toks : List Text) : Except PyErr (List Instruction) :=
  emit op <$> py.operands env op toks

end Runtime

end ImpulseTools

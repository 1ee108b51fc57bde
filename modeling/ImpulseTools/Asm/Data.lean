import ImpulseTools.Asm.Instruction

/-! # Data directives

The directives of an `.impas` file are found by regular expressions over the whole
text. Three passes append the graphs, the float arrays and the integer arrays to one
buffer and record where each starts; two more bind relation names to ids.
-/

namespace ImpulseTools

/-- The second component of a symbol: a count, or the components of a virtual relation. -/
inductive Count where
  | num (n : ℤ)
  | ids (l : List ℤ)
  deriving DecidableEq

structure Symbol where
  off : ℤ
  cnt : Count
  deriving DecidableEq

abbrev Symbols := AList fun _ : Text => Symbol

/-- `data_bytes`, `symbols` and `int_symbols` while the data directives are read. -/
structure DataSection where
  bytes : List Byte := []
  symbols : Symbols := ∅
  intSymbols : Finset Text := ∅

namespace Runtime

variable (py : Runtime)

/-- `<kw>\s+(\w+)\s*=\s*<left>([^<right>]*)<right>`: the name and the body. -/
def blockAt (left right : Char) (kw : Text) : Scan.Matcher Char (Text × Text) := fun t => do
  let t ← Scan.lit kw t
  let (_, t) ← Scan.run isSpace t
  let (name, t) ← Scan.run py.isWord t
  let t ← Scan.lit ['='] (t.dropWhile isSpace)
  let t ← Scan.lit [left] (t.dropWhile isSpace)
  let body := t.takeWhile (· ≠ right)
  let t ← Scan.lit [right] (t.dropWhile (· ≠ right))
  return ((name, body), t)

/-- The same, with a body of at least one character. -/
def fullBlockAt (left right : Char) (kw : Text) : Scan.Matcher Char (Text × Text) := fun t => do
  let ((name, body), t) ← py.blockAt left right kw t
  if body = [] then none else return ((name, body), t)

def csrInlineAt : Scan.Matcher Char (Text × Text) :=
  py.fullBlockAt '{' '}' (chars ".csr_inline")

def arrayFloatAt : Scan.Matcher Char (Text × Text) :=
  py.blockAt '[' ']' (chars ".array_float")

def intKeywords : List Text :=
  [chars ".array_int", chars ".array_uint32", chars ".array_node", chars ".set",
    chars ".set_dense", chars ".set_roaring", chars ".set_bitset"]

def arrayIntAt : Scan.Matcher Char (Text × Text) := fun t =>
  intKeywords.findSome? fun kw => py.blockAt '[' ']' kw t

/-- `\s*,\s*multiplicity\s*=\s*(\w+)` -/
def multiplicityAt (t : Text) : Option Text := do
  let t ← Scan.lit [','] (t.dropWhile isSpace)
  let t ← Scan.lit (chars "multiplicity") (t.dropWhile isSpace)
  let t ← Scan.lit ['='] (t.dropWhile isSpace)
  let (_, t) ← Scan.run py.isWord (t.dropWhile isSpace)
  return t

/-- `\.rel\s+(\w+)\s*=\s*(\d+)` and the multiplicity, if there is one. -/
def relAt : Scan.Matcher Char (Text × Text) := fun t => do
  let t ← Scan.lit (chars ".rel") t
  let (_, t) ← Scan.run isSpace t
  let (name, t) ← Scan.run py.isWord t
  let t ← Scan.lit ['='] (t.dropWhile isSpace)
  let (digits, t) ← Scan.run (fun c => (py.decimal c).isSome) (t.dropWhile isSpace)
  return ((name, digits), (py.multiplicityAt t).getD t)

def vrelAt : Scan.Matcher Char (Text × Text) := py.fullBlockAt '[' ']' (chars ".vrel")

/-- `[x.strip() for x in s.split(",") if x.strip()]` -/
def listItems (s : Text) : List Text := (s.splitComma.map Text.strip).filter (· ≠ [])

/-- `[int(x.strip()) for x in s.split(",") if x.strip()]` -/
def intList (s : Text) : Except PyErr (List ℤ) := (listItems s).mapM py.int

def packAll (vs : List ℤ) : Except PyErr (List Byte) := List.flatten <$> vs.mapM packU32

structure CsrRows where
  offsets : List ℤ := [0]
  targets : List ℤ := []
  nodeCount : ℕ := 0

def rowTargets (tgt : Text) : Except PyErr (List ℤ) :=
  py.intList (Text.strip ((Text.strip tgt).filter fun c => c ≠ '[' && c ≠ ']'))

/-- One line of the body: the source id before the colon is not used. -/
def csrLine (acc : CsrRows) (line : Text) : Except PyErr CsrRows :=
  let line := line.strip
  match Scan.cut ':' line with
  | (_, none) => .ok acc
  | (_, some tgt) => do
    let tgts ← py.rowTargets tgt
    let targets := acc.targets ++ tgts
    return ⟨acc.offsets ++ [(targets.length : ℤ)], targets, acc.nodeCount + 1⟩

def csrRows (body : Text) : Except PyErr CsrRows := body.splitlines.foldlM py.csrLine {}

def csrInline (d : DataSection) (m : Text × Text) : Except PyErr DataSection := do
  let rows ← py.csrRows m.2
  let offs ← packAll rows.offsets
  let tgts ← packAll rows.targets
  return { d with
    bytes := d.bytes ++ offs ++ tgts
    symbols := d.symbols.insert m.1 ⟨d.bytes.length, .num rows.nodeCount⟩ }

/-- `while len(data_bytes) % 4 != 0: data_bytes.append(0)` -/
def pad4 (bytes : List Byte) : List Byte :=
  bytes ++ List.replicate ((4 - bytes.length % 4) % 4) 0

/-- An element of a float array: the special values in any case, or `float(xs)`. -/
def floatLiteral (xs : Text) : Except PyErr (BitVec 64) :=
  let low := py.lowerText xs
  let text :=
    if low = chars "nan" then chars "nan"
    else if low ∈ [chars "inf", chars "+inf", chars "infinity", chars "+infinity"] then
      chars "inf"
    else if low ∈ [chars "-inf", chars "-infinity"] then chars "-inf"
    else xs
  match py.float text with
  | some f => .ok f
  | none => .error (.invalidFloat text)

/-- `struct.unpack("<I", struct.pack("<f", f))[0]` -/
def floatBits (f : BitVec 64) : Except PyErr (BitVec 32) :=
  match py.packFloat f with
  | some b => .ok b
  | none => .error .floatTooLarge

def arrayFloat (d : DataSection) (m : Text × Text) : Except PyErr DataSection := do
  let floats ← (listItems m.2).mapM py.floatLiteral
  let bits ← floats.mapM py.floatBits
  let bytes := pad4 d.bytes
  return { d with
    bytes := bytes ++ bits.flatMap fun b => le32 b.toNat
    symbols := d.symbols.insert m.1 ⟨bytes.length, .num floats.length⟩ }

def arrayInt (d : DataSection) (m : Text × Text) : Except PyErr DataSection := do
  let ints ← py.intList m.2
  let packed ← packAll ints
  let bytes := pad4 d.bytes
  return {
    bytes := bytes ++ packed
    symbols := d.symbols.insert m.1 ⟨bytes.length, .num ints.length⟩
    intSymbols := insert m.1 d.intSymbols }

def dataSection (text : Text) : Except PyErr DataSection := do
  let d ← (Scan.findIter py.csrInlineAt text).foldlM py.csrInline {}
  let d ← (Scan.findIter py.arrayFloatAt text).foldlM py.arrayFloat d
  (Scan.findIter py.arrayIntAt text).foldlM py.arrayInt d

/-- The `.rel` pass. `CONSTANTS` keeps what was bound when an error ends the pass. -/
def bindRels : List (Text × Text) → Symbols → Constants → Except PyErr Symbols × Constants
  | [], syms, K => (.ok syms, K)
  | (name, digits) :: ms, syms, K =>
    match py.int digits with
    | .error e => (.error e, K)
    | .ok id => bindRels ms (syms.insert name ⟨id, .num 0⟩) (K.insert name id)

def compIds (K : Constants) (comps : Text) : Except PyErr (List ℤ) :=
  (listItems comps).mapM (py.parseVal K)

/-- The `.vrel` pass. The id counts every symbol of the file, graphs and arrays included. -/
def bindVrels : List (Text × Text) → Symbols → Constants → Except PyErr Symbols × Constants
  | [], syms, K => (.ok syms, K)
  | (name, comps) :: ms, syms, K =>
    match py.compIds K comps with
    | .error e => (.error e, K)
    | .ok ids =>
      let id : ℤ := 10 + syms.keys.length
      bindVrels ms (syms.insert name ⟨id, .ids ids⟩) (K.insert name id)

end Runtime

end ImpulseTools

import ImpulseTools.Asm.Instruction

/-! # Expectations

The `; {EXPECT: key = value}` annotations of a file and the record they are read into.
-/

namespace ImpulseTools

/-- The dictionary `expectations`; a field that is `none` is a missing key or `None`. -/
structure Expectations where
  status : Text := chars "IMPULSE_VM_OK"
  registers : AList fun _ : ℤ => ℤ := ∅
  throwCode : Option ℤ := none
  flagZf : Option Bool := none
  flagSt : Option Bool := none
  pc : Option ℤ := none
  callStackDepth : Option ℤ := none
  scratchBytes : Option ℤ := none
  maxDop : Option ℤ := none
  fuel : Option ℤ := none
  deriving DecidableEq

/-- `;\s*\{EXPECT:\s*([^}]+)\}`. The blanks `\s*` takes from the body are stripped anyway. -/
def expectAt : Scan.Matcher Char Text := fun t => do
  let t ← Scan.lit [';'] t
  let t ← Scan.lit (chars "\x7bEXPECT:") (t.dropWhile isSpace)
  let body := t.takeWhile (· ≠ '}')
  let t ← Scan.lit ['}'] (t.dropWhile (· ≠ '}'))
  if body = [] then none else return (body, t)

def keyValue (body : Text) : Option (Text × Text) :=
  match Scan.cut '=' (Text.strip body) with
  | (_, none) => none
  | (key, some val) => some (Text.strip key, Text.strip val)

def statusOf (val : Text) : Text :=
  if val ∈ [chars "IMPULSE_VM_SUCCESS", chars "SUCCESS", chars "0"] then chars "IMPULSE_VM_OK"
  else val

namespace Runtime

variable (py : Runtime)

/-- The dispatch on the key of an annotation. Any other key is passed over. -/
def record (e : Expectations) (key val : Text) : Except PyErr Expectations :=
  if key = chars "STATUS" then .ok { e with status := statusOf val }
  else if key.startsWith (chars "R") then do
    let reg ← py.int (key.drop 1)
    let v ← py.int val
    return { e with registers := e.registers.insert reg v }
  else if key = chars "THROW_CODE" then do return { e with throwCode := some (← py.int val) }
  else if key = chars "PC" then do return { e with pc := some (← py.int val) }
  else if key = chars "CALL_STACK_DEPTH" then do
    return { e with callStackDepth := some (← py.int val) }
  else if key = chars "SCRATCH_BYTES" then do
    return { e with scratchBytes := some (← py.int val) }
  else if key = chars "MAX_DOP" then do return { e with maxDop := some (← py.int val) }
  else if key = chars "FLAG" then
    if val = chars "ZF" then .ok { e with flagZf := some true }
    else if val = chars "!ZF" then .ok { e with flagZf := some false }
    else if val = chars "ST" then .ok { e with flagSt := some true }
    else if val = chars "!ST" then .ok { e with flagSt := some false }
    else .ok e
  else .ok e

/-- `re.search` on one line: only its first annotation is read. -/
def expectLine (e : Expectations) (line : Text) : Except PyErr Expectations :=
  match (Scan.findIter expectAt line).head?.bind keyValue with
  | some (key, val) => py.record e key val
  | none => .ok e

end Runtime

end ImpulseTools

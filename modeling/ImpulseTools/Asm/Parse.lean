import ImpulseTools.Asm.Encode
import ImpulseTools.Asm.Expect

/-! # Assembling a file

`parse_impas_file`: the directive passes over the whole text, then the loop over the lines.
`CONSTANTS` is the state of the process, and survives an error.
-/

namespace ImpulseTools

structure Program where
  instructions : List Instruction := []
  data : List Byte := []
  expectations : Expectations := {}
  opcodesUsed : Finset Op := ∅
  deriving DecidableEq

/-- A line without its comment and its address: the text the tokens are split from. -/
def codePart (line : Text) : Text :=
  match Scan.cut ':' (Text.strip (line.takeWhile (· ≠ ';'))) with
  | (code, none) => Text.strip code
  | (_, some code) => Text.strip code

namespace Runtime

variable (py : Runtime)

/-- The mnemonic in upper case and the tokens of a stripped line, if it is an instruction line. -/
def instructionLine (line : Text) : Option (Text × List Text) :=
  if line = [] ∨ line.startsWith [';'] ∨ line.startsWith ['.'] then none
  else if Text.strip (line.takeWhile (· ≠ ';')) = [] then none
  else
    let toks := Scan.splitRuns (fun c => isSpace c || c == ',') (codePart line)
    let name := py.upperText (toks.headD [])
    if name.startsWith (chars "OP_") then some (name, toks) else none

def fuelLine (K : Constants) (e : Expectations) (line : Text) : Except PyErr Expectations :=
  match line.words[1]? with
  | some t => do return { e with fuel := some (← py.parseVal K t) }
  | none => .ok e

def parseLine (env : Env) (p : Program) (line : Text) : Except PyErr Program := do
  let line := line.strip
  let e ← py.expectLine p.expectations line
  let p := { p with expectations := e }
  if line.startsWith (chars ".fuel") then
    return { p with expectations := ← py.fuelLine env.constants e line }
  else
    match py.instructionLine line with
    | none => return p
    | some (name, toks) =>
      match Op.ofName? name with
      | none => .error (.unknownOpcode name line)
      | some op =>
        let words ← py.encode env op toks
        return { p with
          instructions := p.instructions ++ words
          opcodesUsed := insert op.canonical p.opcodesUsed }

/-- `parse_impas_file` on the text of a file: its result, and `CONSTANTS` after it. -/
def parseImpasFile (K : Constants) (text : Text) : Except PyErr Program × Constants :=
  let text := text.universalNewlines
  match py.dataSection text with
  | .error e => (.error e, K)
  | .ok d =>
    match py.bindRels (Scan.findIter py.relAt text) d.symbols K with
    | (.error e, K) => (.error e, K)
    | (.ok syms, K) =>
      match py.bindVrels (Scan.findIter py.vrelAt text) syms K with
      | (.error e, K) => (.error e, K)
      | (.ok syms, K) =>
        let env : Env := ⟨K, syms, d.intSymbols⟩
        (text.readlines.foldlM (py.parseLine env) { data := d.bytes }, K)

end Runtime

end ImpulseTools

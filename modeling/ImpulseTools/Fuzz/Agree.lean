import ImpulseTools.Fuzz.Types

/-! # Words and lines

The word at each address of a generated program is that of the line printed with it.
-/

open ImpulseTools.Runtime

namespace ImpulseTools

/-- The lines after `.text`, without the blanks around them. -/
def textLines (text : Text) : List Text :=
  ((text.universalNewlines.readlines.map Text.strip).dropWhile (· ≠ chars ".text")).tail

variable {table : List Contract} {seed : ℤ} {draws : List Draw}

def haltLine (table : List Contract) (draws : List Draw) : Text :=
  formatLine (hexPc (fuzzRun table draws).pc) .halt 0 []

theorem strip_ne_text : ∀ line ∈ (preamble seed).take 14, line.strip ≠ chars ".text" := by
  have hrest : ∀ line ∈ ((preamble 0).take 14).tail, line.strip ≠ chars ".text" := by
    decide +kernel
  intro line hl
  rcases List.mem_cons.mp hl with rfl | hl
  · rw [strip_header]
    intro h
    cases h
  · exact hrest line hl

theorem textLines_generateProgram : textLines (generateProgram table seed draws) =
    (straightLines table draws ++ [haltLine table draws]).map Text.strip := by
  have hlines : programLines table seed draws = (preamble seed).take 14 ++
      chars ".text" :: (straightLines table draws ++ [haltLine table draws]) := by
    rw [programLines, straightLines, haltLine, List.append_assoc, List.append_assoc]
    rfl
  have hstrip : (fun line => Text.strip (line ++ ['\n'])) = Text.strip := by
    funext line
    exact Scan.trim_concat (by decide)
  have hhead : ∀ t ∈ ((preamble seed).take 14).map Text.strip, decide (t ≠ chars ".text") := by
    intro t ht
    obtain ⟨line, hl, rfl⟩ := List.mem_map.mp ht
    exact decide_eq_true (strip_ne_text line hl)
  rw [textLines, universalNewlines_generateProgram, readlines_generateProgram, List.map_map,
    Function.comp_def, hstrip, hlines, List.map_append, List.dropWhile_append_of_pos hhead]
  rfl

theorem length_generate_le (draws : List Draw) (s : FuzzState) :
    (generate table draws s).emitted.length ≤ s.emitted.length + draws.length := by
  induction draws generalizing s with
  | nil => exact le_rfl
  | cons d draws ih =>
    rw [generate, List.length_cons]
    split
    · rename_i s' hs
      rcases turn_cases hs with rfl | ⟨e, op, args, -, rfl⟩
      · exact (ih s').trans (by omega)
      · refine (ih _).trans ?_
        rw [List.length_append, List.length_singleton]
        omega
    · omega

theorem pc_fuzzRun : (fuzzRun table draws).pc = (straightLines table draws).length := by
  rw [straightLines, List.length_append, List.length_map]
  have htrace : Trace table preambleTypes [] preambleTypes := .nil
  exact (trace_generate htrace rfl).2

theorem length_straightLines_le : (straightLines table draws).length ≤ draws.length + 7 := by
  have h : (fuzzRun table draws).emitted.length ≤ draws.length :=
    (length_generate_le draws _).trans (Nat.zero_add _).le
  have hpre : ((preamble 0).drop 15).length = 7 := rfl
  rw [straightLines, List.length_append, List.length_map, hpre]
  omega

theorem Op.transfersControl_of_code_eq {op op' : Op} (h : op.code = op'.code) :
    op.transfersControl = op'.transfersControl := by
  have hc : ∀ o ∈ opcodes ++ opcodeAliases, o.canonical.transfersControl = o.transfersControl := by
    decide +kernel
  rw [← hc op (mem_names op), ← hc op' (mem_names op'), canonical_eq_of_code_eq h]

theorem Op.eq_halt_of_code_eq {op : Op} (h : op.code = Op.halt.code) : op = .halt := by
  have hc : ∀ o ∈ opcodes ++ opcodeAliases, o.code = Op.halt.code → o = .halt := by
    decide +kernel
  exact hc op (mem_names op) h

/-- Every generated program is accepted and has one word for each line of its code: the word at
each address is that of the line printed with it, stands alone, and goes nowhere else; the last
one, and no other, is `OP_HALT`. -/
theorem Runtime.generateProgram_agrees {py : Runtime} (hpy : py.ReadsCents)
    (table : List Contract) (seed : ℤ) (draws : List Draw) :
    ∃ d p, py.dataSection (generateProgram table seed draws) = .ok d ∧
      py.parseImpasFile constants (generateProgram table seed draws) = (.ok p, constants) ∧
      p.instructions.length = (textLines (generateProgram table seed draws)).length ∧
      p.instructions.length ≤ draws.length + 8 ∧
      ∀ i line, (textLines (generateProgram table seed draws))[i]? = some line →
        ∃ op args w, p.instructions[i]? = some w ∧
          py.instructionLine line = some (op.name, op.name :: args) ∧
          Written py ⟨constants, d.symbols, d.intSymbols⟩ i line op args w ∧
          (∀ o : Op, o.transfersControl → w.opcode ≠ o.code) ∧
          (w.opcode = Op.halt.code ↔ i + 1 = p.instructions.length) := by
  obtain ⟨d, p, pre, words, hd, hp, hi, -, hstraight, -⟩ := parse_programLines hpy table seed draws
  rw [← List.append_assoc] at hi
  have hlen : (straightLines table draws).length = (pre ++ words).length := by
    rw [← hstraight.length_eq, List.length_zipIdx]
  have hcount : p.instructions.length = (straightLines table draws).length + 1 := by
    rw [hi, List.length_append, ← hlen, List.length_singleton]
  refine ⟨d, p, hd, hp, ?_, ?_, ?_⟩
  · rw [textLines_generateProgram, hcount, List.length_map, List.length_append,
      List.length_singleton]
  · rw [hcount]
    exact Nat.add_le_add_right length_straightLines_le 1
  intro i line hline
  rw [textLines_generateProgram, List.getElem?_map] at hline
  obtain ⟨l, hl, rfl⟩ := Option.map_eq_some_iff.mp hline
  rcases Concat.getElem?_concat_eq_some.mp hl with hl | ⟨rfl, rfl⟩
  · have hlt := (List.getElem?_eq_some_iff.mp hl).1
    have hz : (straightLines table draws).zipIdx[i]? = some (l, i) := by
      rw [List.getElem?_zipIdx, hl, Option.map_some, Nat.zero_add]
    obtain ⟨w, hw, op, args, hwr, hne, hflow⟩ := ExceptFold.exists_getElem? hstraight hz
    rw [hwr.strip_eq]
    refine ⟨op, args, w, ?_, hwr.instructionLine_eq, hwr, ?_, ?_⟩
    · rw [hi, List.getElem?_append_left (hlen ▸ hlt), hw]
    · intro o ho he
      rw [hwr.plain.opcode] at he
      rw [← Op.transfersControl_of_code_eq he, hflow] at ho
      cases ho
    · apply iff_of_false
      · intro he
        exact hne (Op.eq_halt_of_code_eq (hwr.plain.opcode ▸ he))
      · rw [hcount]
        omega
  · have hwr : Written py ⟨constants, d.symbols, d.intSymbols⟩ (straightLines table draws).length
        (haltLine table draws) .halt [] (.ofInts Op.halt.code 0 0 0) := by
      rw [haltLine, pc_fuzzRun]
      exact written_halt rfl _
    rw [hwr.strip_eq]
    refine ⟨.halt, [], _, ?_, hwr.instructionLine_eq, hwr, ?_, ?_⟩
    · rw [hi, hlen, List.getElem?_concat_length]
    · intro o ho (he : Op.halt.code = o.code)
      rw [← Op.transfersControl_of_code_eq he] at ho
      cases ho
    · exact iff_of_true rfl hcount.symm

theorem generateProgram_agrees_walk :
    ∃ d p, Runtime.decimals.dataSection (generateProgram contracts 168 draws168) = .ok d ∧
      Runtime.decimals.parseImpasFile constants (generateProgram contracts 168 draws168) =
        (.ok p, constants) ∧
      p.instructions.length = 9 ∧
      ∃ w, p.instructions[7]? = some w ∧
        Written Runtime.decimals ⟨constants, d.symbols, d.intSymbols⟩ 7
          (chars "0x07: OP_ADAPTIVE_WALK         R26, R3, 0") .adaptiveWalk
          [regText 26, regText 3, chars "0"] w := by
  obtain ⟨d, p, hd, hp, hlen, -, hlines⟩ :=
    Runtime.generateProgram_agrees readsCents_decimals contracts 168 draws168
  obtain ⟨e, he, hline, -⟩ := emitted_draws168
  have hcode : straightLines contracts draws168 =
      (preamble 0).drop 15 ++ [chars "0x07: OP_ADAPTIVE_WALK         R26, R3, 0"] := by
    rw [straightLines, he, List.map_singleton, hline]
  have hget : (textLines (generateProgram contracts 168 draws168))[7]? =
      some (chars "0x07: OP_ADAPTIVE_WALK         R26, R3, 0") := by
    rw [textLines_generateProgram, hcode]
    decide +kernel
  obtain ⟨op, args, w, hw, hread, hwritten, -⟩ := hlines 7 _ hget
  have hread' : Runtime.decimals.instructionLine (chars "0x07: OP_ADAPTIVE_WALK         R26, R3, 0")
      = some (Op.adaptiveWalk.name,
        Op.adaptiveWalk.name :: [regText 26, regText 3, chars "0"]) := by
    decide +kernel
  rw [hread, Option.some.injEq, Prod.mk.injEq] at hread'
  obtain ⟨hname, htoks⟩ := hread'
  obtain rfl := Op.name_injective hname
  obtain rfl := (List.cons.inj htoks).2
  refine ⟨d, p, hd, hp, ?_, w, hw, hwritten⟩
  rw [hlen, textLines_generateProgram, hcode]
  rfl

end ImpulseTools

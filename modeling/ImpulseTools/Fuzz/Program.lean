import ImpulseTools.Asm.Directive
import ImpulseTools.Fuzz.Accept

/-! # Assembling a generated program

The directive passes find the graph and the two arrays of the preamble and nothing else, and
the loop over the lines takes what is left.
-/

namespace ImpulseTools

variable {table : List Contract} {seed : ℤ} {draws : List Draw}

theorem generateProgram_eq :
    generateProgram table seed draws = unlines (programLines table seed draws) := rfl

/-- A dot and no digit after it: what every directive starts with and no operand has. -/
def isDotWord : Text → Bool
  | '.' :: c :: _ => !c.isDigit
  | _ => false

theorem exists_of_isDotWord {q : Text} (hq : isDotWord q) :
    ∃ c t, q = '.' :: c :: t ∧ c.isDigit = false := by
  unfold isDotWord at hq
  split at hq
  · rename_i c t
    exact ⟨c, t, rfl, by simpa using hq⟩
  · cases hq

theorem avoids_of_no_dot {q s : Text} (hq : isDotWord q) (h : '.' ∉ s) : Scan.Avoids q s := by
  obtain ⟨c, t, rfl, -⟩ := exists_of_isDotWord hq
  exact Scan.avoids_of_not_mem h

theorem not_mem_of_forall_isDigit {s : Text} (hs : ∀ c ∈ s, c.isDigit) : '.' ∉ s := by
  intro h
  exact absurd (hs '.' h) (by decide)

theorem avoids_centText {q : Text} (hq : isDotWord q) (k : ℕ) :
    Scan.Avoids q (centText k) := by
  have hd (m : ℕ) : (Nat.digitChar (m % 10)).isDigit := by
    simpa using Nat.mod_lt m (by decide)
  have hdot {c : Char} {s : Text} (hs : ∀ d ∈ c :: s, d.isDigit) :
      Scan.Avoids q ('.' :: c :: s) := by
    obtain ⟨b, t, rfl, hb⟩ := exists_of_isDotWord hq
    have hcb : b ≠ c := by
      rintro rfl
      rw [hs _ List.mem_cons_self] at hb
      exact Bool.false_ne_true hb.symm
    refine ⟨⟨fun h => hcb ?_, fun h => hcb ?_⟩,
      Scan.avoids_of_not_mem (not_mem_of_forall_isDigit hs)⟩
    · exact (List.cons_prefix_cons.mp (List.cons_prefix_cons.mp h).2).1
    · exact (List.cons_prefix_cons.mp (List.cons_prefix_cons.mp h).2).1.symm
  refine .append (avoids_of_no_dot hq (not_mem_of_forall_isDigit fun c hc => ?_)) ?_
  · exact isDigit_of_mem_decimalText hc
  · split
    · exact hdot (by simp [hd])
    · exact hdot (by simp [hd])

theorem avoids_formatLine {q : Text} (hq : isDotWord q) {pc blanks : ℕ} {op : Op}
    {args : List Text} (hargs : ∀ a ∈ args, Scan.Avoids q a) :
    Scan.Avoids q (formatLine (hexPc pc) op blanks args) := by
  have hname : ∀ o ∈ Op.opcodes ++ Op.opcodeAliases, '.' ∉ o.name := by decide +kernel
  refine .append (.append ?_ ?_) (.append ?_ (.append ?_ (.intercalate ?_ hargs)))
  · exact avoids_of_no_dot hq fun h => absurd (mem_hexPc h) (by decide)
  · exact avoids_of_no_dot hq (by decide)
  · exact avoids_of_no_dot hq (hname op (Op.mem_names op))
  · exact avoids_of_no_dot hq fun h => absurd (List.eq_of_mem_replicate h) (by decide)
  · exact avoids_of_no_dot hq (by decide)

structure CodeLine (line : Text) : Prop where
  avoids : ∀ q, isDotWord q → Scan.Avoids q line
  not_mem : ∀ c ∈ ['\n', '\r'], c ∉ line

theorem codeLine_formatLine {pc blanks : ℕ} {op : Op} {args : List Text} (h : ArgsOk blanks args)
    (hargs : ∀ q, isDotWord q → ∀ a ∈ args, Scan.Avoids q a) :
    CodeLine (formatLine (hexPc pc) op blanks args) where
  avoids q hq := avoids_formatLine hq (hargs q hq)
  not_mem c hc := by
    have hbreak : ∀ c ∈ ['\n', '\r'], ¬ isTokenChar c ∧ c ∉ chars ": ," := by decide
    exact not_mem_formatLine (fun c hc => isTokenChar_hexPc hc) h (hbreak c hc).1 (hbreak c hc).2

theorem Emits.codeLine {pc : ℕ} {s : RegState} {e : Emission} {op : Op} {args : List Text}
    (h : Emits table pc s e op args) : CodeLine e.line := by
  obtain ⟨aux1, n, -, hargs⟩ := h.operands
  rw [h.line_eq]
  refine codeLine_formatLine (argsOk_formatOperands hargs (Nat.succ_ne_zero _)) ?_
  intro q hq a ha
  rcases mem_formatOperands hargs ha with ⟨r, -, rfl⟩ | ⟨k, rfl⟩ | ⟨k, rfl⟩
  · apply avoids_of_no_dot hq
    simp only [regText, List.mem_cons, not_or]
    exact ⟨by decide, not_mem_of_forall_isDigit fun c hc => isDigit_of_mem_decimalText hc⟩
  · exact avoids_of_no_dot hq
      (not_mem_of_forall_isDigit fun c hc => isDigit_of_mem_decimalText hc)
  · exact avoids_centText hq k

def codeLines (table : List Contract) (draws : List Draw) : List Text :=
  (fuzzRun table draws).emitted.map Emission.line ++
    [formatLine (hexPc (fuzzRun table draws).pc) .halt 0 []]

theorem codeLine_of_mem {line : Text} (h : line ∈ codeLines table draws) : CodeLine line := by
  rcases List.mem_append.mp h with h | h
  · obtain ⟨e, he, rfl⟩ := List.mem_map.mp h
    obtain ⟨pc, s, op, args, hem⟩ := (trace_fuzzRun table draws).exists_emits e he
    exact hem.codeLine
  · rw [List.mem_singleton.mp h]
    apply codeLine_formatLine ⟨fun _ => rfl, fun h => absurd rfl h, nofun⟩
    intro q _ a ha
    cases ha

theorem programLines_eq :
    programLines table seed draws = preamble seed ++ codeLines table draws := by
  rw [programLines, codeLines, List.append_assoc]

theorem not_mem_preamble : ∀ line ∈ preamble seed, ∀ c ∈ ['\n', '\r'], c ∉ line := by
  have hrest : ∀ line ∈ (preamble 0).tail, ∀ c ∈ ['\n', '\r'], c ∉ line := by decide +kernel
  intro line hl c hc hmem
  rcases List.mem_cons.mp hl with rfl | hl
  · rcases List.mem_append.mp hmem with hmem | hmem
    · rcases List.mem_append.mp hmem with hmem | hmem
      · have : ∀ c ∈ ['\n', '\r'], c ∉ chars "; CONTRACT-GUIDED FUZZ TEST (Seed: " := by decide
        exact this c hc hmem
      · have : ∀ c ∈ ['\n', '\r'], c ≠ '-' ∧ c.isDigit = false := by decide
        rcases mem_intText hmem with hm | hm
        · exact (this c hc).1 hm
        · rw [(this c hc).2] at hm
          exact Bool.false_ne_true hm
    · have : ∀ c ∈ ['\n', '\r'], c ∉ chars ")" := by decide
      exact this c hc hmem
  · exact hrest line hl c hc hmem

theorem not_mem_programLines : ∀ line ∈ programLines table seed draws, ∀ c ∈ ['\n', '\r'],
    c ∉ line := by
  intro line hl
  rw [programLines_eq] at hl
  rcases List.mem_append.mp hl with hl | hl
  · exact not_mem_preamble line hl
  · exact (codeLine_of_mem hl).not_mem

theorem universalNewlines_generateProgram :
    (generateProgram table seed draws).universalNewlines = generateProgram table seed draws :=
  universalNewlines_unlines fun line hl => not_mem_programLines line hl '\r' (by decide)

theorem readlines_generateProgram :
    (generateProgram table seed draws).readlines =
      (programLines table seed draws).map fun line => line ++ ['\n'] :=
  readlines_unlines fun line hl => not_mem_programLines line hl '\n' (by decide)

/-- The lines of the preamble that do not depend on the seed: all but the first. -/
def fixedLines : List Text := (preamble 0).tail

theorem exists_generateProgram_eq (table : List Contract) (seed : ℤ) (draws : List Draw) :
    ∃ first, '.' ∉ first ∧ generateProgram table seed draws =
      first ++ (unlines fixedLines ++ unlines (codeLines table draws)) := by
  refine ⟨chars "; CONTRACT-GUIDED FUZZ TEST (Seed: " ++ intText seed ++ chars ")" ++ ['\n'],
    ?_, ?_⟩
  · have hsign {c : Char} (hc : c ∈ intText seed) : c ≠ '.' := by
      rintro rfl
      rcases mem_intText hc with hc | hc
      · exact absurd hc (by decide)
      · exact absurd hc (by decide)
    simp only [List.mem_append, not_or]
    exact ⟨⟨⟨by decide, fun h => hsign h rfl⟩, by decide⟩, by decide⟩
  · rw [generateProgram_eq, programLines_eq, unlines_append, ← List.append_assoc]
    rfl

theorem avoids_codeLines {q : Text} (hq : isDotWord q) :
    Scan.Avoids q (unlines (codeLines table draws)) := by
  apply Scan.Avoids.flatMap
  intro line hl
  exact ((codeLine_of_mem hl).avoids q hq).append (avoids_of_no_dot hq (by decide))

section

variable {α : Type} {m : Scan.Matcher Char α} {w : List Text}

theorem findIter_generateProgram (hm : ∀ t, (m t).isSome → ∃ q ∈ w, q <+: t)
    (hw : ∀ q ∈ w, isDotWord q) {i j : ℕ} {b : Text} {r : α}
    (hlines : unlines fixedLines =
      unlines (fixedLines.take i) ++ (b ++ '\n' :: unlines (fixedLines.drop j)))
    (hi : ∀ q ∈ w, Scan.Avoids q (unlines (fixedLines.take i)))
    (hj : ∀ q ∈ w, Scan.Avoids q ('\n' :: unlines (fixedLines.drop j)))
    (hb : b ≠ []) (h : ∀ t, m (b ++ t) = some (r, t)) :
    Scan.findIter m (generateProgram table seed draws) = [r] := by
  obtain ⟨first, hfirst, htext⟩ := exists_generateProgram_eq table seed draws
  have hbefore : ∀ q ∈ w, Scan.Avoids q (first ++ unlines (fixedLines.take i)) :=
    fun q hq => (avoids_of_no_dot (hw q hq) hfirst).append (hi q hq)
  have hafter : ∀ q ∈ w, Scan.Avoids q
      ('\n' :: unlines (fixedLines.drop j) ++ unlines (codeLines table draws)) :=
    fun q hq => (hj q hq).append (avoids_codeLines (hw q hq))
  rw [htext, hlines, List.append_assoc, List.append_assoc, ← List.append_assoc first,
    Scan.findIter_append_of_avoids hm hbefore, Scan.findIter_append_of_match hb (h _),
    Scan.findIter_eq_nil_of_avoids hm hafter]

theorem findIter_generateProgram_eq_nil (hm : ∀ t, (m t).isSome → ∃ q ∈ w, q <+: t)
    (hw : ∀ q ∈ w, isDotWord q) (hlines : ∀ q ∈ w, Scan.Avoids q (unlines fixedLines)) :
    Scan.findIter m (generateProgram table seed draws) = [] := by
  obtain ⟨first, hfirst, htext⟩ := exists_generateProgram_eq table seed draws
  rw [htext]
  apply Scan.findIter_eq_nil_of_avoids hm
  intro q hq
  apply (avoids_of_no_dot (hw q hq) hfirst).append
  exact (hlines q hq).append (avoids_codeLines (hw q hq))

end

def graphBody : Text := chars "\n    0: [1, 2],\n    1: [2, 3],\n    2: [3],\n    3: []\n"

def floatBody : Text := chars "1.5, 2.5, 3.5, 4.5"

def intBody : Text := chars "10, 20, 30, 40"

namespace Runtime

variable {py : Runtime}

theorem findIter_csrInlineAt :
    Scan.findIter py.csrInlineAt (generateProgram table seed draws) =
      [(chars "FUZZ_GRAPH", graphBody)] := by
  refine findIter_generateProgram (w := [chars ".csr_inline"]) (i := 4) (j := 10)
    (b := directiveText '\x7b' '\x7d' (chars ".csr_inline") (chars "FUZZ_GRAPH") graphBody)
    ?_ (by decide) (by decide +kernel) (by decide +kernel) (by decide +kernel) (by decide) ?_
  · exact fun t h => ⟨_, List.mem_singleton_self _, isSome_fullBlockAt h⟩
  · intro t
    rw [csrInlineAt, fullBlockAt, blockAt_directiveText t (by decide) (isWord_name (by decide))
      (by decide) (by decide)]
    rfl

theorem findIter_arrayFloatAt :
    Scan.findIter py.arrayFloatAt (generateProgram table seed draws) =
      [(chars "ATTR_FLOAT", floatBody)] := by
  refine findIter_generateProgram (w := [chars ".array_float"]) (i := 10) (j := 11)
    (b := directiveText '[' ']' (chars ".array_float") (chars "ATTR_FLOAT") floatBody)
    ?_ (by decide) (by decide +kernel) (by decide +kernel) (by decide +kernel) (by decide) ?_
  · exact fun t h => ⟨_, List.mem_singleton_self _, isSome_blockAt h⟩
  · intro t
    exact blockAt_directiveText t (by decide) (isWord_name (by decide)) (by decide) (by decide)

theorem findIter_arrayIntAt :
    Scan.findIter py.arrayIntAt (generateProgram table seed draws) =
      [(chars "ATTR_INT", intBody)] := by
  refine findIter_generateProgram (w := intKeywords) (i := 11) (j := 12)
    (b := directiveText '[' ']' (chars ".array_int") (chars "ATTR_INT") intBody)
    (fun _ => isSome_arrayIntAt) (by decide) (by decide +kernel) (by decide +kernel)
    (by decide +kernel) (by decide) ?_
  intro t
  rw [arrayIntAt, intKeywords, List.findSome?_cons, blockAt_directiveText t (by decide)
    (isWord_name (by decide)) (by decide) (by decide)]

theorem findIter_relAt :
    Scan.findIter py.relAt (generateProgram table seed draws) = [] :=
  findIter_generateProgram_eq_nil (w := [chars ".rel"])
    (fun _ h => ⟨_, List.mem_singleton_self _, isSome_relAt h⟩) (by decide) (by decide +kernel)

theorem findIter_vrelAt :
    Scan.findIter py.vrelAt (generateProgram table seed draws) = [] :=
  findIter_generateProgram_eq_nil (w := [chars ".vrel"])
    (fun _ h => ⟨_, List.mem_singleton_self _, isSome_fullBlockAt h⟩) (by decide)
    (by decide +kernel)

theorem csrRows_graphBody :
    py.csrRows graphBody = .ok ⟨[0, 2, 4, 5, 5], [1, 2, 2, 3, 3], 4⟩ := by
  have hlines : graphBody.splitlines = [chars "\n", chars "    0: [1, 2],\n",
    chars "    1: [2, 3],\n", chars "    2: [3],\n", chars "    3: []\n"] := by decide +kernel
  rw [csrRows, hlines]
  apply ExceptFold.foldlM_cons_ok (c := {}) rfl
  apply ExceptFold.foldlM_cons_ok (csrLine_row (t := chars " [1, 2],") (l := [1, 2])
    (by decide +kernel) (by decide +kernel) (by decide))
  apply ExceptFold.foldlM_cons_ok (csrLine_row (t := chars " [2, 3],") (l := [2, 3])
    (by decide +kernel) (by decide +kernel) (by decide))
  apply ExceptFold.foldlM_cons_ok (csrLine_row (t := chars " [3],") (l := [3])
    (by decide +kernel) (by decide +kernel) (by decide))
  apply ExceptFold.foldlM_cons_ok (csrLine_row (t := chars " []") (l := [])
    (by decide +kernel) (by decide +kernel) (by decide))
  rfl

theorem exists_csrInline (py : Runtime) (name : Text) :
    ∃ d, py.csrInline {} (name, graphBody) = .ok d := by
  apply ExceptFold.exists_of_isOk
  rw [csrInline, csrRows_graphBody]
  rfl

theorem exists_floats (hpy : py.ReadsCents) {ks : List ℕ} (hk : ∀ k ∈ ks, 10 ≤ k ∧ k ≤ 1000) :
    ∃ fs bs, (ks.map centText).mapM py.floatLiteral = .ok fs ∧ fs.mapM py.floatBits = .ok bs := by
  simp only [ExceptFold.mapM_eq_ok]
  induction ks with
  | nil => exact ⟨[], [], .nil, .nil⟩
  | cons k ks ih =>
    obtain ⟨⟨hlo, hhi⟩, hk⟩ := List.forall_mem_cons.mp hk
    obtain ⟨fs, bs, hfs, hbs⟩ := ih hk
    obtain ⟨f, b, hf, hb⟩ := hpy k hlo hhi
    exact ⟨f :: fs, b :: bs, .cons (py.floatLiteral_centText hf) hfs,
      .cons (floatBits_eq_ok.mpr hb) hbs⟩

theorem exists_arrayFloat (hpy : py.ReadsCents) (d : DataSection) (name : Text) :
    ∃ d', py.arrayFloat d (name, floatBody) = .ok d' := by
  have hitems : listItems floatBody = [150, 250, 350, 450].map centText := by decide +kernel
  have hk : ∀ k ∈ [150, 250, 350, 450], 10 ≤ k ∧ k ≤ 1000 := by decide
  obtain ⟨fs, bs, hfs, hbs⟩ := exists_floats hpy hk
  apply ExceptFold.exists_of_isOk
  simp only [arrayFloat, hitems, hfs, hbs, bind, Except.bind]
  rfl

theorem exists_arrayInt (py : Runtime) (d : DataSection) (name : Text) :
    ∃ d', py.arrayInt d (name, intBody) = .ok d' := by
  have hints : py.intList intBody = .ok [10, 20, 30, 40] :=
    intList_decimalText (l := [10, 20, 30, 40]) (by decide +kernel) (by decide)
  apply ExceptFold.exists_of_isOk
  rw [arrayInt, hints]
  rfl

theorem exists_dataSection (hpy : py.ReadsCents) :
    ∃ d, py.dataSection (generateProgram table seed draws) = .ok d ∧ Counted d.symbols := by
  obtain ⟨d₁, h₁⟩ := exists_csrInline py (chars "FUZZ_GRAPH")
  obtain ⟨d₂, h₂⟩ := exists_arrayFloat hpy d₁ (chars "ATTR_FLOAT")
  obtain ⟨d₃, h₃⟩ := exists_arrayInt py d₂ (chars "ATTR_INT")
  have h : py.dataSection (generateProgram table seed draws) = .ok d₃ := by
    rw [dataSection, findIter_csrInlineAt, findIter_arrayFloatAt, findIter_arrayIntAt]
    simp only [List.foldlM_cons, List.foldlM_nil, bind, Except.bind, h₁, h₂, h₃, pure,
      Except.pure]
  refine ⟨d₃, h, ?_⟩
  obtain ⟨blocks, ht⟩ := tiled_dataSection h
  intro name s hs
  obtain ⟨k, b, -, -, -, rfl⟩ := (ht.lookup_iff name s).mp hs
  exact ⟨b.content.count, rfl⟩

def IsWordOf (e : Emission) (w : Instruction) : Prop :=
  ∃ op, e.contract.op = some op ∧ WordFields op e.dst e.src w

theorem straight_emissions {env : Env} {s s' : RegState} {es : List Emission}
    (hpy : py.ReadsCents) (hK : env.constants = constants) (h : Trace table s es s') :
    ∃ words, List.Forall₂ (Straight py env) ((es.map Emission.line).zipIdx 7) words ∧
      List.Forall₂ IsWordOf es words := by
  induction h with
  | nil => exact ⟨[], .nil, .nil⟩
  | @snoc es s' e op args _ he ih =>
    obtain ⟨words, hlines, hwords⟩ := ih
    obtain ⟨w, hw, hf⟩ := written_emission hpy hK he
    obtain ⟨_, _, -, hargs⟩ := he.operands
    refine ⟨words ++ [w], ?_, List.rel_append hwords (.cons ⟨op, he.op_eq, hf⟩ .nil)⟩
    rw [List.map_append, List.zipIdx_append, List.length_map]
    exact List.rel_append hlines (.cons ⟨op, args, hw, straight_of_some hargs⟩ .nil)

def straightLines (table : List Contract) (draws : List Draw) : List Text :=
  (preamble 0).drop 15 ++ (fuzzRun table draws).emitted.map Emission.line

theorem adds_straight {env : Env} {lines : List Text} {words : List Instruction} {k : ℕ}
    (h : List.Forall₂ (Straight py env) (lines.zipIdx k) words) :
    List.Forall₂ (py.Adds env) lines (words.map fun w => [w]) := by
  rw [List.forall₂_map_right_iff, ← List.zipIdx_map_fst k lines, List.forall₂_map_left_iff]
  exact h.imp fun _ _ ⟨_, _, hw, _⟩ => hw.adds

/-- Every generated program is accepted: one word for each line of the preamble's code, one word
for each emission, and the last one. -/
theorem parse_programLines (hpy : py.ReadsCents) (table : List Contract) (seed : ℤ)
    (draws : List Draw) :
    ∃ d p pre words, py.dataSection (generateProgram table seed draws) = .ok d ∧
      py.parseImpasFile constants (generateProgram table seed draws) = (.ok p, constants) ∧
      p.instructions = pre ++ (words ++ [.ofInts Op.halt.code 0 0 0]) ∧ pre.length = 7 ∧
      List.Forall₂ (Straight py ⟨constants, d.symbols, d.intSymbols⟩)
        (straightLines table draws).zipIdx (pre ++ words) ∧
      List.Forall₂ IsWordOf (fuzzRun table draws).emitted words := by
  obtain ⟨d, hd, hsyms⟩ : ∃ d, py.dataSection (generateProgram table seed draws) = .ok d ∧
      Counted d.symbols := exists_dataSection hpy
  have hK : (Env.mk constants d.symbols d.intSymbols).constants = constants := rfl
  obtain ⟨wss, hhead, hnone⟩ : ∃ wss, List.Forall₂
      (py.Adds ⟨constants, d.symbols, d.intSymbols⟩) ((preamble seed).take 15) wss ∧
      wss.flatten = [] := adds_head hK seed
  obtain ⟨pre, hpre⟩ := ExceptFold.exists_forall₂ (straight_preamble hpy hK hsyms)
  obtain ⟨words, hemitted, hwords⟩ := straight_emissions hpy hK (trace_fuzzRun table draws)
  have hstraight : List.Forall₂ (Straight py ⟨constants, d.symbols, d.intSymbols⟩)
      (straightLines table draws).zipIdx (pre ++ words) := by
    rw [straightLines, List.zipIdx_append]
    exact List.rel_append hpre hemitted
  have hall : List.Forall₂ (py.Adds ⟨constants, d.symbols, d.intSymbols⟩)
      (programLines table seed draws)
      (wss ++ ((pre ++ words).map (fun w => [w]) ++ [[.ofInts Op.halt.code 0 0 0]])) := by
    have hlines : programLines table seed draws = (preamble seed).take 15 ++
        (straightLines table draws ++
          [formatLine (hexPc (fuzzRun table draws).pc) .halt 0 []]) := by
      rw [straightLines, List.append_assoc, ← List.append_assoc, programLines, List.append_assoc]
      rfl
    rw [hlines]
    apply List.rel_append hhead
    exact List.rel_append (adds_straight hstraight) (.cons (written_halt hK _).adds .nil)
  have hlines := List.forall₂_map_left_iff.mpr (hall.imp fun _ _ h => adds_concat h)
  obtain ⟨p, hp, hi⟩ := foldlM_adds hlines { data := d.bytes }
  refine ⟨d, p, pre, words, hd, ?_, ?_, hpre.length_eq.symm, hstraight, hwords⟩
  · simp only [parseImpasFile, universalNewlines_generateProgram, hd, findIter_relAt, bindRels,
      findIter_vrelAt, bindVrels, readlines_generateProgram, hp]
  · rw [hi]
    simp only [List.nil_append, List.flatten_append, hnone, List.flatten_singleton,
      ← List.flatMap_def, List.flatMap_singleton', List.append_assoc]

theorem parse_generateProgram (hpy : py.ReadsCents) (table : List Contract) (seed : ℤ)
    (draws : List Draw) :
    ∃ p pre words, py.parseImpasFile constants (generateProgram table seed draws) =
        (.ok p, constants) ∧
      p.instructions = pre ++ (words ++ [.ofInts Op.halt.code 0 0 0]) ∧ pre.length = 7 ∧
      List.Forall₂ IsWordOf (fuzzRun table draws).emitted words := by
  obtain ⟨_, p, pre, words, -, hp, hi, hlen, -, hwords⟩ := parse_programLines hpy table seed draws
  exact ⟨p, pre, words, hp, hi, hlen, hwords⟩

end Runtime

end ImpulseTools

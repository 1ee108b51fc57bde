import ImpulseTools.Asm.Accept
import ImpulseTools.Asm.Comment
import ImpulseTools.Verify.Suite
import Mathlib.Data.Finset.Card

/-! # The coverage of the opcodes

The loop of `main` in `run_vm_asm_suite.py` over the test files, and its exit status. The files
that use an opcode are kept by name, without their directories, and every opcode needs two.
-/

namespace ImpulseTools

/-- A test file, in a directory below `test_dir`. -/
structure TestFile where
  dir : List Text
  name : Text
  text : Text

def TestFile.path (f : TestFile) : List Text × Text := (f.dir, f.name)

structure SuiteState where
  /-- `CONSTANTS` -/
  constants : Constants
  passedCount : ℕ := 0
  failedCount : ℕ := 0
  opcodeFileCounts : Op → Finset Text := fun _ => ∅

def minFileThreshold : ℕ := 2

namespace SuiteState

variable (s : SuiteState)

def uncoveredOpcodes : List Op := Op.opcodes.filter fun op => (s.opcodeFileCounts op).card = 0

def underThresholdOpcodes : List Op :=
  Op.opcodes.filter fun op =>
    (s.opcodeFileCounts op).card ≠ 0 ∧ (s.opcodeFileCounts op).card < minFileThreshold

end SuiteState

/-- Whether a file with instructions passes: without a library it is not run. -/
def testPassed (execute : Option (TestFile → Program → Outcome)) (f : TestFile) (p : Program) :
    Bool :=
  match execute with
  | none => true
  | some execute =>
    match verify p.expectations (execute f p) with
    | .ok [] => true
    | _ => false

theorem SuiteState.no_missing_iff {s : SuiteState} :
    s.uncoveredOpcodes = [] ∧ s.underThresholdOpcodes = [] ↔
      ∀ op ∈ Op.opcodes, 1 < (s.opcodeFileCounts op).card := by
  simp only [uncoveredOpcodes, underThresholdOpcodes, List.filter_eq_nil_iff, decide_eq_true_eq,
    ← forall₂_and]
  refine forall₂_congr fun op _ => ?_
  unfold minFileThreshold
  omega

namespace Runtime

variable (py : Runtime) (passes : TestFile → Program → Bool)

/-- One turn of the loop. An exception fails the file, and `CONSTANTS` keeps what it bound. -/
def runFile (s : SuiteState) (f : TestFile) : SuiteState :=
  match py.parseImpasFile s.constants f.text with
  | (.error _, K) => { s with constants := K, failedCount := s.failedCount + 1 }
  | (.ok p, K) =>
    let s := { s with
      constants := K
      -- `test_file.name`, which is the same in every directory
      opcodeFileCounts := fun op =>
        if op ∈ p.opcodesUsed then insert f.name (s.opcodeFileCounts op)
        else s.opcodeFileCounts op }
    if p.instructions = [] then s
    else if passes f p then { s with passedCount := s.passedCount + 1 }
    else { s with failedCount := s.failedCount + 1 }

def runFiles (K : Constants) (files : List TestFile) : SuiteState :=
  files.foldl (py.runFile passes) { constants := K }

def suiteMain (K : Constants) (files : List TestFile) : ℕ :=
  if files.isEmpty then 1
  else
    let s := py.runFiles passes K files
    if 0 < s.failedCount ∨ s.uncoveredOpcodes ≠ [] ∨ s.underThresholdOpcodes ≠ [] then 1 else 0

/-- The files are assembled to the given programs, one after the other in one process. -/
inductive Assembles (py : Runtime) : Constants → List TestFile → List Program → Prop
  | nil {K : Constants} : Assembles py K [] []
  | cons {K K' : Constants} {f : TestFile} {fs : List TestFile} {p : Program} {ps : List Program}
      (hp : py.parseImpasFile K f.text = (.ok p, K')) (hs : Assembles py K' fs ps) :
      Assembles py K (f :: fs) (p :: ps)

def NoneFails (files : List TestFile) (programs : List Program) : Prop :=
  List.Forall₂ (fun f p => p.instructions ≠ [] → passes f p) files programs

/-- An instruction line of the text has the opcode, under its name or an alias. -/
def Uses (text : Text) (op : Op) : Prop :=
  ∃ l ∈ py.instructionLines text, ∃ o, Op.ofName? l.1 = some o ∧ o.canonical = op

/-- Every opcode of the table is used by two files that differ in the key. -/
def Covered {κ : Type} (key : TestFile → κ) (files : List TestFile) : Prop :=
  ∀ op ∈ Op.opcodes, ∃ f ∈ files, ∃ g ∈ files,
    key f ≠ key g ∧ py.Uses f.text op ∧ py.Uses g.text op

variable {py passes} {K K' : Constants} {files : List TestFile} {programs : List Program}

theorem Covered.path_of_name (h : py.Covered TestFile.name files) :
    py.Covered TestFile.path files := by
  intro op hop
  obtain ⟨f, hf, g, hg, hne, hu⟩ := h op hop
  exact ⟨f, hf, g, hg, fun hpath => hne (congrArg Prod.snd hpath), hu⟩

theorem Covered.name_of_path (hn : (files.map TestFile.name).Nodup)
    (h : py.Covered TestFile.path files) : py.Covered TestFile.name files := by
  intro op hop
  obtain ⟨f, hf, g, hg, hne, hu⟩ := h op hop
  refine ⟨f, hf, g, hg, fun hname => hne ?_, hu⟩
  rw [List.inj_on_of_nodup_map hn hf hg hname]

theorem mem_opcodesUsed {text : Text} {p : Program} (h : py.parseImpasFile K text = (.ok p, K'))
    {op : Op} : op ∈ p.opcodesUsed ↔ py.Uses text op := by
  obtain ⟨env, units, data, -, ha⟩ := exists_units h
  exact ha.mem_opcodesUsed op

variable (passes) in
theorem runFile_of_ok {s : SuiteState} {f : TestFile} {p : Program}
    (h : py.parseImpasFile s.constants f.text = (.ok p, K')) :
    (py.runFile passes s f).constants = K' ∧
      (∀ op n, n ∈ (py.runFile passes s f).opcodeFileCounts op ↔
        n ∈ s.opcodeFileCounts op ∨ f.name = n ∧ py.Uses f.text op) ∧
      ((py.runFile passes s f).failedCount = 0 ↔
        s.failedCount = 0 ∧ (p.instructions ≠ [] → passes f p)) := by
  have hcounts (op : Op) (n : Text) :
      (n ∈ if op ∈ p.opcodesUsed then insert f.name (s.opcodeFileCounts op)
        else s.opcodeFileCounts op) ↔
      n ∈ s.opcodeFileCounts op ∨ f.name = n ∧ py.Uses f.text op := by
    rw [← mem_opcodesUsed h]
    split_ifs with hop
    · rw [Finset.mem_insert, or_comm, eq_comm]
      simp only [hop, and_true]
    · simp only [hop, and_false, or_false]
  simp only [runFile, h]
  split_ifs with hi hpass
  · exact ⟨rfl, hcounts, by simp [hi]⟩
  · exact ⟨rfl, hcounts, by simp [hpass]⟩
  · exact ⟨rfl, hcounts, by simp [hi, hpass]⟩

theorem mem_opcodeFileCounts (h : Assembles py K files programs) {s : SuiteState}
    (hs : s.constants = K) {op : Op} {n : Text} :
    n ∈ (files.foldl (py.runFile passes) s).opcodeFileCounts op ↔
      n ∈ s.opcodeFileCounts op ∨ ∃ f ∈ files, f.name = n ∧ py.Uses f.text op := by
  induction h generalizing s with
  | nil => simp
  | cons hp _ ih =>
    obtain ⟨hconst, hcounts, -⟩ := runFile_of_ok passes (hs ▸ hp)
    rw [List.foldl_cons, ih hconst, hcounts]
    simp only [List.exists_mem_cons_iff, or_assoc]

theorem failedCount_eq_zero (h : Assembles py K files programs) {s : SuiteState}
    (hs : s.constants = K) :
    (files.foldl (py.runFile passes) s).failedCount = 0 ↔
      s.failedCount = 0 ∧ NoneFails passes files programs := by
  induction h generalizing s with
  | nil => simp [NoneFails]
  | cons hp _ ih =>
    obtain ⟨hconst, -, hfailed⟩ := runFile_of_ok passes (hs ▸ hp)
    rw [List.foldl_cons, ih hconst, hfailed, and_assoc]
    simp only [NoneFails, List.forall₂_cons]

theorem one_lt_card_opcodeFileCounts (h : Assembles py K files programs) (op : Op) :
    1 < ((py.runFiles passes K files).opcodeFileCounts op).card ↔
      ∃ f ∈ files, ∃ g ∈ files, f.name ≠ g.name ∧ py.Uses f.text op ∧ py.Uses g.text op := by
  have hmem (n : Text) : n ∈ (py.runFiles passes K files).opcodeFileCounts op ↔
      ∃ f ∈ files, f.name = n ∧ py.Uses f.text op :=
    (mem_opcodeFileCounts h rfl).trans (or_iff_right (Finset.notMem_empty n))
  simp only [Finset.one_lt_card, hmem]
  constructor
  · rintro ⟨_, ⟨f, hf, rfl, hfu⟩, _, ⟨g, hg, rfl, hgu⟩, hne⟩
    exact ⟨f, hf, g, hg, hne, hfu, hgu⟩
  · rintro ⟨f, hf, g, hg, hne, hfu, hgu⟩
    exact ⟨_, ⟨f, hf, rfl, hfu⟩, _, ⟨g, hg, rfl, hgu⟩, hne⟩

variable (passes) in
theorem covered_name_iff (h : Assembles py K files programs) :
    py.Covered TestFile.name files ↔
      (py.runFiles passes K files).uncoveredOpcodes = [] ∧
        (py.runFiles passes K files).underThresholdOpcodes = [] := by
  rw [SuiteState.no_missing_iff]
  exact forall₂_congr fun op _ => (one_lt_card_opcodeFileCounts h op).symm

theorem Covered.ne_nil {κ : Type} {key : TestFile → κ} (h : py.Covered key files) :
    files ≠ [] := by
  rintro rfl
  obtain ⟨f, hf, -⟩ := h .halt (by decide)
  cases hf

theorem suiteMain_eq_zero_iff (h : Assembles py K files programs) :
    py.suiteMain passes K files = 0 ↔
      NoneFails passes files programs ∧ py.Covered TestFile.name files := by
  have hfailed : (py.runFiles passes K files).failedCount = 0 ↔
      NoneFails passes files programs := (failedCount_eq_zero h rfl).trans (and_iff_right rfl)
  by_cases hempty : files = []
  · subst hempty
    exact iff_of_false Nat.one_ne_zero fun hc => hc.2.ne_nil rfl
  · rw [suiteMain, if_neg (mt List.isEmpty_iff.mp hempty), ← hfailed, covered_name_iff passes h]
    simp only [ite_eq_right_iff, one_ne_zero, imp_false, not_or, not_lt, nonpos_iff_eq_zero,
      not_not]

theorem suiteMain_testPassed_eq_zero_iff {execute : Option (TestFile → Program → Outcome)}
    (h : Assembles py K files programs) :
    py.suiteMain (testPassed execute) K files = 0 ↔
      List.Forall₂ (fun f p => p.instructions ≠ [] → ∀ run ∈ execute,
        Passes (checks suiteCheck p.expectations.get) (run f p)) files programs ∧
      py.Covered TestFile.name files := by
  have hpassed (f : TestFile) (p : Program) : testPassed execute f p ↔
      ∀ run ∈ execute, Passes (checks suiteCheck p.expectations.get) (run f p) := by
    cases execute with
    | none => simp [testPassed]
    | some run =>
      simp only [testPassed, Option.mem_some_iff, forall_eq', ← verify_eq_ok_nil]
      split <;> simp_all
  simp only [suiteMain_eq_zero_iff h, NoneFails, hpassed]

theorem instructionLines_unlines {lines : List Text}
    (hc : ∀ line ∈ lines, ∀ c ∈ ['\n', '\r'], c ∉ line) :
    py.instructionLines (unlines lines) =
      lines.filterMap fun line => py.instructionLine line.strip := by
  have hstrip (line : Text) : Text.strip (line ++ ['\n']) = line.strip :=
    Scan.trim_concat (by decide)
  rw [instructionLines, universalNewlines_unlines fun line hl => hc line hl '\r' (by decide),
    readlines_unlines fun line hl => hc line hl '\n' (by decide), List.filterMap_map]
  simp only [Function.comp_def, hstrip]

theorem exists_parse_unlines {lines : List Text} {wss : List (List Instruction)}
    (h : List.Forall₂ (py.Adds ⟨K, ∅, ∅⟩) lines wss)
    (hc : ∀ line ∈ lines, ∀ c ∈ ['\n', '\r', '.'], c ∉ line) :
    ∃ p, py.parseImpasFile K (unlines lines) = (.ok p, K) := by
  have hadds : List.Forall₂ (py.Adds ⟨K, ∅, ∅⟩) (lines.map fun line => line ++ ['\n']) wss :=
    List.forall₂_map_left_iff.mpr (h.imp fun _ _ => adds_concat)
  obtain ⟨p, hp, -⟩ := foldlM_adds hadds { data := [] }
  refine ⟨p, ?_⟩
  rw [parseImpasFile_of_not_mem, readlines_unlines, hp]
  · exact fun line hl => hc line hl '\n' (by decide)
  · exact not_mem_unlines (by decide) fun line hl => hc line hl '\r' (by decide)
  · exact not_mem_unlines (by decide) fun line hl => hc line hl '.' (by decide)

def opcodeLines : List Text := Op.opcodes.map fun op => formatLine ['0'] op 0 []

theorem not_mem_opcodeLines : ∀ line ∈ opcodeLines, ∀ c ∈ ['\n', '\r', '.'], c ∉ line := by
  decide +kernel

theorem argsOk_nil : ArgsOk 0 [] :=
  ⟨fun _ => rfl, fun h => absurd rfl h, List.forall_mem_nil _⟩

theorem isOk_encode_name :
    ∀ op ∈ Op.opcodes, (Runtime.ascii.encode ⟨constants, ∅, ∅⟩ op [op.name]).isOk := by
  decide +kernel

theorem exists_parse_opcodeLines :
    ∃ p, Runtime.ascii.parseImpasFile constants (unlines opcodeLines) = (.ok p, constants) := by
  have hadds : ∀ op ∈ Op.opcodes, ∃ ws,
      Runtime.ascii.Adds ⟨constants, ∅, ∅⟩ (formatLine ['0'] op 0 []) ws := by
    intro op hop
    obtain ⟨ws, hws⟩ := ExceptFold.exists_of_isOk (isOk_encode_name op hop)
    exact ⟨ws, adds_formatLine (by decide) (by decide) argsOk_nil hws⟩
  choose! ws hws using hadds
  have hlines : List.Forall₂ (Runtime.ascii.Adds ⟨constants, ∅, ∅⟩) opcodeLines
      (Op.opcodes.map ws) := by
    rw [opcodeLines, List.forall₂_map_left_iff, List.forall₂_map_right_iff, List.forall₂_same]
    exact hws
  exact exists_parse_unlines hlines not_mem_opcodeLines

theorem uses_opcodeLines {op : Op} (h : op ∈ Op.opcodes) : py.Uses (unlines opcodeLines) op := by
  refine ⟨(op.name, [op.name]), ?_, op, Op.ofName?_name op, Op.canonical_of_mem h⟩
  rw [instructionLines_unlines fun line hl c hc =>
    not_mem_opcodeLines line hl c (List.mem_append_left ['.'] hc), List.mem_filterMap]
  exact ⟨_, List.mem_map_of_mem h,
    py.instructionLine_formatLine (by decide) (by decide) argsOk_nil⟩

def opcodeFiles (name name' : Text) : List TestFile :=
  [⟨[chars "arith"], name, unlines opcodeLines⟩, ⟨[chars "graph"], name', unlines opcodeLines⟩]

theorem covered_opcodeFiles {κ : Type} {key : TestFile → κ} {name name' : Text}
    (h : ((opcodeFiles name name').map key).Nodup) : py.Covered key (opcodeFiles name name') := by
  intro op hop
  have huses : py.Uses (unlines opcodeLines) op := uses_opcodeLines hop
  refine ⟨_, List.mem_cons_self, _, List.mem_cons_of_mem _ (List.mem_singleton_self _), ?_, huses,
    huses⟩
  simpa [opcodeFiles] using h

theorem exists_assembles_opcodeFiles (name name' : Text) :
    ∃ programs, Assembles .ascii constants (opcodeFiles name name') programs ∧
      NoneFails (fun _ _ => true) (opcodeFiles name name') programs := by
  obtain ⟨p, hp⟩ := exists_parse_opcodeLines
  exact ⟨[p, p], .cons hp (.cons hp .nil), .cons (fun _ => rfl) (.cons (fun _ => rfl) .nil)⟩

def oneName : List TestFile := opcodeFiles (chars "ops.impas") (chars "ops.impas")

def twoNames : List TestFile := opcodeFiles (chars "ops.impas") (chars "ops_2.impas")

/-- The exit status is the documented verdict unless no file fails, every opcode is used by two
files, and the files of some opcode all have one name. -/
theorem suiteMain_coverage_iff (h : Assembles py K files programs) :
    (py.suiteMain passes K files = 0 ↔
        NoneFails passes files programs ∧ py.Covered TestFile.path files) ↔
      (NoneFails passes files programs → py.Covered TestFile.path files →
        py.Covered TestFile.name files) := by
  rw [suiteMain_eq_zero_iff h, and_congr_right_iff]
  exact imp_congr_right fun _ => ⟨Iff.mpr, fun hname => ⟨Covered.path_of_name, hname⟩⟩

theorem suiteMain_twoNames :
    Runtime.ascii.suiteMain (fun _ _ => true) constants twoNames = 0 := by
  obtain ⟨programs, h, hnone⟩ := exists_assembles_opcodeFiles (chars "ops.impas")
    (chars "ops_2.impas")
  have hpath : Runtime.ascii.Covered TestFile.path twoNames := covered_opcodeFiles (by decide)
  exact ((suiteMain_coverage_iff h).mpr fun _ _ => hpath.name_of_path (by decide)).mpr
    ⟨hnone, hpath⟩

/-- With one name in both directories every opcode stays below the threshold. -/
theorem suiteMain_oneName : ∃ programs, Assembles .ascii constants oneName programs ∧
    NoneFails (fun _ _ => true) oneName programs ∧ Runtime.ascii.Covered TestFile.path oneName ∧
      Runtime.ascii.suiteMain (fun _ _ => true) constants oneName ≠ 0 := by
  obtain ⟨programs, h, hnone⟩ := exists_assembles_opcodeFiles (chars "ops.impas")
    (chars "ops.impas")
  refine ⟨programs, h, hnone, covered_opcodeFiles (by decide), ?_⟩
  rw [Ne, oneName, suiteMain_eq_zero_iff h]
  rintro ⟨-, hname⟩
  obtain ⟨f, hf, g, hg, hne, -⟩ := hname .halt (by decide)
  have hall : ∀ f ∈ oneName, f.name = chars "ops.impas" := by simp [oneName, opcodeFiles]
  exact hne ((hall f hf).trans (hall g hg).symm)

end Runtime

end ImpulseTools

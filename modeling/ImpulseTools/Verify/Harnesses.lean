import ImpulseTools.Verify.ThreeWay

/-! # The harnesses compared

The suite and the campaigns read the same files. What the four-way campaign accepts also meets its
expectations in the suite, where the two make the same checks of them.
-/

open ImpulseTools.Runtime

namespace ImpulseTools

variable {py : Runtime} {e : FourWay.Engines} {f : TestFile} {p : Program}

def suiteRun (e : FourWay.Engines) (_ : TestFile) (p : Program) : Outcome :=
  (execute e.libOn e.enableFuel p).1

theorem FourWay.Accepts.passes (h : FourWay.Accepts e f p) :
    Passes (checks compareCheck p.expectations.get) (suiteRun e f p) := by
  obtain ⟨-, java, ocaml, -, -, hmatch, -⟩ := h
  apply compareState_self_eq_nil.mp
  exact compareState_eq_nil.mpr ⟨hmatch.comp fun _ => .cppOn, fun _ _ _ _ _ => rfl⟩

/-- The files that the four-way campaign accepts pass the suite as well, which is left to judge
their coverage, if of every file both make the same checks. -/
theorem suiteMain_of_fourWay {s : FourWay.Process} {files : List TestFile}
    (h : FourWay.main py e s files = 0)
    (hsame : ∀ r ∈ py.parses s.constants (files.map TestFile.text), ∀ p, r = .ok p →
      SameChecks p.expectations) :
    py.suiteMain (testPassed (some (suiteRun e))) s.constants files = 0 ↔
      py.Covered TestFile.name files := by
  obtain ⟨programs, hassembles, haccepts⟩ :=
    (FourWay.failedCount_run py e s files).mp (FourWay.main_eq_zero.mp h)
  rw [suiteMain_testPassed_eq_zero_iff hassembles, and_iff_right]
  clear h
  obtain ⟨K, files'⟩ := s
  dsimp only at hassembles hsame
  induction hassembles with
  | nil => exact .nil
  | @cons K K' f fs p ps hp _ ih =>
    obtain ⟨hf, hfs⟩ := List.forall₂_cons.mp haccepts
    rw [List.map_cons, parses, List.forall_mem_cons, hp] at hsame
    obtain ⟨hchecks, hsame⟩ := hsame
    refine .cons (fun _ run hrun => ?_) (ih hfs hsame)
    obtain rfl := Option.mem_some_iff.mp hrun
    rw [(hchecks p rfl).eq]
    exact hf.passes

/-- Two files with annotations of every kind that both harnesses check. -/
def expectFiles : List TestFile :=
  [⟨[chars "a"], chars "mov.impas",
      chars "; \x7bEXPECT: R1 = 42\x7d\nOP_MOV R1, R2 ; \x7bEXPECT: FLAG = ZF\x7d"⟩,
    ⟨[chars "b"], chars "mov.impas",
      chars "; \x7bEXPECT: STATUS = SUCCESS\x7d\nOP_MOV R1, R3 ; \x7bEXPECT: PC = 1\x7d"⟩]

def expectEngines : FourWay.Engines where
  libOn _ _ _ := (registerOutcome 42, [])
  libOff _ _ _ := (registerOutcome 42, [])
  java _ _ _ := .ok (runCpp [] (registerOutcome 42))
  ocaml _ _ := .ok (runCpp [] (registerOutcome 42))
  enableFuel := true

theorem suiteMain_of_fourWay_expect :
    Runtime.ascii.suiteMain (testPassed (some (suiteRun expectEngines))) constants
        expectFiles = 0 ↔ Runtime.ascii.Covered TestFile.name expectFiles := by
  have hmain : FourWay.main .ascii expectEngines ⟨constants, FourWay.noFiles⟩ expectFiles = 0 := by
    decide +kernel
  have hparses : ∀ r ∈ Runtime.ascii.parses constants (expectFiles.map TestFile.text),
      r.toOption.map (fun p => (p.expectations.status, p.expectations.throwCode,
        p.expectations.flagSt, p.expectations.callStackDepth,
        p.expectations.registers.entries.all fun x => 0 ≤ x.1 ∧ x.1 < 64)) =
      some (chars "IMPULSE_VM_OK", none, none, none, true) := by decide +kernel
  apply suiteMain_of_fourWay hmain
  rintro _ hr p rfl
  have hp := Option.some.inj (hparses _ hr)
  simp only [Prod.mk.injEq, List.all_eq_true, decide_eq_true_eq] at hp
  obtain ⟨hstatus, hthrow, hst, hdepth, hregs⟩ := hp
  refine ⟨by rw [hstatus]; decide, ?_, hst, hdepth, ?_⟩
  · rw [hthrow]
    nofun
  · intro k v hk
    exact .inl (hregs _ (AList.mem_lookup_iff.mp hk))

section

variable {passes : TestFile → Program → Bool} {K : Constants} {files files' : List TestFile}

theorem suite_judges (py : Runtime) (passes : TestFile → Program → Bool) :
    Judges py (py.runFile passes) SuiteState.constants SuiteState.failedCount
      fun f p => p.instructions ≠ [] → passes f p where
  of_error s f x K h := by
    rw [runFile, h]
    exact Nat.succ_ne_zero _
  of_ok s f p K h := by
    obtain ⟨hconst, -, hfailed⟩ := runFile_of_ok passes h
    rw [hconst]
    exact ⟨SameTable.refl _, hfailed⟩

theorem suiteMain_eq_zero : py.suiteMain passes K files = 0 ↔
    (∃ programs, Assembles py K files programs ∧ NoneFails passes files programs) ∧
      py.Covered TestFile.name files := by
  constructor
  · intro h
    have hfailed : (py.runFiles passes K files).failedCount = 0 := by
      by_contra hne
      unfold suiteMain at h
      dsimp only at h
      split at h
      · cases h
      · rw [if_pos (.inl (Nat.pos_of_ne_zero hne))] at h
        cases h
    have hjudge := (suite_judges py passes).foldl (s := { constants := K }) (SameTable.refl K) files
    obtain ⟨-, programs, ha, hnone⟩ := hjudge.mp hfailed
    exact ⟨⟨programs, ha, hnone⟩, ((suiteMain_eq_zero_iff ha).mp h).2⟩
  · rintro ⟨⟨programs, ha, hnone⟩, hcovered⟩
    exact (suiteMain_eq_zero_iff ha).mpr ⟨hnone, hcovered⟩

theorem covered_perm {κ : Type} {key : TestFile → κ} (hperm : files.Perm files') :
    py.Covered key files ↔ py.Covered key files' := by
  unfold Covered
  simp only [hperm.mem_iff]

theorem suiteMain_le_one : py.suiteMain passes K files ≤ 1 := by
  unfold suiteMain
  split
  · exact le_rfl
  · dsimp only
    split <;> decide

end

/-- Where no file binds a name that another one leaves free, the exit status of none of the three
harnesses depends on the order in which they take the files. -/
theorem main_perm {files files' : List TestFile} (hperm : files.Perm files')
    (hs : files.Pairwise (Separate py)) (passes : TestFile → Program → Bool)
    (e₃ : ThreeWay.Engines) (e₄ : FourWay.Engines) (s : FourWay.Process) :
    py.suiteMain passes s.constants files = py.suiteMain passes s.constants files' ∧
      ThreeWay.main py e₃ s.constants files = ThreeWay.main py e₃ s.constants files' ∧
      FourWay.main py e₄ s files = FourWay.main py e₄ s files' := by
  have heq {m n : ℕ} (hm : m ≤ 1) (hn : n ≤ 1) (h : m = 0 ↔ n = 0) : m = n := by omega
  refine ⟨heq suiteMain_le_one suiteMain_le_one ?_,
    heq ThreeWay.main_le_one ThreeWay.main_le_one ?_,
    heq FourWay.main_le_one FourWay.main_le_one ?_⟩
  · rw [suiteMain_eq_zero, suiteMain_eq_zero, covered_perm hperm]
    exact and_congr_left' (exists_assembles_perm hperm hs)
  · rw [ThreeWay.main_eq_zero, ThreeWay.main_eq_zero, ThreeWay.failedCount_run,
      ThreeWay.failedCount_run]
    exact exists_assembles_perm hperm hs
  · rw [FourWay.main_eq_zero, FourWay.main_eq_zero, FourWay.failedCount_run,
      FourWay.failedCount_run]
    exact exists_assembles_perm hperm hs

/-- Two files that read the name they bind themselves. -/
def walkFiles : List TestFile :=
  [⟨[chars "a"], chars "walk.impas", chars ".rel KNOWS = 1\nOP_CSR_WALK R1, R0, KNOWS"⟩,
    ⟨[chars "b"], chars "walk.impas", chars ".rel LIKES = 300\nOP_CSR_WALK R2, R0, LIKES"⟩]

theorem main_perm_walk :
    FourWay.main .ascii FourWay.idleEngines ⟨constants, FourWay.noFiles⟩ walkFiles =
      FourWay.main .ascii FourWay.idleEngines ⟨constants, FourWay.noFiles⟩ walkFiles.reverse := by
  have hseparate : Separate .ascii
      ⟨[chars "a"], chars "walk.impas", chars ".rel KNOWS = 1\nOP_CSR_WALK R1, R0, KNOWS"⟩
      ⟨[chars "b"], chars "walk.impas", chars ".rel LIKES = 300\nOP_CSR_WALK R2, R0, LIKES"⟩ :=
    ⟨by decide +kernel, by decide +kernel⟩
  have hpairwise : walkFiles.Pairwise (Separate .ascii) := List.pairwise_pair.mpr hseparate
  exact (main_perm (List.reverse_perm _).symm hpairwise (fun _ _ => true)
    ⟨FourWay.idleEngines.libOn, fun _ => .error [], fun _ => .error [], false⟩ FourWay.idleEngines
    ⟨constants, FourWay.noFiles⟩).2.2

end ImpulseTools

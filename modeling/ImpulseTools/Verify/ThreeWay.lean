import ImpulseTools.Verify.FourWay

/-! # The three-way campaign

`three_way_validation.py`: one library, and Java and OCaml with assemblers of their own. Its
comparison reads every register and no hash, and its loop passes over files without instructions.
-/

open ImpulseTools.Runtime

namespace ImpulseTools.ThreeWay

inductive Role where
  | cpp | java | ocaml
  deriving DecidableEq

inductive Diff where
  | status (v : Role → Text)
  | pc (v : Role → ℤ)
  | flag (name : Text) (v : Role → Bool)
  | register (reg : Text) (v : Role → ℤ)

def differ {α : Type} [DecidableEq α] (diff : (Role → α) → Diff) (v : Role → α) : List Diff :=
  if v .cpp ≠ v .java ∨ v .cpp ≠ v .ocaml then [diff v] else []

/-- `compare_state(cpp_state, java_state, ocaml_state)` -/
def compareState (s : Role → EngineState) : List Diff :=
  differ .status (fun r => (s r).status) ++
  differ .pc (fun r => (s r).pc) ++
  ([chars "zf", chars "st"].flatMap fun flag =>
    differ (.flag flag) fun r => getD (s r).flags flag false) ++
  (List.range 64).flatMap fun i : ℕ =>
    differ (.register (regName i)) fun r => getD (s r).registers (regName i) 0

/-- The engines. Java and OCaml are given the test file itself. -/
structure Engines where
  lib : Library
  java : TestFile → Except Text EngineState
  ocaml : TestFile → Except Text EngineState
  enableFuel : Bool

structure Campaign where
  /-- `CONSTANTS` -/
  constants : Constants
  passedCount : ℕ := 0
  failedCount : ℕ := 0
  skippedCount : ℕ := 0

variable (py : Runtime) (e : Engines)

/-- The state after a program: the dictionary has neither a hash nor tags. -/
def stateOf (lib : Library) (enableFuel : Bool) (p : Program) : EngineState :=
  let run := execute lib enableFuel p
  { ImpulseTools.runCpp run.2 run.1 with contextHash := none, registerTypes := none }

/-- `run_cpp(lib, test_file)`, which is `None` for a file without instructions. -/
def runCpp (K : Constants) (f : TestFile) : Except PyErr (Option EngineState) × Constants :=
  match py.parseImpasFile K f.text with
  | (.error x, K) => (.error x, K)
  | (.ok p, K) =>
    (.ok (if p.instructions = [] then none else some (stateOf e.lib e.enableFuel p)), K)

def states (cpp java ocaml : EngineState) : Role → EngineState
  | .cpp => cpp
  | .java => java
  | .ocaml => ocaml

def compareEngines (f : TestFile) (cpp : EngineState) : Except HarnessErr (List Diff) :=
  match e.java f with
  | .error x => .error (.engine x)
  | .ok java =>
    match e.ocaml f with
    | .error x => .error (.engine x)
    | .ok ocaml => .ok (compareState (states cpp java ocaml))

def turn (s : Campaign) (f : TestFile) : Campaign :=
  match runCpp py e s.constants f with
  | (.error _, K) => { s with constants := K, failedCount := s.failedCount + 1 }
  | (.ok none, K) => { s with constants := K, skippedCount := s.skippedCount + 1 }
  | (.ok (some cpp), K) =>
    match compareEngines e f cpp with
    | .ok [] => { s with constants := K, passedCount := s.passedCount + 1 }
    | _ => { s with constants := K, failedCount := s.failedCount + 1 }

def run (K : Constants) (files : List TestFile) : Campaign :=
  files.foldl (turn py e) { constants := K }

def main (K : Constants) (files : List TestFile) : ℕ :=
  if 0 < (run py e K files).failedCount then 1 else 0

/-- The states agree in everything but the hash and the tags. -/
structure Agree (s : Role → EngineState) : Prop where
  status : ∀ r r', (s r).status = (s r').status
  pc : ∀ r r', (s r).pc = (s r').pc
  zf : ∀ r r', getD (s r).flags (chars "zf") false = getD (s r').flags (chars "zf") false
  st : ∀ r r', getD (s r).flags (chars "st") false = getD (s r').flags (chars "st") false
  registers : ∀ i : ℕ, i < 64 → ∀ r r', registerValue (s r) i = registerValue (s r') i

variable {py e} {s : Role → EngineState} {cpp java ocaml : EngineState}

theorem differ_eq_nil {α : Type} [DecidableEq α] {diff : (Role → α) → Diff} {v : Role → α} :
    differ diff v = [] ↔ ∀ r r', v r = v r' := by
  unfold differ
  constructor
  · intro h
    split at h
    · cases h
    · rename_i hn
      obtain ⟨hj, ho⟩ := not_or.mp hn
      rw [not_not] at hj ho
      have hcpp : ∀ r, v .cpp = v r := by
        intro r
        cases r with
        | cpp => rfl
        | java => exact hj
        | ocaml => exact ho
      exact fun r r' => (hcpp r).symm.trans (hcpp r')
  · intro h
    rw [if_neg]
    rintro (hn | hn) <;> exact hn (h _ _)

theorem compareState_eq_nil : compareState s = [] ↔ Agree s := by
  simp only [compareState, List.append_eq_nil_iff, differ_eq_nil, List.flatMap_eq_nil_iff,
    List.mem_range, List.forall_mem_cons]
  constructor
  · rintro ⟨⟨⟨hs, hp⟩, hz, ht, -⟩, hr⟩
    exact ⟨hs, hp, hz, ht, hr⟩
  · intro h
    exact ⟨⟨⟨h.status, h.pc⟩, h.zf, h.st, fun _ hm => absurd hm List.not_mem_nil⟩, h.registers⟩

theorem forall_states_iff {α : Type} (g : EngineState → α) :
    (∀ r r', g (states cpp java ocaml r) = g (states cpp java ocaml r')) ↔
      ∀ n n', g (FourWay.states cpp cpp java ocaml n) =
        g (FourWay.states cpp cpp java ocaml n') := by
  constructor
  · intro h n n'
    have hrole : ∀ n, ∃ r, FourWay.states cpp cpp java ocaml n = states cpp java ocaml r := by
      intro n
      cases n with
      | cppOn => exact ⟨.cpp, rfl⟩
      | cppOff => exact ⟨.cpp, rfl⟩
      | java => exact ⟨.java, rfl⟩
      | ocaml => exact ⟨.ocaml, rfl⟩
    obtain ⟨r, hr⟩ := hrole n
    obtain ⟨r', hr'⟩ := hrole n'
    rw [hr, hr', h r r']
  · intro h r r'
    have hengine : ∀ r, ∃ n, states cpp java ocaml r = FourWay.states cpp cpp java ocaml n := by
      intro r
      cases r with
      | cpp => exact ⟨.cppOn, rfl⟩
      | java => exact ⟨.java, rfl⟩
      | ocaml => exact ⟨.ocaml, rfl⟩
    obtain ⟨n, hn⟩ := hengine r
    obtain ⟨n', hn'⟩ := hengine r'
    rw [hn, hn', h n n']

/-- With one library in both of its roles, the four-way comparison finds more than the three-way
one where only the hashes differ, and less in the registers that the library tags as handles. -/
theorem threeWay_compareState_iff (cpp java ocaml : EngineState) :
    (compareState (states cpp java ocaml) = [] ∧
        ∀ r r', (states cpp java ocaml r).contextHash.getD [] =
          (states cpp java ocaml r').contextHash.getD []) ↔
      ImpulseTools.compareState (FourWay.states cpp cpp java ocaml) none = [] ∧
        ∀ i : ℕ, i < 64 → 4 ≤ skipTag cpp (regName i) → ∀ r r',
          registerValue (states cpp java ocaml r) i =
            registerValue (states cpp java ocaml r') i := by
  rw [compareState_eq_nil, compareState_none_eq_nil]
  constructor
  · rintro ⟨h, hhash⟩
    refine ⟨⟨⟨?_, ?_, ?_, ?_, ?_⟩, ?_⟩, fun i hi _ => h.registers i hi⟩
    · exact (forall_states_iff EngineState.status).mp h.status
    · exact (forall_states_iff EngineState.pc).mp h.pc
    · exact (forall_states_iff fun s => getD s.flags (chars "zf") false).mp h.zf
    · exact (forall_states_iff fun s => getD s.flags (chars "st") false).mp h.st
    · exact (forall_states_iff fun s => s.contextHash.getD []).mp hhash
    · intro i hi _
      exact (forall_states_iff fun s => registerValue s i).mp (h.registers i hi)
  · rintro ⟨⟨h, hlow⟩, hhigh⟩
    refine ⟨⟨?_, ?_, ?_, ?_, ?_⟩, ?_⟩
    · exact (forall_states_iff EngineState.status).mpr h.status
    · exact (forall_states_iff EngineState.pc).mpr h.pc
    · exact (forall_states_iff fun s => getD s.flags (chars "zf") false).mpr h.zf
    · exact (forall_states_iff fun s => getD s.flags (chars "st") false).mpr h.st
    · intro i hi
      rcases lt_or_ge (skipTag cpp (regName i)) 4 with hlt | hge
      · exact (forall_states_iff fun s => registerValue s i).mpr (hlow i hi hlt)
      · exact hhigh i hi hge
    · exact (forall_states_iff fun s => s.contextHash.getD []).mpr h.contextHash

/-- There is nothing to run, or Java and OCaml ran the file and agree with the library. -/
def Accepts (e : Engines) (f : TestFile) (p : Program) : Prop :=
  p.instructions ≠ [] → ∃ java ocaml, e.java f = .ok java ∧ e.ocaml f = .ok ocaml ∧
    Agree (states (stateOf e.lib e.enableFuel p) java ocaml)

variable {f : TestFile} {K K' : Constants} {p : Program}

theorem compareEngines_eq_ok_nil : compareEngines e f cpp = .ok [] ↔
    ∃ java ocaml, e.java f = .ok java ∧ e.ocaml f = .ok ocaml ∧ Agree (states cpp java ocaml) := by
  unfold compareEngines
  cases e.java f with
  | error x => exact iff_of_false nofun fun ⟨_, _, hj, _⟩ => nomatch hj
  | ok java =>
    cases e.ocaml f with
    | error x => exact iff_of_false nofun fun ⟨_, _, _, ho, _⟩ => nomatch ho
    | ok ocaml =>
      rw [Except.ok.injEq, compareState_eq_nil]
      constructor
      · exact fun h => ⟨java, ocaml, rfl, rfl, h⟩
      · rintro ⟨_, _, ⟨⟩, ⟨⟩, h⟩
        exact h

theorem judges (py : Runtime) (e : Engines) :
    Judges py (turn py e) Campaign.constants Campaign.failedCount (Accepts e) where
  of_error s f x K h := by
    have hrun : runCpp py e s.constants f = (.error x, K) := by rw [runCpp, h]
    rw [turn, hrun]
    exact Nat.succ_ne_zero _
  of_ok s f p K h := by
    have hrun : runCpp py e s.constants f =
        (.ok (if p.instructions = [] then none else some (stateOf e.lib e.enableFuel p)), K) := by
      rw [runCpp, h]
    rw [turn, hrun, Accepts]
    by_cases hp : p.instructions = []
    · rw [if_pos hp]
      exact ⟨SameTable.refl _, iff_of_eq (by simp [hp])⟩
    · rw [if_neg hp, imp_iff_right hp, ← compareEngines_eq_ok_nil]
      dsimp only
      rcases compareEngines e f (stateOf e.lib e.enableFuel p) with _ | _ | _ <;>
        exact ⟨SameTable.refl _, by simp⟩

theorem failedCount_run (py : Runtime) (e : Engines) (K : Constants) (files : List TestFile) :
    (run py e K files).failedCount = 0 ↔ ∃ programs, Assembles py K files programs ∧
      List.Forall₂ (Accepts e) files programs := by
  have hfold := (judges py e).foldl (s := { constants := K }) (SameTable.refl K) files
  rwa [and_iff_right rfl] at hfold

theorem main_eq_zero {files : List TestFile} :
    main py e K files = 0 ↔ (run py e K files).failedCount = 0 := by
  unfold main
  split <;> omega

theorem main_le_one {files : List TestFile} : main py e K files ≤ 1 := by
  unfold main
  split <;> decide

/-- The campaign ends with status 0 exactly if every file is assembled and the three engines
agree on all of those that have instructions. -/
theorem threeWay_main_iff (py : Runtime) (e : Engines) (K : Constants) (files : List TestFile) :
    main py e K files = 0 ↔ ∃ programs, Assembles py K files programs ∧
      List.Forall₂ (Accepts e) files programs :=
  main_eq_zero.trans (failedCount_run py e K files)

end ImpulseTools.ThreeWay

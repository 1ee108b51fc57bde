import ImpulseTools.Verify.Engines
import ImpulseTools.Verify.Symmetry

/-! # The four-way campaign

`main` of `four_way_validation.py`. Each file is assembled three times in one process: for the two
libraries, and for the images that Java and OCaml read. The campaign succeeds exactly if all four
engines ran the same program for every file and agreed.
-/

open ImpulseTools.Runtime

namespace ImpulseTools.FourWay

/-- The engines, and whether `IMPULSE_TEST_ENABLE_FUEL` is set. Java is given the test file as
well as the images. -/
structure Engines where
  libOn : Library
  libOff : Library
  java : TestFile → List Byte → List Byte → Except Text EngineState
  ocaml : List Byte → List Byte → Except Text EngineState
  enableFuel : Bool

structure Process where
  /-- `CONSTANTS` -/
  constants : Constants
  files : FileSystem

structure Campaign extends Process where
  passedCount : ℕ := 0
  failedCount : ℕ := 0

def impbFile (f : TestFile) : List Text × Text := withSuffix f.path (chars ".impb")

def impbDataFile (f : TestFile) : List Text × Text := withSuffix f.path (chars ".impb_data")

def writeImages (fs : FileSystem) (f : TestFile) (p : Program) : FileSystem :=
  (fs.write (impbFile f) (impb p.instructions)).write (impbDataFile f) p.data

variable (py : Runtime) (e : Engines)

def stateOf (lib : Library) (enableFuel : Bool) (p : Program) : Option EngineState :=
  if p.instructions = [] then none
  else
    let run := execute lib enableFuel p
    some (ImpulseTools.runCpp run.2 run.1)

/-- `run_cpp(lib, test_file)`, which is `None` for a file without instructions. -/
def runCpp (lib : Library) (enableFuel : Bool) (K : Constants) (f : TestFile) :
    Except PyErr (Option EngineState) × Constants :=
  match py.parseImpasFile K f.text with
  | (.error x, K) => (.error x, K)
  | (.ok p, K) => (.ok (stateOf lib enableFuel p), K)

def states (on off java ocaml : EngineState) : Engine → EngineState
  | .cppOn => on
  | .cppOff => off
  | .java => java
  | .ocaml => ocaml

/-- The `try` block for a file: the differences, or an exception. -/
def attempt (s : Process) (f : TestFile) : Except HarnessErr (List Diff) × Process :=
  match runCpp py e.libOn e.enableFuel s.constants f with
  | (.error x, K) => (.error (.parse x), { s with constants := K })
  | (.ok on, K) =>
    match runCpp py e.libOff e.enableFuel K f with
    | (.error x, K) => (.error (.parse x), { s with constants := K })
    | (.ok off, K) =>
      match on, off with
      | some on, some off =>
        match py.parseImpasFile K f.text with
        | (.error x, K) => (.error (.parse x), { s with constants := K })
        | (.ok p, K) =>
          let s : Process := ⟨K, writeImages s.files f p⟩
          match e.java f (impb p.instructions) p.data with
          | .error x => (.error (.engine x), s)
          | .ok java =>
            match e.ocaml (impb p.instructions) p.data with
            | .error x => (.error (.engine x), s)
            | .ok ocaml => (.ok (compareState (states on off java ocaml) (some p.expectations)), s)
      -- `"status" not in cpp_on_state`, which raises for `None` and is false for a state
      | _, _ => (.error .noneState, { s with constants := K })

def turn (s : Campaign) (f : TestFile) : Campaign :=
  match attempt py e s.toProcess f with
  | (.ok [], s') => { s with toProcess := s', passedCount := s.passedCount + 1 }
  | (_, s') => { s with toProcess := s', failedCount := s.failedCount + 1 }

def run (s : Process) (files : List TestFile) : Campaign :=
  files.foldl (turn py e) { toProcess := s }

def main (s : Process) (files : List TestFile) : ℕ :=
  if 0 < (run py e s files).failedCount then 1 else 0

/-- What comes of a file that is assembled to the given program. -/
def verdict (f : TestFile) (p : Program) : Except HarnessErr (List Diff) :=
  match stateOf e.libOn e.enableFuel p, stateOf e.libOff e.enableFuel p with
  | some on, some off =>
    match e.java f (impb p.instructions) p.data with
    | .error x => .error (.engine x)
    | .ok java =>
      match e.ocaml (impb p.instructions) p.data with
      | .error x => .error (.engine x)
      | .ok ocaml => .ok (compareState (states on off java ocaml) (some p.expectations))
  | _, _ => .error .noneState

def imagesAfter (fs : FileSystem) (f : TestFile) (p : Program) : FileSystem :=
  if p.instructions = [] then fs else writeImages fs f p

variable {py e} {K K' : Constants} {s : Process} {f : TestFile} {p : Program}

theorem stateOf_eq_none {lib : Library} {enableFuel : Bool} :
    stateOf lib enableFuel p = none ↔ p.instructions = [] := by
  unfold stateOf
  split <;> simp_all

theorem runCpp_of_ok {lib : Library} {enableFuel : Bool}
    (h : py.parseImpasFile K f.text = (.ok p, K')) :
    runCpp py lib enableFuel K f = (.ok (stateOf lib enableFuel p), K') := by
  rw [runCpp, h]

theorem attempt_of_error {x : PyErr} (h : py.parseImpasFile s.constants f.text = (.error x, K)) :
    attempt py e s f = (.error (.parse x), { s with constants := K }) := by
  have hrun : runCpp py e.libOn e.enableFuel s.constants f = (.error x, K) := by rw [runCpp, h]
  rw [attempt, hrun]

/-- All three parses of an accepted file give its program, so that all engines get the same. -/
theorem attempt_of_ok (h : py.parseImpasFile s.constants f.text = (.ok p, K)) :
    ∃ K', SameTable K' K ∧ attempt py e s f = (verdict e f p, ⟨K', imagesAfter s.files f p⟩) := by
  obtain ⟨K₁, h₁, hK₁⟩ := parseImpasFile_twice h (.refl K)
  obtain ⟨K₂, h₂, hK₂⟩ := parseImpasFile_twice h hK₁
  unfold attempt verdict imagesAfter
  rw [runCpp_of_ok h]
  dsimp only
  rw [runCpp_of_ok h₁]
  by_cases hp : p.instructions = []
  · have hnone (lib : Library) : stateOf lib e.enableFuel p = none := stateOf_eq_none.mpr hp
    rw [hnone, hnone, if_pos hp]
    exact ⟨K₁, hK₁, rfl⟩
  · have hsome (lib : Library) : ∃ st, stateOf lib e.enableFuel p = some st :=
      Option.ne_none_iff_exists'.mp (mt stateOf_eq_none.mp hp)
    obtain ⟨on, hon⟩ := hsome e.libOn
    obtain ⟨off, hoff⟩ := hsome e.libOff
    refine ⟨K₂, hK₂, ?_⟩
    simp only [hon, hoff, h₂, if_neg hp]
    cases e.java f (impb p.instructions) p.data with
    | error x => rfl
    | ok java => cases e.ocaml (impb p.instructions) p.data <;> rfl

def engineStates (e : Engines) (p : Program) (java ocaml : EngineState) : Engine → EngineState :=
  let on := execute e.libOn e.enableFuel p
  let off := execute e.libOff e.enableFuel p
  states (ImpulseTools.runCpp on.2 on.1) (ImpulseTools.runCpp off.2 off.1) java ocaml

/-- There is something to run, Java and OCaml read it from its image and its data, and the states
agree and meet the expectations of the file. -/
def Accepts (e : Engines) (f : TestFile) (p : Program) : Prop :=
  p.instructions ≠ [] ∧ ∃ java ocaml, e.java f (impb p.instructions) p.data = .ok java ∧
    e.ocaml (impb p.instructions) p.data = .ok ocaml ∧
    Matching (engineStates e p java ocaml) (some p.expectations) ∧
    RegistersAgree (engineStates e p java ocaml) .cppOn

theorem verdict_eq_ok_nil : verdict e f p = .ok [] ↔ Accepts e f p := by
  unfold verdict Accepts
  by_cases hp : p.instructions = []
  · rw [stateOf_eq_none.mpr hp]
    exact iff_of_false nofun fun h => h.1 hp
  · have hsome (lib : Library) : stateOf lib e.enableFuel p =
        some (ImpulseTools.runCpp (execute lib e.enableFuel p).2 (execute lib e.enableFuel p).1) :=
      if_neg hp
    rw [hsome, hsome]
    dsimp only
    cases hj : e.java f (impb p.instructions) p.data with
    | error x => exact iff_of_false nofun fun ⟨_, _, _, hj', _⟩ => nomatch hj'
    | ok java =>
      cases ho : e.ocaml (impb p.instructions) p.data with
      | error x => exact iff_of_false nofun fun ⟨_, _, _, _, ho', _⟩ => nomatch ho'
      | ok ocaml =>
        rw [Except.ok.injEq, compareState_eq_nil]
        constructor
        · exact fun h => ⟨hp, java, ocaml, rfl, rfl, h⟩
        · rintro ⟨-, _, _, ⟨⟩, ⟨⟩, h⟩
          exact h

theorem turn_failedCount {s : Campaign} :
    (turn py e s f).failedCount = 0 ↔
      s.failedCount = 0 ∧ (attempt py e s.toProcess f).1 = .ok [] := by
  unfold turn
  rcases attempt py e s.toProcess f with ⟨_ | _ | _, s'⟩ <;> simp

theorem turn_toProcess {s : Campaign} :
    (turn py e s f).toProcess = (attempt py e s.toProcess f).2 := by
  unfold turn
  rcases attempt py e s.toProcess f with ⟨_ | _ | _, s'⟩ <;> rfl

theorem judges (py : Runtime) (e : Engines) :
    Judges py (turn py e) (fun s => s.constants) Campaign.failedCount (Accepts e) where
  of_error s f x K h := by
    rw [Ne, turn_failedCount, attempt_of_error h]
    rintro ⟨-, h⟩
    cases h
  of_ok s f p K h := by
    obtain ⟨K', hK', hattempt⟩ := attempt_of_ok (e := e) h
    rw [turn_failedCount, turn_toProcess, hattempt, verdict_eq_ok_nil]
    exact ⟨hK', Iff.rfl⟩

theorem failedCount_run (py : Runtime) (e : Engines) (s : Process) (files : List TestFile) :
    (run py e s files).failedCount = 0 ↔ ∃ programs, Assembles py s.constants files programs ∧
      List.Forall₂ (Accepts e) files programs := by
  have hfold := (judges py e).foldl (s := { toProcess := s }) (SameTable.refl s.constants) files
  rwa [and_iff_right rfl] at hfold

theorem main_eq_zero {s : Process} {files : List TestFile} :
    main py e s files = 0 ↔ (run py e s files).failedCount = 0 := by
  unfold main
  split <;> omega

theorem main_le_one {s : Process} {files : List TestFile} : main py e s files ≤ 1 := by
  unfold main
  split <;> decide

/-- The campaign ends with status 0 exactly if every file is assembled and all four engines ran
its program and agreed on it. -/
theorem fourWay_main_iff (py : Runtime) (e : Engines) (s : Process) (files : List TestFile) :
    main py e s files = 0 ↔ ∃ programs, Assembles py s.constants files programs ∧
      List.Forall₂ (Accepts e) files programs :=
  main_eq_zero.trans (failedCount_run py e s files)

variable {files : List TestFile} {path : List Text × Text}

theorem impbFile_ne_impbDataFile {g : TestFile} (hf : IsImpas f.name) (hg : IsImpas g.name) :
    impbFile f ≠ impbDataFile g := by
  obtain ⟨stem, -, hs⟩ := withSuffix_of_isImpas f.dir hf (chars ".impb")
  obtain ⟨stem', -, hs'⟩ := withSuffix_of_isImpas g.dir hg (chars ".impb_data")
  intro h
  have hname : stem ++ chars ".impb" = stem' ++ chars ".impb_data" :=
    congrArg Prod.snd (hs.symm.trans (h.trans hs'))
  have hlast := congrArg List.getLast? hname
  rw [List.getLast?_append, List.getLast?_append] at hlast
  cases hlast

theorem imagesAfter_of_ne {fs : FileSystem}
    (h : p.instructions ≠ [] → path ≠ impbFile f ∧ path ≠ impbDataFile f) :
    imagesAfter fs f p path = fs path := by
  unfold imagesAfter
  split_ifs with hp
  · rfl
  · obtain ⟨himpb, hdata⟩ := h hp
    rw [writeImages, FileSystem.write, FileSystem.write, Function.update_of_ne hdata,
      Function.update_of_ne himpb]

theorem imagesAfter_images (fs : FileSystem) (hf : IsImpas f.name) (hp : p.instructions ≠ []) :
    imagesAfter fs f p (impbFile f) = some (impb p.instructions) ∧
      imagesAfter fs f p (impbDataFile f) = some p.data := by
  rw [imagesAfter, if_neg hp, writeImages, FileSystem.write, FileSystem.write]
  constructor
  · rw [Function.update_of_ne (impbFile_ne_impbDataFile hf hf), Function.update_self]
  · exact Function.update_self ..

def filesAfter (fs : FileSystem) (f : TestFile) : Except PyErr Program → FileSystem
  | .error _ => fs
  | .ok p => imagesAfter fs f p

/-- A turn leaves `CONSTANTS` as one parse does, and writes the images of a program. -/
theorem turn_process {s : Campaign} {r : Except PyErr Program}
    (h : py.parseImpasFile s.constants f.text = (r, K)) :
    SameTable (turn py e s f).constants K ∧
      (turn py e s f).files = filesAfter s.files f r := by
  rw [turn_toProcess]
  cases r with
  | error x =>
    rw [attempt_of_error h]
    exact ⟨SameTable.refl _, rfl⟩
  | ok p =>
    obtain ⟨K', hK', hattempt⟩ := attempt_of_ok (e := e) h
    rw [hattempt]
    exact ⟨hK', rfl⟩

/-- The path is no image of a file that is assembled to something. -/
def NoImage (py : Runtime) (K : Constants) (files : List TestFile) (path : List Text × Text) :
    Prop :=
  ∀ (i : ℕ) (f : TestFile) (p : Program), files[i]? = some f →
    (py.parses K (files.map TestFile.text))[i]? = some (.ok p) → p.instructions ≠ [] →
      path ≠ impbFile f ∧ path ≠ impbDataFile f

theorem foldl_files_of_noImage {s : Campaign} (hK : SameTable s.constants K)
    (h : NoImage py K files path) :
    (files.foldl (turn py e) s).files path = s.files path := by
  induction files generalizing s K with
  | nil => rfl
  | cons f files ih =>
    obtain ⟨hr, hnext⟩ := parseImpasFile_sameTable py hK f.text
    rcases hs : py.parseImpasFile s.constants f.text with ⟨r, K₁⟩
    obtain ⟨hconst, hfiles⟩ := turn_process (e := e) hs
    rw [hs] at hr hnext
    rw [List.foldl_cons, ih (hconst.trans hnext) fun i f p hf hp => h (i + 1) f p hf hp, hfiles]
    cases r with
    | error x => rfl
    | ok p => exact imagesAfter_of_ne (h 0 f p rfl (congrArg some hr.symm))

theorem foldl_files_of_ne {s : Campaign}
    (h : ∀ f ∈ files, path ≠ impbFile f ∧ path ≠ impbDataFile f) :
    (files.foldl (turn py e) s).files path = s.files path :=
  foldl_files_of_noImage (SameTable.refl _) fun _ f _ hf _ _ => h f (List.mem_of_getElem? hf)

theorem foldl_files {s : Campaign} (hK : SameTable s.constants K)
    (hn : (files.map TestFile.path).Nodup) (hi : ∀ f ∈ files, IsImpas f.name) {i : ℕ}
    (hf : files[i]? = some f) (hp : (py.parses K (files.map TestFile.text))[i]? = some (.ok p))
    (hne : p.instructions ≠ []) :
    (files.foldl (turn py e) s).files (impbFile f) = some (impb p.instructions) ∧
      (files.foldl (turn py e) s).files (impbDataFile f) = some p.data := by
  induction files generalizing s K i with
  | nil => cases hf
  | cons g files ih =>
    obtain ⟨hg, hi⟩ := List.forall_mem_cons.mp hi
    obtain ⟨hnot, hn⟩ := List.nodup_cons.mp hn
    obtain ⟨hr, hnext⟩ := parseImpasFile_sameTable py hK g.text
    rcases hs : py.parseImpasFile s.constants g.text with ⟨r, K₁⟩
    obtain ⟨hconst, hfiles⟩ := turn_process (e := e) hs
    rw [hs] at hr hnext
    rw [List.foldl_cons]
    cases i with
    | succ i =>
      exact ih (hconst.trans hnext) hn hi hf hp
    | zero =>
      obtain rfl := Option.some.inj hf
      obtain rfl : r = .ok p := hr.trans (Option.some.inj hp)
      have hother {f' : TestFile} (hf' : f' ∈ files) {suffix : Text} :
          withSuffix g.path suffix ≠ withSuffix f'.path suffix := by
        intro h
        have hpath := withSuffix_injOn g.path f'.path hg (hi f' hf') h
        exact hnot (List.mem_map.mpr ⟨f', hf', hpath.symm⟩)
      have himages := imagesAfter_images s.files hg hne
      rw [filesAfter] at hfiles
      rw [← hfiles] at himages
      rw [foldl_files_of_ne, foldl_files_of_ne]
      · exact himages
      · exact fun f' hf' => ⟨(impbFile_ne_impbDataFile (hi f' hf') hg).symm, hother hf'⟩
      · exact fun f' hf' => ⟨hother hf', impbFile_ne_impbDataFile hg (hi f' hf')⟩

/-- Whatever the engines do, the campaign leaves behind the image and the data of every file that
is assembled to something, from which the program is read back, and touches no other file. -/
theorem run_files (py : Runtime) (e : Engines) (s : Process)
    (hn : (files.map TestFile.path).Nodup) (hi : ∀ f ∈ files, IsImpas f.name) :
    (∀ (i : ℕ) (f : TestFile) (p : Program), files[i]? = some f →
      (py.parses s.constants (files.map TestFile.text))[i]? = some (.ok p) → p.instructions ≠ [] →
        ((run py e s files).files (impbFile f)).bind instructionCodec.decodeAll =
            some p.instructions ∧
          (run py e s files).files (impbDataFile f) = some p.data) ∧
      ∀ path, NoImage py s.constants files path →
        (run py e s files).files path = s.files path := by
  refine ⟨fun i f p hf hp hne => ?_, fun path h => foldl_files_of_noImage (SameTable.refl _) h⟩
  obtain ⟨himpb, hdata⟩ := foldl_files (e := e) (s := { toProcess := s })
    (SameTable.refl s.constants) hn hi hf hp hne
  refine ⟨?_, hdata⟩
  rw [run, himpb]
  exact instructionCodec.decodeAll_encodeAll _

/-- Engines that leave the state of a fresh machine, whatever they are given. -/
def idleEngines : Engines where
  libOn _ _ _ := (flagsOutcome 0, [])
  libOff _ _ _ := (flagsOutcome 0, [])
  java _ _ _ := .ok (ImpulseTools.runCpp [] (flagsOutcome 0))
  ocaml _ _ := .ok (ImpulseTools.runCpp [] (flagsOutcome 0))
  enableFuel := false

def noFiles : FileSystem := fun _ => none

def movFiles : List TestFile :=
  [⟨[chars "a"], chars "mov.impas", chars "OP_MOV R1, R2"⟩,
    ⟨[chars "b"], chars "mov.impas", chars "OP_MOV R3, R4"⟩]

def relFiles : List TestFile :=
  movFiles ++ [⟨[chars "b"], chars "rel.impas", chars ".rel KNOWS = 1"⟩]

theorem run_files_rel :
    ((run .ascii idleEngines ⟨constants, noFiles⟩ relFiles).files
        ([chars "b"], chars "mov.impb")).bind instructionCodec.decodeAll =
      some [⟨0x70, 0, 3, 4⟩] ∧
    (run .ascii idleEngines ⟨constants, noFiles⟩ relFiles).files
      ([chars "b"], chars "rel.impb") = none := by
  have himpas : ∀ f ∈ relFiles, IsImpas f.name := by
    simp only [relFiles, movFiles, List.cons_append, List.nil_append, List.forall_mem_cons]
    exact ⟨⟨chars "mov", by decide, rfl⟩, ⟨chars "mov", by decide, rfl⟩,
      ⟨chars "rel", by decide, rfl⟩, List.forall_mem_nil _⟩
  have hwords : (Runtime.ascii.parses constants (relFiles.map TestFile.text)).map
      (fun r => r.toOption.map (·.instructions)) =
        [some [⟨0x70, 0, 1, 2⟩], some [⟨0x70, 0, 3, 4⟩], some []] := by
    decide +kernel
  have hat {i : ℕ} {p : Program}
      (hp : (Runtime.ascii.parses constants (relFiles.map TestFile.text))[i]? = some (.ok p)) :
      [some [⟨0x70, 0, 1, 2⟩], some [⟨0x70, 0, 3, 4⟩], some []][i]? =
        some (some p.instructions) := by
    rw [← hwords, List.getElem?_map, hp]
    rfl
  obtain ⟨hwritten, hother⟩ := run_files .ascii idleEngines ⟨constants, noFiles⟩
    (by decide : (relFiles.map TestFile.path).Nodup) himpas
  constructor
  · have hparse : ((Runtime.ascii.parses constants (relFiles.map TestFile.text))[1]?.bind
        Except.toOption).isSome := by
      decide +kernel
    obtain ⟨p, hp⟩ := Option.isSome_iff_exists.mp hparse
    obtain ⟨r, hr, hp⟩ := Option.bind_eq_some_iff.mp hp
    rw [ExceptFold.toOption_eq_some.mp hp] at hr
    have hpath : impbFile ⟨[chars "b"], chars "mov.impas", chars "OP_MOV R3, R4"⟩ =
        ([chars "b"], chars "mov.impb") := by decide
    have himage : p.instructions = [⟨0x70, 0, 3, 4⟩] :=
      (Option.some.inj (Option.some.inj (hat hr))).symm
    rw [← hpath, ← himage]
    exact (hwritten 1 _ p rfl hr (himage ▸ List.cons_ne_nil _ _)).1
  · apply hother
    intro i f p hf hp hne
    match i with
    | 0 =>
      obtain rfl := Option.some.inj hf
      exact ⟨by decide, by decide⟩
    | 1 =>
      obtain rfl := Option.some.inj hf
      exact ⟨by decide, by decide⟩
    | 2 => exact absurd (Option.some.inj (Option.some.inj (hat hp))).symm hne
    | _ + 3 => cases hf

end ImpulseTools.FourWay

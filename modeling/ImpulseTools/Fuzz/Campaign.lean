import ImpulseTools.Fuzz.Program
import ImpulseTools.Verify.FourWay

/-! # The fuzzing campaign

`main` of `fuzz_vm_contracts.py`. Each iteration writes a program to a file of its own, runs it on
the four engines and removes what it wrote, also after an exception. A program on which the engines
differ is saved under the number of its seed.
-/

open ImpulseTools.Runtime

namespace ImpulseTools

/-- The bytes of a text; all that is written is ASCII. -/
def textBytes (t : Text) : List Byte := t.map fun c => BitVec.ofNat 8 c.toNat

def bytesText (bytes : List Byte) : Text := bytes.map fun b => Char.ofNat b.toNat

def FileSystem.unlink (fs : FileSystem) (path : List Text × Text) : FileSystem :=
  Function.update fs path none

theorem foldl_unlink (paths : List (List Text × Text)) (fs : FileSystem) (path : List Text × Text) :
    paths.foldl FileSystem.unlink fs path = if path ∈ paths then none else fs path := by
  induction paths generalizing fs with
  | nil => rfl
  | cons p paths ih =>
    rw [List.foldl_cons, ih, FileSystem.unlink]
    by_cases hp : path = p
    · rw [hp, Function.update_self, if_pos List.mem_cons_self, ite_self]
    · rw [Function.update_of_ne hp]
      simp only [List.mem_cons, hp, false_or]

theorem bytesText_textBytes {t : Text} (h : ∀ c ∈ t, c.toNat < 128) :
    bytesText (textBytes t) = t := by
  rw [bytesText, textBytes, List.map_map]
  refine (List.map_congr_left fun c hc => ?_).trans (List.map_id t)
  have hmod : c.toNat % 2 ^ 8 = c.toNat := Nat.mod_eq_of_lt ((h c hc).trans (by decide))
  rw [Function.comp_apply, BitVec.toNat_ofNat, hmod, Char.ofNat_toNat]
  rfl

namespace Fuzzer

/-- The arguments, and the draws of `random.Random(seed)` for the turns of the generator. -/
structure Options where
  table : List Contract
  seed : ℤ
  draws : ℤ → List Draw
  toolsDir : List Text
  dumpDir : List Text

namespace Options

variable (o : Options)

def progText (i : ℕ) : Text := generateProgram o.table (o.seed + i) (o.draws (o.seed + i))

def tempImpas (text : Text) : TestFile := ⟨o.toolsDir, chars ".fuzz_tmp.impas", text⟩

/-- The files that `finally` removes. -/
def temporaries : List (List Text × Text) :=
  [chars ".fuzz_tmp.impas", chars ".fuzz_tmp.impb", chars ".fuzz_tmp.impb_data"].map
    (o.toolsDir, ·)

def reproPath (i : ℕ) : List Text × Text :=
  (o.dumpDir, chars "fuzz_repro_seed_" ++ (intText (o.seed + i) ++ chars ".impas"))

end Options

structure Campaign extends FourWay.Process where
  passedCount : ℕ := 0
  divergenceCount : ℕ := 0

variable (py : Runtime) (e : FourWay.Engines) (o : Options)

/-- The `try` block up to the comparison. -/
def attempt (s : FourWay.Process) (f : TestFile) :
    Except HarnessErr (List Diff) × FourWay.Process :=
  match py.parseImpasFile s.constants f.text with
  | (.error x, K) => (.error (.parse x), { s with constants := K })
  | (.ok p, K) =>
    let files := FourWay.writeImages s.files f p
    match FourWay.runCpp py e.libOn e.enableFuel K f with
    | (.error x, K) => (.error (.parse x), ⟨K, files⟩)
    | (.ok on, K) =>
      match FourWay.runCpp py e.libOff e.enableFuel K f with
      | (.error x, K) => (.error (.parse x), ⟨K, files⟩)
      | (.ok off, K) =>
        match e.java f (impb p.instructions) p.data with
        | .error x => (.error (.engine x), ⟨K, files⟩)
        | .ok java =>
          match e.ocaml (impb p.instructions) p.data with
          | .error x => (.error (.engine x), ⟨K, files⟩)
          | .ok ocaml =>
            match on, off with
            | some on, some off =>
              (.ok (compareState (FourWay.states on off java ocaml) none), ⟨K, files⟩)
            -- `None` has no status to compare
            | _, _ => (.error .noneState, ⟨K, files⟩)

/-- What is made of the comparison. An exception is printed, and counts for nothing. -/
def record (s : Campaign) (i : ℕ) : Except HarnessErr (List Diff) × FourWay.Process → Campaign
  | (.ok [], s') => { s with toProcess := s', passedCount := s.passedCount + 1 }
  | (.ok (_ :: _), s') =>
    { s with
      toProcess := { s' with files := s'.files.write (o.reproPath i) (textBytes (o.progText i)) }
      divergenceCount := s.divergenceCount + 1 }
  | (.error _, s') => { s with toProcess := s' }

def turn (s : Campaign) (i : ℕ) : Campaign :=
  let f := o.tempImpas (o.progText i)
  let s := record o s i (attempt py e ⟨s.constants, s.files.write f.path (textBytes f.text)⟩ f)
  -- `finally`
  { s with files := o.temporaries.foldl FileSystem.unlink s.files }

def run (s : FourWay.Process) (iterations : ℕ) : Campaign :=
  (List.range iterations).foldl (turn py e o) { toProcess := s }

def verdict (f : TestFile) (p : Program) : Except HarnessErr (List Diff) :=
  match e.java f (impb p.instructions) p.data with
  | .error x => .error (.engine x)
  | .ok java =>
    match e.ocaml (impb p.instructions) p.data with
    | .error x => .error (.engine x)
    | .ok ocaml =>
      match FourWay.stateOf e.libOn e.enableFuel p, FourWay.stateOf e.libOff e.enableFuel p with
      | some on, some off => .ok (compareState (FourWay.states on off java ocaml) none)
      | _, _ => .error .noneState

/-- What comes of an iteration, from one parse of its program. -/
def outcome (K : Constants) (i : ℕ) : Except HarnessErr (List Diff) :=
  let f := o.tempImpas (o.progText i)
  match (py.parseImpasFile K f.text).1 with
  | .error x => .error (.parse x)
  | .ok p => verdict e f p

def consensus : Except HarnessErr (List Diff) → Bool
  | .ok [] => true
  | _ => false

def diverges : Except HarnessErr (List Diff) → Bool
  | .ok (_ :: _) => true
  | _ => false

variable {py e o} {K : Constants} {s : FourWay.Process} {i n : ℕ} {path : List Text × Text}

theorem constants_generateProgram (py : Runtime) (table : List Contract) (seed : ℤ)
    (draws : List Draw) (K : Constants) :
    (py.parseImpasFile K (generateProgram table seed draws)).2 = K := by
  unfold parseImpasFile
  rw [universalNewlines_generateProgram]
  dsimp only
  cases py.dataSection (generateProgram table seed draws) with
  | error x => rfl
  | ok d => simp only [findIter_relAt, bindRels, findIter_vrelAt, bindVrels]

theorem attempt_of_ok {f : TestFile} {p : Program}
    (h : py.parseImpasFile s.constants f.text = (.ok p, s.constants)) :
    attempt py e s f = (verdict e f p, { s with files := FourWay.writeImages s.files f p }) := by
  unfold attempt verdict
  rw [h]
  dsimp only
  rw [FourWay.runCpp_of_ok h]
  dsimp only
  rw [FourWay.runCpp_of_ok h]
  dsimp only
  cases e.java f (impb p.instructions) p.data with
  | error x => rfl
  | ok java =>
    cases e.ocaml (impb p.instructions) p.data with
    | error x => rfl
    | ok ocaml =>
      cases FourWay.stateOf e.libOn e.enableFuel p with
      | none => rfl
      | some on => cases FourWay.stateOf e.libOff e.enableFuel p <;> rfl

theorem attempt_of_error {f : TestFile} {x : PyErr}
    (h : py.parseImpasFile s.constants f.text = (.error x, K)) :
    attempt py e s f = (.error (.parse x), { s with constants := K }) := by
  rw [attempt, h]

theorem temporaries_eq (o : Options) (text : Text) :
    o.temporaries = [(o.tempImpas text).path, FourWay.impbFile (o.tempImpas text),
      FourWay.impbDataFile (o.tempImpas text)] := rfl

/-- The `try` block of an iteration comes out as it does from one parse, and writes nothing but the
files that are removed afterwards. -/
theorem exists_attempt_eq (py : Runtime) (e : FourWay.Engines) (o : Options) (s : FourWay.Process)
    (i : ℕ) :
    let f := o.tempImpas (o.progText i)
    ∃ s', attempt py e ⟨s.constants, s.files.write f.path (textBytes f.text)⟩ f =
        (outcome py e o s.constants i, s') ∧ s'.constants = s.constants ∧
      ∀ path ∉ o.temporaries, s'.files path = s.files path := by
  intro f
  have hK : (py.parseImpasFile s.constants f.text).2 = s.constants :=
    constants_generateProgram py _ _ _ _
  have hne {path : List Text × Text} (h : path ∉ o.temporaries) : path ≠ f.path ∧
      path ≠ FourWay.impbFile f ∧ path ≠ FourWay.impbDataFile f := by
    rw [temporaries_eq o (o.progText i)] at h
    simp only [List.mem_cons, List.not_mem_nil, or_false, not_or] at h
    exact h
  have hwritten {path : List Text × Text} (h : path ≠ f.path) :
      s.files.write f.path (textBytes f.text) path = s.files path :=
    Function.update_of_ne h _ _
  unfold outcome
  dsimp only
  rcases hr : py.parseImpasFile s.constants f.text with ⟨r, K⟩
  rw [hr] at hK
  obtain rfl : K = s.constants := hK
  cases r with
  | error x =>
    exact ⟨_, attempt_of_error (s := ⟨_, _⟩) hr, rfl, fun path hp => hwritten (hne hp).1⟩
  | ok p =>
    refine ⟨_, attempt_of_ok (s := ⟨_, _⟩) hr, rfl, fun path hp => ?_⟩
    obtain ⟨htext, himpb, hdata⟩ := hne hp
    dsimp only [FourWay.writeImages]
    rw [FileSystem.write, FileSystem.write, Function.update_of_ne hdata,
      Function.update_of_ne himpb, hwritten htext]

section

variable (s : Campaign) (r : Except HarnessErr (List Diff) × FourWay.Process)

theorem record_constants : (record o s i r).constants = r.2.constants := by
  rcases r with ⟨_ | _ | _, s'⟩ <;> rfl

theorem record_files : (record o s i r).files path =
    if diverges r.1 ∧ path = o.reproPath i then some (textBytes (o.progText i))
    else r.2.files path := by
  rcases r with ⟨_ | _ | ⟨d, ds⟩, s'⟩
  · exact (if_neg fun h => Bool.false_ne_true h.1).symm
  · exact (if_neg fun h => Bool.false_ne_true h.1).symm
  · simp [record, diverges, FileSystem.write, Function.update_apply]

theorem record_passedCount :
    (record o s i r).passedCount = s.passedCount + if consensus r.1 then 1 else 0 := by
  rcases r with ⟨_ | _ | _, s'⟩ <;> rfl

theorem record_divergenceCount :
    (record o s i r).divergenceCount = s.divergenceCount + if diverges r.1 then 1 else 0 := by
  rcases r with ⟨_ | _ | _, s'⟩ <;> rfl

end

def filesAfter (o : Options) (fs : FileSystem) (i : ℕ) (r : Except HarnessErr (List Diff)) :
    FileSystem := fun path =>
  if path ∈ o.temporaries then none
  else if diverges r ∧ path = o.reproPath i then some (textBytes (o.progText i))
  else fs path

theorem turn_eq (py : Runtime) (e : FourWay.Engines) (o : Options) (s : Campaign) (i : ℕ) :
    let r := outcome py e o s.constants i
    turn py e o s i = {
      constants := s.constants
      files := filesAfter o s.files i r
      passedCount := s.passedCount + if consensus r then 1 else 0
      divergenceCount := s.divergenceCount + if diverges r then 1 else 0 } := by
  intro r
  obtain ⟨s', hs', hK, hfiles⟩ := exists_attempt_eq py e o s.toProcess i
  have hunlink : o.temporaries.foldl FileSystem.unlink (record o s i (r, s')).files =
      filesAfter o s.files i r := by
    funext path
    rw [foldl_unlink, filesAfter]
    by_cases hp : path ∈ o.temporaries
    · rw [if_pos hp, if_pos hp]
    · rw [if_neg hp, if_neg hp, record_files, hfiles path hp]
  rw [turn, hs', hunlink, record_constants, hK, record_passedCount, record_divergenceCount]

theorem reproPath_injective (o : Options) : Function.Injective o.reproPath := by
  intro i j h
  have htext := List.append_cancel_right (List.append_cancel_left (congrArg Prod.snd h))
  have := intText_injective htext
  omega

theorem reproPath_not_mem (o : Options) (i : ℕ) : o.reproPath i ∉ o.temporaries := by
  intro h
  obtain ⟨name, hname, hpath⟩ := List.mem_map.mp h
  have hhead : name.head? = some 'f' := congrArg (fun p => p.2.head?) hpath
  have : ∀ name ∈ [chars ".fuzz_tmp.impas", chars ".fuzz_tmp.impb", chars ".fuzz_tmp.impb_data"],
      name.head? ≠ some 'f' := by decide
  exact this name hname hhead

/-- What a run leaves, in terms of the outcomes of its iterations. -/
structure Leaves (py : Runtime) (e : FourWay.Engines) (o : Options) (s : FourWay.Process) (n : ℕ)
    (s' : Campaign) : Prop where
  constants : s'.constants = s.constants
  passedCount : s'.passedCount =
    (List.range n).countP fun i => consensus (outcome py e o s.constants i)
  divergenceCount : s'.divergenceCount =
    (List.range n).countP fun i => diverges (outcome py e o s.constants i)
  temporaries : 0 < n → ∀ path ∈ o.temporaries, s'.files path = none
  repros : ∀ i < n, diverges (outcome py e o s.constants i) →
    s'.files (o.reproPath i) = some (textBytes (o.progText i))
  others : ∀ path ∉ o.temporaries,
    (∀ i < n, diverges (outcome py e o s.constants i) → path ≠ o.reproPath i) →
      s'.files path = s.files path

theorem run_succ : run py e o s (n + 1) = turn py e o (run py e o s n) n := by
  rw [run, List.range_succ, List.foldl_concat, ← run]

theorem Leaves.turn {s' : Campaign} (h : Leaves py e o s n s') :
    Leaves py e o s (n + 1) (turn py e o s' n) := by
  have hturn := turn_eq py e o s' n
  rw [h.constants] at hturn
  dsimp only at hturn
  rw [hturn]
  constructor
  · rfl
  · simp only [List.range_succ, List.countP_append, List.countP_singleton, h.passedCount]
  · simp only [List.range_succ, List.countP_append, List.countP_singleton, h.divergenceCount]
  · exact fun _ path hp => if_pos hp
  · intro i hi hd
    dsimp only [filesAfter]
    rw [if_neg (reproPath_not_mem o i)]
    rcases Nat.lt_succ_iff_lt_or_eq.mp hi with hi | rfl
    · have hne : o.reproPath i ≠ o.reproPath n := fun hp => hi.ne (reproPath_injective o hp)
      rw [if_neg fun hp => hne hp.2, h.repros i hi hd]
    · rw [if_pos ⟨hd, rfl⟩]
  · intro path hp hne
    dsimp only [filesAfter]
    rw [if_neg hp, if_neg fun hd => hne n n.lt_succ_self hd.1 hd.2,
      h.others path hp fun i hi => hne i (hi.trans n.lt_succ_self)]

theorem run_leaves (py : Runtime) (e : FourWay.Engines) (o : Options) (s : FourWay.Process)
    (n : ℕ) : Leaves py e o s n (run py e o s n) := by
  induction n with
  | zero =>
    refine ⟨rfl, rfl, rfl, fun h => absurd h (Nat.lt_irrefl 0), ?_, fun _ _ _ => rfl⟩
    exact fun i hi => absurd hi i.not_lt_zero
  | succ n ih =>
    rw [run_succ]
    exact ih.turn

/-- Every run counts the iterations on which the engines agree and those on which they differ,
leaves `CONSTANTS` as it was and none of the files it works with, and saves exactly the programs on
which the engines differ: each in a file of its own, and no other file changes. -/
theorem run_outcomes (py : Runtime) (e : FourWay.Engines) (o : Options) (s : FourWay.Process)
    (n : ℕ) :
    let result (i : ℕ) := outcome py e o s.constants i
    let s' := run py e o s n
    s'.constants = s.constants ∧
      s'.passedCount = (List.range n).countP (fun i => consensus (result i)) ∧
      s'.divergenceCount = (List.range n).countP (fun i => diverges (result i)) ∧
      (0 < n → ∀ path ∈ o.temporaries, s'.files path = none) ∧
      (∀ i < n, diverges (result i) →
        s'.files (o.reproPath i) = some (textBytes (o.progText i))) ∧
      ∀ path ∉ o.temporaries, (∀ i < n, diverges (result i) → path ≠ o.reproPath i) →
        s'.files path = s.files path := by
  have h := run_leaves py e o s n
  exact ⟨h.constants, h.passedCount, h.divergenceCount, h.temporaries, h.repros, h.others⟩

end Fuzzer

end ImpulseTools

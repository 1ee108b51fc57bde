import ImpulseTools.Fuzz.Campaign
import ImpulseTools.Fuzz.Types
import ImpulseTools.Verify.Verdict

/-! # Replaying a campaign

The programs of a fuzzing campaign are test files like others. What the fuzzer says of its programs
is compared with what the four-way campaign says of them, and a saved program is read back.
-/

open ImpulseTools.Runtime

namespace ImpulseTools

variable {py : Runtime} {table : List Contract} {seed : ℤ} {draws : List Draw}

def IsAscii (t : Text) : Prop := ∀ c ∈ t, c.toNat < 128

instance decidableIsAscii (t : Text) : Decidable (IsAscii t) := decidableForallMem t

theorem IsAscii.append {s t : Text} (hs : IsAscii s) (ht : IsAscii t) : IsAscii (s ++ t) :=
  fun c hc => (List.mem_append.mp hc).elim (hs c) (ht c)

theorem isAscii_of_forall_isDigit {t : Text} (h : ∀ c ∈ t, c.isDigit) : IsAscii t := by
  intro c hc
  have := toNat_of_isDigit (h c hc)
  omega

theorem isAscii_operand {op : Op} {dst src aux1 n : ℕ} {args : List Text}
    (h : formatOperands op dst src aux1 n = some args) : ∀ a ∈ args, IsAscii a := by
  have hdigits (n : ℕ) : IsAscii (decimalText n) :=
    isAscii_of_forall_isDigit fun _ hc => isDigit_of_mem_decimalText hc
  intro a ha
  rcases mem_formatOperands h ha with ⟨r, -, rfl⟩ | ⟨k, rfl⟩ | ⟨k, rfl⟩
  · exact IsAscii.append (s := ['R']) (by decide) (hdigits r)
  · exact hdigits k
  · intro c hc
    rcases mem_centText hc with rfl | hc
    · decide
    · exact isAscii_of_forall_isDigit (t := [c]) (by simpa using hc) c List.mem_cons_self

theorem isAscii_formatLine {pc blanks : ℕ} {op : Op} {args : List Text}
    (h : ∀ a ∈ args, IsAscii a) : IsAscii (formatLine (hexPc pc) op blanks args) := by
  have hname : ∀ o ∈ Op.opcodes ++ Op.opcodeAliases, ∀ c ∈ o.name, c.toNat < 128 := by
    decide +kernel
  have hdigit : ∀ c ∈ chars "x0123456789ABCDEF", c.toNat < 128 := by decide
  refine .append (.append ?_ (by decide)) (.append ?_ (.append ?_ ?_))
  · exact fun c hc => hdigit c (mem_hexPc hc)
  · exact hname op (Op.mem_names op)
  · intro c hc
    rw [List.eq_of_mem_replicate hc]
    decide
  · intro c hc
    rcases Scan.mem_intercalate hc with ⟨a, ha, hca⟩ | hc
    · exact h a ha c hca
    · have : ∀ c ∈ chars ", ", c.toNat < 128 := by decide
      exact this c hc

theorem exists_formatLine {line : Text} (h : line ∈ codeLines table draws) :
    ∃ pc op blanks args, line = formatLine (hexPc pc) op blanks args ∧ ArgsOk blanks args ∧
      ∀ a ∈ args, IsAscii a := by
  rcases List.mem_append.mp h with h | h
  · obtain ⟨e, he, rfl⟩ := List.mem_map.mp h
    obtain ⟨pc, s, op, args, hem⟩ := (trace_fuzzRun table draws).exists_emits e he
    obtain ⟨aux1, n, -, hargs⟩ := hem.operands
    exact ⟨pc, op, _, args, hem.line_eq, argsOk_formatOperands hargs (Nat.succ_ne_zero _),
      isAscii_operand hargs⟩
  · exact ⟨_, .halt, 0, [], List.mem_singleton.mp h, ⟨fun _ => rfl, fun h => absurd rfl h, nofun⟩,
      nofun⟩

theorem preamble_eq (seed : ℤ) : preamble seed =
    (chars "; CONTRACT-GUIDED FUZZ TEST (Seed: " ++ intText seed ++ chars ")") :: fixedLines := rfl

theorem isAscii_generateProgram (table : List Contract) (seed : ℤ) (draws : List Draw) :
    IsAscii (generateProgram table seed draws) := by
  have hfixed : ∀ line ∈ fixedLines, ∀ c ∈ line, c.toNat < 128 := by decide +kernel
  have hseed : IsAscii (intText seed) := by
    intro c hc
    rcases mem_intText hc with rfl | hc
    · decide
    · exact isAscii_of_forall_isDigit (t := [c]) (by simpa using hc) c List.mem_cons_self
  have hlines : ∀ line ∈ programLines table seed draws, IsAscii line := by
    intro line hl
    rw [programLines_eq, preamble_eq] at hl
    rcases List.mem_append.mp hl with hl | hl
    · rcases List.mem_cons.mp hl with rfl | hl
      · exact .append (.append (by decide) hseed) (by decide)
      · exact hfixed line hl
    · obtain ⟨pc, op, blanks, args, rfl, -, hargs⟩ := exists_formatLine hl
      exact isAscii_formatLine hargs
  intro c hc
  obtain ⟨line, hl, hc⟩ := List.mem_flatMap.mp hc
  exact (hlines line hl).append (t := ['\n']) (by decide) c hc

theorem findIter_header (seed : ℤ) : Scan.findIter expectAt
    (chars "; CONTRACT-GUIDED FUZZ TEST (Seed: " ++ intText seed ++ chars ")") = [] := by
  have hsign {c : Char} (hc : c ∈ intText seed) : c ≠ ';' := by
    rintro rfl
    rcases mem_intText hc with hc | hc <;> exact absurd hc (by decide)
  refine (Scan.findIter_cons_of_none rfl).trans (findIter_expectAt ?_)
  intro hc
  rcases List.mem_append.mp hc with hc | hc
  · rcases List.mem_append.mp hc with hc | hc
    · exact absurd hc (by decide)
    · exact hsign hc rfl
  · exact absurd hc (by decide)

theorem condition_generateProgram {a : Text}
    (h : a ∈ (annotationLines (generateProgram table seed draws)).flatten) :
    py.condition a = some (.status (chars "IMPULSE_VM_OK")) := by
  have hstatus : ∀ a ∈ Scan.findIter expectAt
      (Text.strip (chars "; \x7bEXPECT: STATUS = IMPULSE_VM_OK\x7d")),
      keyValue a = some (chars "STATUS", chars "IMPULSE_VM_OK") := by decide +kernel
  have hfixed : ∀ line ∈ fixedLines.tail, ';' ∉ line := by decide +kernel
  have hnone (line : Text) (h : ';' ∉ line) : Scan.findIter expectAt line.strip = [] :=
    findIter_expectAt fun hc => h (Scan.mem_of_mem_trim hc)
  obtain ⟨as, has, ha⟩ := List.mem_flatten.mp h
  rw [annotationLines, universalNewlines_generateProgram, readlines_generateProgram, List.map_map,
    List.mem_map] at has
  obtain ⟨line, hl, rfl⟩ := has
  have hstrip : Text.strip (line ++ ['\n']) = Text.strip line := Scan.trim_concat (by decide)
  rw [Function.comp_apply, hstrip] at ha
  rw [programLines_eq, preamble_eq] at hl
  rcases List.mem_append.mp hl with hl | hl
  · rcases List.mem_cons.mp hl with rfl | hl
    · rw [strip_header, findIter_header] at ha
      cases ha
    · rcases List.mem_cons.mp hl with rfl | hl
      · rw [condition, hstatus a ha]
        rfl
      · rw [hnone line (hfixed line hl)] at ha
        cases ha
  · obtain ⟨pc, op, blanks, args, rfl, hargs, -⟩ := exists_formatLine hl
    rw [hnone _ (not_mem_formatLine (fun c hc => isTokenChar_hexPc hc) hargs (by decide)
      (by decide))] at ha
    cases ha

theorem get_generateProgram {K : Constants} {p : Program} {t : Target} {v : Value}
    (h : (py.parseImpasFile K (generateProgram table seed draws)).1 = .ok p)
    (hv : p.expectations.get t = some v) : t = .status ∧ v = .text (chars "IMPULSE_VM_OK") := by
  rw [expectations_get h] at hv
  rcases kept_cases hv with ⟨a, ha, c, hc, hw⟩ | hdefault
  · rw [condition_generateProgram ha] at hc
    obtain rfl := Option.some.inj hc
    obtain ⟨rfl, rfl⟩ := Prod.ext_iff.mp (Option.some.inj hw)
    exact ⟨rfl, rfl⟩
  · exact hdefault

theorem expected_generateProgram {K : Constants} {p : Program} {s : Engine → EngineState}
    (h : (py.parseImpasFile K (generateProgram table seed draws)).1 = .ok p) :
    Expected s p.expectations ↔ ∀ e, (s e).status = chars "IMPULSE_VM_OK" := by
  have hget {t : Target} {v : Value} (hv : p.expectations.get t = some v) :
      t = .status ∧ v = .text (chars "IMPULSE_VM_OK") := get_generateProgram h hv
  have hstatus : p.expectations.status = chars "IMPULSE_VM_OK" :=
    Value.text.inj (hget (t := .status) rfl).2
  constructor
  · intro hx e
    have := hx.status (by rw [hstatus]; decide) e
    rwa [hstatus] at this
  · intro hs
    have hnone {t : Target} {α : Type} {o : Option α} {f : α → Value} {y : α}
        (ht : t ≠ .status) (hg : p.expectations.get t = o.map f) : o ≠ some y := by
      rintro rfl
      exact ht (hget hg).1
    constructor
    · rw [hstatus]
      exact fun _ => hs
    · exact fun y hy => absurd hy (hnone (t := .pc) nofun rfl)
    · exact fun y hy => absurd hy (hnone (t := .flagZf) nofun rfl)
    · exact fun y hy => absurd hy (hnone (t := .flagSt) nofun rfl)
    · exact fun r hr => absurd (AList.mem_lookup_iff.mpr hr) (hnone (t := .register r.1) nofun rfl)

namespace Fuzzer

variable {e : FourWay.Engines} {o : Options} {K : Constants} {f : TestFile} {p : Program} {i n : ℕ}

theorem consensus_iff_ok_nil {r : Except HarnessErr (List Diff)} : consensus r ↔ r = .ok [] := by
  unfold consensus
  split
  · exact iff_of_true rfl rfl
  · rename_i hne
    exact iff_of_false Bool.false_ne_true hne

theorem consensus_verdict : consensus (verdict e f p) ↔ p.instructions ≠ [] ∧
    ∃ java ocaml, e.java f (impb p.instructions) p.data = .ok java ∧
      e.ocaml (impb p.instructions) p.data = .ok ocaml ∧
      Matching (FourWay.engineStates e p java ocaml) none ∧
      RegistersAgree (FourWay.engineStates e p java ocaml) .cppOn := by
  rw [consensus_iff_ok_nil]
  unfold verdict
  cases hj : e.java f (impb p.instructions) p.data with
  | error x => exact iff_of_false nofun fun ⟨_, _, _, hj', _⟩ => nomatch hj'
  | ok java =>
    cases ho : e.ocaml (impb p.instructions) p.data with
    | error x => exact iff_of_false nofun fun ⟨_, _, _, _, ho', _⟩ => nomatch ho'
    | ok ocaml =>
      by_cases hp : p.instructions = []
      · rw [FourWay.stateOf_eq_none.mpr hp]
        exact iff_of_false nofun fun h => h.1 hp
      · rw [FourWay.stateOf, FourWay.stateOf, if_neg hp, if_neg hp]
        dsimp only
        rw [Except.ok.injEq, compareState_eq_nil]
        constructor
        · exact fun h => ⟨hp, java, ocaml, rfl, rfl, h⟩
        · rintro ⟨-, _, _, ⟨⟩, ⟨⟩, h⟩
          exact h

def statusOn (e : FourWay.Engines) (p : Program) : Text :=
  (execute e.libOn e.enableFuel p).1.status

/-- What the four-way campaign asks as well. -/
theorem accepts_iff_consensus (h : (py.parseImpasFile K (o.progText i)).1 = .ok p)
    (hjava : e.java f = e.java (o.tempImpas (o.progText i))) :
    FourWay.Accepts e f p ↔ consensus (outcome py e o K i) ∧
      statusOn e p = chars "IMPULSE_VM_OK" := by
  have houtcome : outcome py e o K i = verdict e (o.tempImpas (o.progText i)) p := by
    simp only [outcome, Options.tempImpas, h]
  have hexpected {s : Engine → EngineState} :
      Matching s (some p.expectations) ↔ Matching s none ∧ (s .cppOn).status =
        chars "IMPULSE_VM_OK" := by
    constructor
    · rintro ⟨hfields, hx⟩
      have hs := (expected_generateProgram h).mp (hx _ rfl)
      exact ⟨⟨hfields, fun x hx => absurd hx (Option.some_ne_none x).symm⟩, hs .cppOn⟩
    · rintro ⟨⟨hfields, -⟩, hs⟩
      refine ⟨hfields, fun x hx => ?_⟩
      obtain rfl := Option.some.inj hx
      exact (expected_generateProgram h).mpr fun e => (hfields.status e .cppOn).trans hs
  have hon (java ocaml : EngineState) :
      (FourWay.engineStates e p java ocaml .cppOn).status = statusOn e p := rfl
  rw [houtcome, consensus_verdict, FourWay.Accepts, hjava]
  simp only [hexpected, hon]
  constructor
  · rintro ⟨hp, java, ocaml, hj, ho, ⟨hm, hs⟩, hr⟩
    exact ⟨⟨hp, java, ocaml, hj, ho, hm, hr⟩, hs⟩
  · rintro ⟨⟨hp, java, ocaml, hj, ho, hm, hr⟩, hs⟩
    exact ⟨hp, java, ocaml, hj, ho, ⟨hm, hs⟩, hr⟩

def savedAs (o : Options) (path : ℕ → List Text × Text) (i : ℕ) : TestFile :=
  ⟨(path i).1, (path i).2, o.progText i⟩

/-- Every program that is assembled ends with the status `OK`. -/
def EndsOk (py : Runtime) (e : FourWay.Engines) (o : Options) (K : Constants) (i : ℕ) : Prop :=
  ∀ p, (py.parseImpasFile K (o.progText i)).1 = .ok p → statusOn e p = chars "IMPULSE_VM_OK"

theorem boundNames_generateProgram : py.boundNames (generateProgram table seed draws) = [] := by
  rw [boundNames, universalNewlines_generateProgram, findIter_relAt, findIter_vrelAt]
  rfl

variable {path : ℕ → List Text × Text}

theorem exists_accepts_iff
    (hjava : e.java (savedAs o path i) = e.java (o.tempImpas (o.progText i))) :
    (∃ p, (py.parseImpasFile K (savedAs o path i).text).1 = .ok p ∧
      FourWay.Accepts e (savedAs o path i) p) ↔
      consensus (outcome py e o K i) ∧ EndsOk py e o K i := by
  change (∃ p, (py.parseImpasFile K (o.progText i)).1 = .ok p ∧ _) ↔ _
  unfold EndsOk
  cases hr : (py.parseImpasFile K (o.progText i)).1 with
  | error x =>
    have houtcome : outcome py e o K i = .error (.parse x) := by
      simp only [outcome, Options.tempImpas, hr]
    rw [houtcome]
    apply iff_of_false
    · rintro ⟨p, hp, -⟩
      cases hp
    · exact fun h => Bool.false_ne_true h.1
  | ok p =>
    simp only [Except.ok.injEq, exists_eq_left', forall_eq']
    exact accepts_iff_consensus hr hjava

/-- The four-way campaign over saved programs of a fuzzing campaign succeeds exactly if the fuzzer
has counted all of them as consensus and all of them ended well. -/
theorem replay_iff (py : Runtime) (e : FourWay.Engines) (o : Options) (s : FourWay.Process)
    (n : ℕ) (path : ℕ → List Text × Text)
    (hjava : ∀ i < n, e.java (savedAs o path i) = e.java (o.tempImpas (o.progText i))) :
    FourWay.main py e s ((List.range n).map (savedAs o path)) = 0 ↔
      (run py e o s n).passedCount = n ∧ ∀ i < n, EndsOk py e o s.constants i := by
  have hseparate : ((List.range n).map (savedAs o path)).Pairwise (Separate py) := by
    apply List.pairwise_of_forall_mem_list
    intro f hf g hg
    obtain ⟨i, -, rfl⟩ := List.mem_map.mp hf
    obtain ⟨j, -, rfl⟩ := List.mem_map.mp hg
    have hbound (i : ℕ) : py.boundNames (savedAs o path i).text = [] := boundNames_generateProgram
    exact ⟨fun t _ => by simp [hbound], fun t _ => by simp [hbound]⟩
  have hcount : (run py e o s n).passedCount = n ↔
      ∀ i < n, consensus (outcome py e o s.constants i) := by
    have hn : n = (List.range n).length := List.length_range.symm
    rw [(run_leaves py e o s n).passedCount]
    nth_rewrite 2 [hn]
    simp only [List.countP_eq_length, List.mem_range]
  rw [FourWay.main_eq_zero, FourWay.failedCount_run,
    exists_assembles_iff hseparate fun _ _ _ _ => rfl, hcount, List.forall_mem_map,
    ← forall₂_and]
  refine forall_congr' fun i => ?_
  rw [List.mem_range]
  exact forall_congr' fun hi => exists_accepts_iff (hjava i hi)

/-- Whatever a fuzzing campaign adds to the files is a program on which the four-way campaign
fails. -/
theorem run_adds_failing (py : Runtime) (e : FourWay.Engines) (o : Options) (s : FourWay.Process)
    (n : ℕ) (hjava : ∀ i < n, ∀ f : TestFile, f.text = o.progText i →
      e.java f = e.java (o.tempImpas (o.progText i)))
    {path : List Text × Text} (hp : path ∉ o.temporaries)
    (hne : (run py e o s n).files path ≠ s.files path) :
    ∃ bytes, (run py e o s n).files path = some bytes ∧
      ∀ fs, FourWay.main py e ⟨s.constants, fs⟩ [⟨path.1, path.2, bytesText bytes⟩] = 1 := by
  have hleaves := run_leaves py e o s n
  obtain ⟨i, hi, hd, rfl⟩ : ∃ i < n, diverges (outcome py e o s.constants i) ∧
      path = o.reproPath i := by
    by_contra hnot
    exact hne (hleaves.others path hp fun i hi hd heq => hnot ⟨i, hi, hd, heq⟩)
  refine ⟨_, hleaves.repros i hi hd, fun fs => ?_⟩
  have hread : bytesText (textBytes (o.progText i)) = o.progText i :=
    bytesText_textBytes (isAscii_generateProgram _ _ _)
  rw [hread]
  have hfail : FourWay.main py e ⟨s.constants, fs⟩ [savedAs o (fun _ => o.reproPath i) i] ≠ 0 := by
    rw [Ne, FourWay.main_eq_zero, FourWay.failedCount_run,
      exists_assembles_iff (List.pairwise_singleton _ _) fun _ _ _ _ => rfl,
      List.forall_mem_singleton, exists_accepts_iff (hjava i hi _ rfl)]
    rintro ⟨hc, -⟩
    rw [consensus_iff_ok_nil.mp hc] at hd
    exact Bool.false_ne_true hd
  have hle : FourWay.main py e ⟨s.constants, fs⟩ [savedAs o (fun _ => o.reproPath i) i] ≤ 1 :=
    FourWay.main_le_one
  exact le_antisymm hle (Nat.one_le_iff_ne_zero.mpr hfail)

def oneOption : Options := ⟨contracts, 168, fun _ => draws168, [chars "tools"], [chars "findings"]⟩

theorem exists_outcome_eq (hpy : py.ReadsCents) (e : FourWay.Engines) (o : Options) (i : ℕ) :
    ∃ p, (py.parseImpasFile constants (o.progText i)).1 = .ok p ∧ p.instructions ≠ [] ∧
      outcome py e o constants i = verdict e (o.tempImpas (o.progText i)) p := by
  obtain ⟨p, pre, words, hp, hi, -⟩ := parse_generateProgram hpy o.table (o.seed + i)
    (o.draws (o.seed + i))
  have hp : (py.parseImpasFile constants (o.progText i)).1 = .ok p := congrArg Prod.fst hp
  refine ⟨p, hp, ?_, ?_⟩
  · rw [hi]
    simp
  · simp only [outcome, Options.tempImpas, hp]

theorem replay_idle :
    FourWay.main .decimals FourWay.idleEngines ⟨constants, FourWay.noFiles⟩
      ((List.range 3).map (savedAs oneOption fun i => ([], decimalText i))) = 0 := by
  rw [replay_iff .decimals FourWay.idleEngines oneOption ⟨constants, FourWay.noFiles⟩ 3 _
    fun _ _ => rfl]
  constructor
  · rw [(run_leaves _ _ _ _ _).passedCount]
    nth_rewrite 2 [← List.length_range (n := 3)]
    rw [List.countP_eq_length]
    intro i _
    obtain ⟨p, -, hne, houtcome⟩ :=
      exists_outcome_eq readsCents_decimals FourWay.idleEngines oneOption i
    rw [houtcome, consensus_verdict]
    refine ⟨hne, _, _, rfl, rfl, ?_⟩
    have hstates : FourWay.engineStates FourWay.idleEngines p
        (ImpulseTools.runCpp [] (flagsOutcome 0)) (ImpulseTools.runCpp [] (flagsOutcome 0)) =
          fun _ => ImpulseTools.runCpp [] (flagsOutcome 0) := by
      ext1 engine
      cases engine <;> rfl
    rw [hstates, ← compareState_eq_nil, compareState_none_eq_nil]
    exact ⟨⟨fun _ _ => rfl, fun _ _ => rfl, fun _ _ => rfl, fun _ _ => rfl, fun _ _ => rfl⟩,
      fun _ _ _ _ _ => rfl⟩
  · exact fun i _ p _ => rfl

/-- Engines of which one stops at another instruction than the others. -/
def strayEngines : FourWay.Engines :=
  { FourWay.idleEngines with
    java := fun _ _ _ => .ok { ImpulseTools.runCpp [] (flagsOutcome 0) with pc := 1 } }

theorem diverges_stray (i : ℕ) :
    diverges (outcome .decimals strayEngines oneOption constants i) := by
  obtain ⟨p, -, hne, houtcome⟩ := exists_outcome_eq readsCents_decimals strayEngines oneOption i
  have hnot : ¬ consensus (outcome .decimals strayEngines oneOption constants i) := by
    rw [houtcome, consensus_verdict]
    rintro ⟨-, java, ocaml, hj, -, ⟨hfields, -⟩, -⟩
    obtain rfl := Except.ok.inj hj
    have hpc : (0 : ℤ) = 1 := hfields.pc .cppOn .java
    exact absurd hpc (by decide)
  have hok : ∃ ds, outcome .decimals strayEngines oneOption constants i = .ok ds := by
    rw [houtcome, verdict, FourWay.stateOf, FourWay.stateOf, if_neg hne, if_neg hne]
    exact ⟨_, rfl⟩
  obtain ⟨ds, hds⟩ := hok
  rw [hds] at hnot ⊢
  cases ds with
  | nil => exact absurd rfl hnot
  | cons d ds => rfl

theorem run_adds_failing_stray :
    ∃ bytes, (run .decimals strayEngines oneOption ⟨constants, FourWay.noFiles⟩ 1).files
        ([chars "findings"], chars "fuzz_repro_seed_168.impas") = some bytes ∧
      ∀ fs, FourWay.main .decimals strayEngines ⟨constants, fs⟩
        [⟨[chars "findings"], chars "fuzz_repro_seed_168.impas", bytesText bytes⟩] = 1 := by
  have hpath : oneOption.reproPath 0 =
      ([chars "findings"], chars "fuzz_repro_seed_168.impas") := by decide +kernel
  have hne : (run .decimals strayEngines oneOption ⟨constants, FourWay.noFiles⟩ 1).files
      (oneOption.reproPath 0) ≠ FourWay.noFiles (oneOption.reproPath 0) := by
    have hleaves := run_leaves .decimals strayEngines oneOption ⟨constants, FourWay.noFiles⟩ 1
    rw [hleaves.repros 0 Nat.one_pos (diverges_stray 0)]
    exact Option.some_ne_none _
  have hfails := run_adds_failing .decimals strayEngines oneOption ⟨constants, FourWay.noFiles⟩ 1
    (fun _ _ _ _ => rfl) (reproPath_not_mem oneOption 0) hne
  rwa [hpath] at hfails

end Fuzzer

end ImpulseTools

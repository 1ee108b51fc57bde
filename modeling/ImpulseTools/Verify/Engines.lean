import ImpulseTools.Asm.Image
import ImpulseTools.Asm.Table
import ImpulseTools.Verify.Coverage

/-! # Running a file on the engines

What the harnesses hand to the engines, and the files they leave. The engines are programs of
their own: a function of what they are given, which may fail.
-/

open ImpulseTools.Runtime

namespace ImpulseTools

/-- A shared library of the virtual machine. From a program, the inline data bound to its context
and its fuel come the state after `impulse_vm_execute` and the text of the state's hash. -/
abbrev Library := List Instruction → Option (List Byte) → Option (BitVec 64) → Outcome × Text

inductive HarnessErr where
  | parse (e : PyErr)
  /-- `TypeError: argument of type 'NoneType' is not iterable` -/
  | noneState
  /-- What `run_java` or `run_ocaml` raises. -/
  | engine (message : Text)

/-- The fuel of the context. The variable `IMPULSE_TEST_ENABLE_FUEL` counts for the files that do
not set it. -/
def contextFuel (enableFuel : Bool) (e : Expectations) : Option (BitVec 64) :=
  match e.fuel with
  | some v => some (.ofInt 64 v)
  | none => if enableFuel then some 1000000 else none

def execute (lib : Library) (enableFuel : Bool) (p : Program) : Outcome × Text :=
  lib p.instructions (if p.data = [] then none else some p.data)
    (contextFuel enableFuel p.expectations)

abbrev FileSystem := List Text × Text → Option (List Byte)

def FileSystem.write (fs : FileSystem) (path : List Text × Text) (bytes : List Byte) : FileSystem :=
  Function.update fs path (some bytes)

/-- The part of a name before its last dot, which is not the first character, and the part after
it, which is not empty. -/
def suffixParts (name : Text) : Option (Text × Text) :=
  let stem := (name.rdropWhile (· ≠ '.')).dropLast
  let ext := name.rtakeWhile (· ≠ '.')
  if stem = [] ∨ ext = [] then none else some (stem, ext)

def withSuffix (path : List Text × Text) (suffix : Text) : List Text × Text :=
  match suffixParts path.2 with
  | some (stem, _) => (path.1, stem ++ suffix)
  | none => (path.1, path.2 ++ suffix)

theorem suffixParts_append {stem ext : Text} (hs : stem ≠ []) (he : ext ≠ []) (h : '.' ∉ ext) :
    suffixParts (stem ++ '.' :: ext) = some (stem, ext) := by
  have hrev : (stem ++ '.' :: ext).reverse = ext.reverse ++ '.' :: stem.reverse := by simp
  have hext : ∀ c ∈ ext.reverse, decide (c ≠ '.') := by
    intro c hc
    exact decide_eq_true fun hdot => h (hdot ▸ List.mem_reverse.mp hc)
  have hdrop : (stem ++ '.' :: ext).rdropWhile (· ≠ '.') = stem ++ ['.'] := by
    rw [List.rdropWhile, hrev, List.dropWhile_append_of_pos hext]
    simp
  have htake : (stem ++ '.' :: ext).rtakeWhile (· ≠ '.') = ext := by
    rw [List.rtakeWhile, hrev, List.takeWhile_append_of_pos hext]
    simp
  rw [suffixParts, hdrop, htake, List.dropLast_concat, if_neg (not_or.mpr ⟨hs, he⟩)]

/-- The name of a test file, with something before its suffix. -/
def IsImpas (name : Text) : Prop := ∃ stem, stem ≠ [] ∧ name = stem ++ chars ".impas"

theorem withSuffix_of_isImpas (dir : List Text) {name : Text} (h : IsImpas name) (suffix : Text) :
    ∃ stem, name = stem ++ chars ".impas" ∧
      withSuffix (dir, name) suffix = (dir, stem ++ suffix) := by
  obtain ⟨stem, hs, rfl⟩ := h
  refine ⟨stem, rfl, ?_⟩
  have hparts : suffixParts (stem ++ chars ".impas") = some (stem, chars "impas") :=
    suffixParts_append hs (by decide) (by decide)
  simp only [withSuffix, hparts]

theorem withSuffix_injOn (path path' : List Text × Text) (h : IsImpas path.2) (h' : IsImpas path'.2)
    {suffix : Text} (he : withSuffix path suffix = withSuffix path' suffix) : path = path' := by
  obtain ⟨stem, hstem, hs⟩ := withSuffix_of_isImpas path.1 h suffix
  obtain ⟨stem', hstem', hs'⟩ := withSuffix_of_isImpas path'.1 h' suffix
  rw [hs, hs', Prod.mk.injEq] at he
  apply Prod.ext he.1
  rw [hstem, hstem', List.append_cancel_right he.2]

section

variable {py : Runtime} {K : Constants} {f : TestFile} {files : List TestFile}

theorem assembles_cons {programs : List Program} :
    Assembles py K (f :: files) programs ↔ ∃ p K' ps, py.parseImpasFile K f.text = (.ok p, K') ∧
      Assembles py K' files ps ∧ programs = p :: ps := by
  constructor
  · rintro (_ | ⟨hp, hs⟩)
    exact ⟨_, _, _, hp, hs, rfl⟩
  · rintro ⟨p, K', ps, hp, hs, rfl⟩
    exact .cons hp hs

/-- A loop over the files that fails those which are not assembled and those which it does not
accept, and leaves `CONSTANTS` as if each had been parsed once. -/
structure Judges (py : Runtime) {σ : Type} (turn : σ → TestFile → σ) (constants : σ → Constants)
    (failed : σ → ℕ) (accepts : TestFile → Program → Prop) : Prop where
  of_error : ∀ s f x K, py.parseImpasFile (constants s) f.text = (.error x, K) →
    failed (turn s f) ≠ 0
  of_ok : ∀ s f p K, py.parseImpasFile (constants s) f.text = (.ok p, K) →
    SameTable (constants (turn s f)) K ∧ (failed (turn s f) = 0 ↔ failed s = 0 ∧ accepts f p)

/-- Nothing fails exactly if all files are assembled, one after the other, and accepted. -/
theorem Judges.foldl {σ : Type} {turn : σ → TestFile → σ} {constants : σ → Constants}
    {failed : σ → ℕ} {accepts : TestFile → Program → Prop}
    (h : Judges py turn constants failed accepts) {s : σ} (hK : SameTable (constants s) K)
    (files : List TestFile) :
    failed (files.foldl turn s) = 0 ↔ failed s = 0 ∧
      ∃ programs, Assembles py K files programs ∧ List.Forall₂ accepts files programs := by
  induction files generalizing s K with
  | nil => exact ⟨fun h => ⟨h, [], .nil, .nil⟩, And.left⟩
  | cons f files ih =>
    obtain ⟨hr, hnext⟩ := parseImpasFile_sameTable py hK f.text
    rw [List.foldl_cons]
    rcases hs : py.parseImpasFile (constants s) f.text with ⟨r, K₁⟩
    rcases hk : py.parseImpasFile K f.text with ⟨r', K₁'⟩
    rw [hs, hk] at hr hnext
    obtain rfl : r = r' := hr
    cases r with
    | error x =>
      refine iff_of_false (fun hf => h.of_error s f x K₁ hs (ih (SameTable.refl _) |>.mp hf).1) ?_
      rintro ⟨-, programs, ha, -⟩
      obtain ⟨p, K', -, hp, -⟩ := assembles_cons.mp ha
      rw [hk] at hp
      cases hp
    | ok p =>
      obtain ⟨hconst, hfailed⟩ := h.of_ok s f p K₁ hs
      rw [ih (hconst.trans hnext), hfailed, and_assoc]
      refine and_congr_right fun _ => ?_
      constructor
      · rintro ⟨hacc, programs, ha, hall⟩
        exact ⟨p :: programs, .cons hk ha, .cons hacc hall⟩
      · rintro ⟨programs, ha, hall⟩
        obtain ⟨p', K', ps, hp, ha, rfl⟩ := assembles_cons.mp ha
        rw [hk] at hp
        cases hp
        obtain ⟨hacc, hall⟩ := List.forall₂_cons.mp hall
        exact ⟨hacc, ps, ha, hall⟩

/-- Neither file binds a name that the other leaves free. -/
structure Separate (py : Runtime) (f g : TestFile) : Prop where
  left : ∀ t ∈ py.freeTokens f.text, t ∉ py.boundNames g.text
  right : ∀ t ∈ py.freeTokens g.text, t ∉ py.boundNames f.text

theorem Separate.symm {g : TestFile} (h : Separate py f g) : Separate py g f := ⟨h.right, h.left⟩

/-- Files apart from each other are assembled as each of them is in the table they start from. -/
theorem exists_assembles_iff {K₀ : Constants} {accepts : TestFile → Program → Prop}
    (hs : files.Pairwise (Separate py))
    (hK : ∀ f ∈ files, ∀ t ∈ py.freeTokens f.text, py.parseVal K t = py.parseVal K₀ t) :
    (∃ programs, Assembles py K files programs ∧ List.Forall₂ accepts files programs) ↔
      ∀ f ∈ files, ∃ p, (py.parseImpasFile K₀ f.text).1 = .ok p ∧ accepts f p := by
  induction files generalizing K with
  | nil => exact iff_of_true ⟨[], .nil, .nil⟩ (List.forall_mem_nil _)
  | cons f files ih =>
    obtain ⟨hf, hs⟩ := List.pairwise_cons.mp hs
    obtain ⟨hKf, hKs⟩ := List.forall_mem_cons.mp hK
    have hparse := parseImpasFile_congr hKf
    have hrest (K' : Constants) (h : K' = (py.parseImpasFile K f.text).2) :
        ∀ g ∈ files, ∀ t ∈ py.freeTokens g.text, py.parseVal K' t = py.parseVal K₀ t := by
      rintro g hg t ht
      rw [h, parseVal_parseImpasFile ((hf g hg).right t ht), hKs g hg t ht]
    rw [List.forall_mem_cons, ← hparse]
    constructor
    · rintro ⟨programs, ha, hall⟩
      obtain ⟨p, K', ps, hp, hps, rfl⟩ := assembles_cons.mp ha
      obtain ⟨hacc, hall⟩ := List.forall₂_cons.mp hall
      rw [← ih hs (hrest K' (by rw [hp])), hp]
      exact ⟨⟨p, rfl, hacc⟩, ps, hps, hall⟩
    · rintro ⟨⟨p, hp, hacc⟩, hall⟩
      rw [← ih hs (hrest _ rfl)] at hall
      obtain ⟨ps, ha, hall⟩ := hall
      exact ⟨p :: ps, .cons (Prod.ext hp rfl) ha, .cons hacc hall⟩

theorem exists_assembles_perm {files' : List TestFile} {accepts : TestFile → Program → Prop}
    (hperm : files.Perm files') (hs : files.Pairwise (Separate py)) :
    (∃ programs, Assembles py K files programs ∧ List.Forall₂ accepts files programs) ↔
      ∃ programs, Assembles py K files' programs ∧ List.Forall₂ accepts files' programs := by
  have hs' : files'.Pairwise (Separate py) := hperm.pairwise hs Separate.symm
  rw [exists_assembles_iff hs fun _ _ _ _ => rfl, exists_assembles_iff hs' fun _ _ _ _ => rfl]
  simp only [hperm.mem_iff]

end

end ImpulseTools

import ImpulseTools.Asm.InlineLoad
import ImpulseTools.Asm.Isolation

/-! # The tokens of a file

Which names the tables hold that the lines of a file are read with, and as what each token of an
accepted file is read.
-/

namespace ImpulseTools

def Directive.name : Directive → Text
  | .csrInline name _ | .arrayFloat name _ | .arrayInt name _ => name

namespace Runtime

/-- The names of the tables the lines of a file are read with. -/
structure Tables (py : Runtime) (K : Constants) (text : Text) (env : Env) : Prop where
  mem_constants : ∀ t, t ∈ env.constants ↔ t ∈ K ∨ t ∈ py.boundNames text
  mem_symbols : ∀ t, t ∈ env.symbols ↔
    (∃ d ∈ py.directives text.universalNewlines, d.name = t) ∨ t ∈ py.boundNames text

variable {py : Runtime} {K K₁ : Constants} {t : Text} {ms : List (Text × Text)} {s s₁ : Symbols}

theorem mem_tables_bindRels (h : py.bindRels ms s K = (.ok s₁, K₁)) :
    (t ∈ K₁ ↔ t ∈ K ∨ t ∈ ms.map Prod.fst) ∧ (t ∈ s₁ ↔ t ∈ s ∨ t ∈ ms.map Prod.fst) := by
  induction ms generalizing s K with
  | nil =>
    cases h
    simp
  | cons m ms ih =>
    unfold bindRels at h
    split at h
    · cases h
    · obtain ⟨hK, hs⟩ := ih h
      rw [hK, hs, AList.mem_insert, AList.mem_insert, List.map_cons, List.mem_cons]
      tauto

theorem mem_tables_bindVrels (h : py.bindVrels ms s K = (.ok s₁, K₁)) :
    (t ∈ K₁ ↔ t ∈ K ∨ t ∈ ms.map Prod.fst) ∧ (t ∈ s₁ ↔ t ∈ s ∨ t ∈ ms.map Prod.fst) := by
  induction ms generalizing s K with
  | nil =>
    cases h
    simp
  | cons m ms ih =>
    unfold bindVrels at h
    split at h
    · cases h
    · obtain ⟨hK, hs⟩ := ih h
      rw [hK, hs, AList.mem_insert, AList.mem_insert, List.map_cons, List.mem_cons]
      tauto

theorem Describes.name_eq {dir : Directive} {b : Block} (h : py.Describes dir b) :
    b.name = dir.name := by
  cases h <;> rfl

theorem Tiled.mem_symbols {dirs : List Directive} {blocks : List Block} {d : DataSection}
    (h : Tiled py dirs blocks d) : t ∈ d.symbols ↔ ∃ dir ∈ dirs, dir.name = t := by
  rw [← AList.lookup_isSome, Option.isSome_iff_exists]
  constructor
  · rintro ⟨s, hs⟩
    obtain ⟨k, b, hk, hb, -⟩ := (h.lookup_iff t s).mp hs
    obtain ⟨dir, hdir, hd⟩ := ExceptFold.exists_of_mem_right h.describes (List.mem_of_getElem? hk)
    exact ⟨dir, hdir, hd.name_eq.symm.trans hb⟩
  · rintro ⟨dir, hdir, rfl⟩
    obtain ⟨b, hb, hd⟩ := ExceptFold.exists_of_mem_left h.describes hdir
    obtain ⟨k, b', hk, hb', hlast⟩ :=
      exists_last (P := fun b : Block => b.name = dir.name) ⟨b, hb, hd.name_eq⟩
    exact ⟨_, (h.lookup_iff _ _).mpr ⟨k, b', hk, hb', hlast, rfl⟩⟩

theorem tables_of_passes {text : Text} {d : DataSection} {s₂ : Symbols} {K' : Constants}
    (hd : py.dataSection text.universalNewlines = .ok d)
    (hr : py.bindRels (Scan.findIter py.relAt text.universalNewlines) d.symbols K = (.ok s₁, K₁))
    (hv : py.bindVrels (Scan.findIter py.vrelAt text.universalNewlines) s₁ K₁ = (.ok s₂, K')) :
    py.Tables K text ⟨K', s₂, d.intSymbols⟩ := by
  obtain ⟨blocks, ht⟩ := tiled_dataSection hd
  constructor
  · intro t
    rw [(mem_tables_bindVrels hv).1, (mem_tables_bindRels hr).1, boundNames, List.mem_append,
      or_assoc]
  · intro t
    rw [(mem_tables_bindVrels hv).2, (mem_tables_bindRels hr).2, ht.mem_symbols, boundNames,
      List.mem_append, or_assoc]

/-- Each token of an accepted file that is evaluated is a name, a literal that can be read, or a
token that starts with neither `0x` nor `R` and is 0. -/
theorem parseImpasFile_reads {K' : Constants} {text : Text} {p : Program}
    (h : py.parseImpasFile K text = (.ok p, K')) :
    (∃ env units, env.constants = K' ∧ py.Tables K text env ∧ p.instructions = units.flatten ∧
      List.Forall₂ (fun l u => ∃ op o, Op.ofName? l.1 = some op ∧ py.LineReads env op l.2 o ∧
        u = emit op o) (py.instructionLines text) units) ∧
    ∀ env op toks, (∃ u, py.encode env op toks = .ok u) ↔ ∃ o, py.LineReads env op toks o := by
  constructor
  · obtain ⟨d, s₁, K₁, s₂, hd, hr, hv, hp⟩ := parseImpasFile_eq_ok.mp h
    obtain ⟨units, ha⟩ := foldlM_parseLine hp
    refine ⟨_, units, rfl, tables_of_passes hd hr hv, ha.instructions_eq, ha.encodes.imp ?_⟩
    rintro l u ⟨op, hop, he⟩
    obtain ⟨o, ho, rfl⟩ := encode_eq_ok.mp he
    exact ⟨op, o, hop, operands_eq_ok_iff.mp ho, rfl⟩
  · intro env op toks
    simp only [encode_eq_ok, operands_eq_ok_iff]
    constructor
    · rintro ⟨u, o, ho, -⟩
      exact ⟨o, ho⟩
    · rintro ⟨o, ho⟩
      exact ⟨_, o, ho, rfl⟩

def tokenKinds : Text :=
  chars ".set s = [5]\n.rel KNOWS = 1\n" ++
    chars "OP_CSR_WALK R1, 0x2, KNOWS\nOP_LOAD_INLINE_SET R2, s\nOP_MOV R3, r9"

theorem parseImpasFile_reads_kinds :
    ∃ p K', Runtime.ascii.parseImpasFile constants tokenKinds = (.ok p, K') ∧
      ∃ env, ∃ units : List (List Instruction), Runtime.ascii.Tables constants tokenKinds env ∧
        p.instructions = units.flatten ∧ units.length = 3 := by
  obtain ⟨p, hp⟩ := exists_program Runtime.ascii constants tokenKinds (by decide +kernel)
  obtain ⟨⟨env, units, -, ht, hi, hu⟩, -⟩ := parseImpasFile_reads hp
  exact ⟨p, _, hp, env, units, ht, hi, hu.length_eq.symm.trans (by decide +kernel)⟩

/-- A register in lower case is register 0. -/
theorem lower_case_register_reads_zero :
    (Runtime.ascii.parseImpasFile constants (chars "OP_MOV R1, r2")).1.toOption.map
        (·.instructions) = some [⟨0x70, 0, 1, 0⟩] ∧
      Runtime.ascii.instructionLines (chars "OP_MOV R1, r2") =
        [(chars "OP_MOV", [chars "OP_MOV", chars "R1", chars "r2"])] ∧
      2 ∈ (branch .mov [chars "OP_MOV", chars "R1", chars "r2"]).tokens ∧
      chars "r2" ∉ (Runtime.ascii.parseImpasFile constants (chars "OP_MOV R1, r2")).2 ∧
      ¬ Text.startsWith (chars "r2") (chars "R") ∧ ¬ Text.startsWith (chars "r2") (chars "0x") ∧
      ¬ (Runtime.ascii.int (chars "r2")).isOk := by
  refine ⟨?_, ?_, ?_, ?_, ?_, ?_, ?_⟩ <;> decide +kernel

end Runtime

end ImpulseTools

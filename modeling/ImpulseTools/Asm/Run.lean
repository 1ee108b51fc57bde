import ImpulseTools.Asm.Parse
import ImpulseTools.Lib.ExceptFold

/-! # Accepted files

What the loop over the lines does to a file it accepts: each instruction line contributes
its words, in order, and no other line contributes any.
-/

namespace ImpulseTools

namespace Runtime

variable (py : Runtime)

def instructionLines (text : Text) : List (Text × List Text) :=
  text.universalNewlines.readlines.filterMap fun line => py.instructionLine line.strip

def Encodes (env : Env) (l : Text × List Text) (ws : List Instruction) : Prop :=
  ∃ op, Op.ofName? l.1 = some op ∧ py.encode env op l.2 = .ok ws

variable {py}

theorem Encodes.encode_eq {env : Env} {l : Text × List Text} {ws : List Instruction} {op : Op}
    (h : py.Encodes env l ws) (hop : Op.ofName? l.1 = some op) :
    py.encode env op l.2 = .ok ws := by
  obtain ⟨op', hop', he⟩ := h
  obtain rfl := Option.some.inj (hop.symm.trans hop')
  exact he

theorem instructionLine_of_fuel {line : Text} (h : line.startsWith (chars ".fuel")) :
    py.instructionLine line = none := by
  have hdot : line.startsWith ['.'] := Text.startsWith_of_append (q := ['f', 'u', 'e', 'l']) h
  exact if_pos (.inr (.inr hdot))

/-- What a turn of the loop does to the words, the data and the mnemonics. -/
theorem parseLine_cases {env : Env} {p p' : Program} {line : Text}
    (h : py.parseLine env p line = .ok p') :
    p'.data = p.data ∧
    (py.instructionLine line.strip = none ∧ p'.instructions = p.instructions ∧
        p'.opcodesUsed = p.opcodesUsed ∨
      ∃ l op ws, py.instructionLine line.strip = some l ∧ Op.ofName? l.1 = some op ∧
        py.encode env op l.2 = .ok ws ∧ p'.instructions = p.instructions ++ ws ∧
        p'.opcodesUsed = insert op.canonical p.opcodesUsed) := by
  unfold parseLine at h
  simp only [ExceptFold.bind_eq_ok, pure, Except.pure] at h
  obtain ⟨e, -, h⟩ := h
  split at h
  case isTrue hf =>
    obtain ⟨e', -, h⟩ := ExceptFold.bind_eq_ok.mp h
    cases h
    exact ⟨rfl, .inl ⟨instructionLine_of_fuel hf, rfl, rfl⟩⟩
  case isFalse =>
    split at h
    case h_1 hl =>
      cases h
      exact ⟨rfl, .inl ⟨hl, rfl, rfl⟩⟩
    case h_2 name toks hl =>
      split at h
      · cases h
      · rename_i op hop
        obtain ⟨ws, hws, h⟩ := ExceptFold.bind_eq_ok.mp h
        cases h
        exact ⟨rfl, .inr ⟨_, op, ws, hl, hop, hws, rfl, rfl⟩⟩

theorem parseLine_expectations {env : Env} {p p' : Program} {line : Text}
    (h : py.parseLine env p line = .ok p') :
    ∃ e, py.expectLine p.expectations line.strip = .ok e ∧
      (line.strip.startsWith (chars ".fuel") ∧
          py.fuelLine env.constants e line.strip = .ok p'.expectations ∨
        ¬ line.strip.startsWith (chars ".fuel") ∧ p'.expectations = e) := by
  unfold parseLine at h
  simp only [ExceptFold.bind_eq_ok, pure, Except.pure] at h
  obtain ⟨e, he, h⟩ := h
  refine ⟨e, he, ?_⟩
  split at h
  case isTrue hf =>
    obtain ⟨e', he', h⟩ := ExceptFold.bind_eq_ok.mp h
    cases h
    exact .inl ⟨hf, he'⟩
  case isFalse hf =>
    refine .inr ⟨hf, ?_⟩
    split at h
    · cases h
      rfl
    · split at h
      · cases h
      · obtain ⟨ws, -, h⟩ := ExceptFold.bind_eq_ok.mp h
        cases h
        rfl

theorem fuelLine_eq_ok {K : Constants} {e e' : Expectations} {line : Text}
    (h : py.fuelLine K e line = .ok e') :
    (line.words[1]? = none ∧ e' = e) ∨
      ∃ t v, line.words[1]? = some t ∧ py.parseVal K t = .ok v ∧
        e' = { e with fuel := some v } := by
  unfold fuelLine at h
  split at h
  · obtain ⟨v, hv, h⟩ := ExceptFold.bind_eq_ok.mp h
    cases h
    exact .inr ⟨_, v, ‹_›, hv, rfl⟩
  · cases h
    exact .inl ⟨‹_›, rfl⟩

/-- The invariant of the loop after the given lines. -/
structure Assembled (py : Runtime) (env : Env) (data : List Byte) (lines : List Text)
    (units : List (List Instruction)) (p : Program) : Prop where
  encodes : List.Forall₂ (py.Encodes env)
    (lines.filterMap fun line => py.instructionLine line.strip) units
  instructions_eq : p.instructions = units.flatten
  data_eq : p.data = data
  mem_opcodesUsed : ∀ op, op ∈ p.opcodesUsed ↔
    ∃ l ∈ lines.filterMap fun line => py.instructionLine line.strip,
      ∃ o, Op.ofName? l.1 = some o ∧ o.canonical = op

theorem assembled_append {env : Env} {data : List Byte} {lines : List Text} {line : Text}
    {units : List (List Instruction)} {p p' : Program}
    (hp : Assembled py env data lines units p) (h : py.parseLine env p line = .ok p') :
    ∃ units, Assembled py env data (lines ++ [line]) units p' := by
  obtain ⟨hd, ⟨hl, hi, ho⟩ | ⟨l, op, ws, hl, hop, hws, hi, ho⟩⟩ := parseLine_cases h
  · have hlines : (lines ++ [line]).filterMap (fun line => py.instructionLine line.strip) =
        lines.filterMap fun line => py.instructionLine line.strip := by
      simp [hl]
    refine ⟨units, ?_, hi.trans hp.instructions_eq, hd.trans hp.data_eq, ?_⟩
    · rw [hlines]
      exact hp.encodes
    · rw [hlines, ho]
      exact hp.mem_opcodesUsed
  · have hlines : (lines ++ [line]).filterMap (fun line => py.instructionLine line.strip) =
        (lines.filterMap fun line => py.instructionLine line.strip) ++ [l] := by
      simp [hl]
    refine ⟨units ++ [ws], ?_, ?_, hd.trans hp.data_eq, ?_⟩
    · rw [hlines]
      exact List.rel_append hp.encodes (.cons ⟨op, hop, hws⟩ .nil)
    · rw [hi, hp.instructions_eq, List.flatten_append, List.flatten_singleton]
    · intro o
      rw [hlines, ho, Finset.mem_insert, hp.mem_opcodesUsed]
      constructor
      · rintro (rfl | ⟨l', hl', o', ho'⟩)
        · exact ⟨l, by simp, op, hop, rfl⟩
        · exact ⟨l', List.mem_append_left _ hl', o', ho'⟩
      · rintro ⟨l', hl', o', ho', rfl⟩
        rcases List.mem_append.mp hl' with hl' | hl'
        · exact .inr ⟨l', hl', o', ho', rfl⟩
        · obtain rfl := List.mem_singleton.mp hl'
          obtain rfl : op = o' := Option.some.inj (hop.symm.trans ho')
          exact .inl rfl

theorem foldlM_parseLine {env : Env} {data : List Byte} {lines : List Text} {p : Program}
    (h : lines.foldlM (py.parseLine env) { data := data } = .ok p) :
    ∃ units, Assembled py env data lines units p :=
  ExceptFold.foldlM_induction (P := fun lines p => ∃ units, Assembled py env data lines units p)
    ⟨[], .nil, rfl, rfl, by simp⟩
    (fun _ _ _ _ ⟨_, hp⟩ h => assembled_append hp h) h

theorem parseImpasFile_eq_ok {K K' : Constants} {text : Text} {p : Program} :
    py.parseImpasFile K text = (.ok p, K') ↔
      ∃ d syms₁ K₁ syms₂, py.dataSection text.universalNewlines = .ok d ∧
        py.bindRels (Scan.findIter py.relAt text.universalNewlines) d.symbols K =
          (.ok syms₁, K₁) ∧
        py.bindVrels (Scan.findIter py.vrelAt text.universalNewlines) syms₁ K₁ =
          (.ok syms₂, K') ∧
        text.universalNewlines.readlines.foldlM (py.parseLine ⟨K', syms₂, d.intSymbols⟩)
          { data := d.bytes } = .ok p := by
  unfold parseImpasFile
  constructor
  · intro h
    dsimp only at h
    split at h
    · cases h
    · rename_i d hd
      split at h
      · cases h
      · rename_i syms₁ K₁ h₁
        split at h
        · cases h
        · rename_i syms₂ K₂ h₂
          simp only [Prod.mk.injEq] at h
          obtain ⟨h, rfl⟩ := h
          exact ⟨d, syms₁, K₁, syms₂, hd, h₁, h₂, h⟩
  · rintro ⟨d, syms₁, K₁, syms₂, hd, h₁, h₂, h⟩
    simp only [hd, h₁, h₂, h]

theorem exists_program (py : Runtime) (K : Constants) (text : Text)
    (h : (py.parseImpasFile K text).1.isOk) :
    ∃ p, py.parseImpasFile K text = (.ok p, (py.parseImpasFile K text).2) := by
  obtain ⟨p, hp⟩ := ExceptFold.exists_of_isOk h
  exact ⟨p, Prod.ext hp rfl⟩

/-- The tables that the passes over the directives of a file leave for its lines. -/
def TablesOf (py : Runtime) (K : Constants) (text : Text) (env : Env) : Prop :=
  ∃ d syms₁ K₁, py.dataSection text.universalNewlines = .ok d ∧
    py.bindRels (Scan.findIter py.relAt text.universalNewlines) d.symbols K = (.ok syms₁, K₁) ∧
    py.bindVrels (Scan.findIter py.vrelAt text.universalNewlines) syms₁ K₁ =
      (.ok env.symbols, env.constants) ∧
    env.intSymbols = d.intSymbols

/-- The words of an accepted file, line by line. -/
theorem exists_units_of_tables {K K' : Constants} {text : Text} {p : Program}
    (h : py.parseImpasFile K text = (.ok p, K')) :
    ∃ env units data, env.constants = K' ∧ py.TablesOf K text env ∧
      Assembled py env data text.universalNewlines.readlines units p := by
  obtain ⟨d, syms₁, K₁, syms₂, hd, hr, hv, hp⟩ := parseImpasFile_eq_ok.mp h
  obtain ⟨units, hu⟩ := foldlM_parseLine hp
  exact ⟨_, units, _, rfl, ⟨d, syms₁, K₁, hd, hr, hv, rfl⟩, hu⟩

theorem exists_units {K K' : Constants} {text : Text} {p : Program}
    (h : py.parseImpasFile K text = (.ok p, K')) :
    ∃ env units data, env.constants = K' ∧
      Assembled py env data text.universalNewlines.readlines units p := by
  obtain ⟨env, units, data, hK, -, ha⟩ := exists_units_of_tables h
  exact ⟨env, units, data, hK, ha⟩

end Runtime

end ImpulseTools

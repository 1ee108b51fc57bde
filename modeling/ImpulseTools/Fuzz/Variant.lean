import ImpulseTools.Fuzz.Program
import ImpulseTools.Python.Float

/-! # Variants of the emitted words

Whether the word of an emitted line is an instance of the contract variant it was chosen for.
-/

open ImpulseTools.Runtime

namespace ImpulseTools

def Contract.Applies (c : Contract) (opcode flags : BitVec 8) : Prop :=
  c.opcode = opcode.toNat ∧ flags.toNat &&& c.flagsMask = c.flagsMatch

instance (c : Contract) (opcode flags : BitVec 8) : Decidable (c.Applies opcode flags) :=
  inferInstanceAs (Decidable (_ ∧ _))

/-- The variant that is applied to a word: the first one of the table. -/
def variant? (opcode flags : BitVec 8) : Option Contract := contracts.find? (·.Applies opcode flags)

def emittedFlags (op : Op) : BitVec 8 := if op = .floatVectorScale then 1 else 0

theorem formatted_of_some {op : Op} {dst src aux1 n : ℕ} {args : List Text}
    (h : formatOperands op dst src aux1 n = some args) : (formatOperands op 0 0 0 0).isSome := by
  unfold formatOperands at h
  split at h
  all_goals first | rfl | cases h

def formattedOps : List Op :=
  (Op.opcodes ++ Op.opcodeAliases).filter fun op => (formatOperands op 0 0 0 0).isSome

theorem rows_opcode : ∀ op ∈ formattedOps, ∀ c ∈ contracts, c.mnemonic = op.name →
    c.opcode = op.code.toNat := by
  decide +kernel

theorem Emits.row {pc : ℕ} {s : RegState} {e : Emission} {op : Op} {args : List Text}
    (he : Emits contracts pc s e op args) :
    op ∈ formattedOps ∧ e.contract.opcode = op.code.toNat := by
  obtain ⟨_, _, -, hargs⟩ := he.operands
  have hop : op ∈ formattedOps :=
    List.mem_filter.mpr ⟨Op.mem_names op, formatted_of_some hargs⟩
  have hname : op.name = e.contract.mnemonic := by simpa using List.find?_some he.op_eq
  exact ⟨hop, rows_opcode op hop _ he.contract_mem hname.symm⟩

theorem rows_flags : ∀ op ∈ formattedOps, ∀ c ∈ contracts, c.opcode = op.code.toNat →
    ((emittedFlags op).toNat &&& c.flagsMask = c.flagsMatch ↔
      c.flagsMatch = (emittedFlags op).toNat) := by
  decide +kernel

def Matches (e : Emission) (w : Instruction) : Prop :=
  w.flags.toNat &&& e.contract.flagsMask = e.contract.flagsMatch

theorem matches_iff {pc : ℕ} {s : RegState} {e : Emission} {op : Op} {args : List Text}
    {w : Instruction} (he : Emits contracts pc s e op args) (hw : IsWordOf e w) :
    Matches e w ↔
      e.contract.flagsMatch = if e.contract.op = some .floatVectorScale then 1 else 0 := by
  obtain ⟨op', hop, hf⟩ := hw
  obtain rfl : op = op' := Option.some.inj (he.op_eq.symm.trans hop)
  obtain ⟨hformat, hcode⟩ := he.row
  have hrow := rows_flags op hformat e.contract he.contract_mem hcode
  have hflags : (emittedFlags op).toNat =
      if e.contract.op = some .floatVectorScale then 1 else 0 := by
    simp only [hop, Option.some.injEq, emittedFlags]
    split <;> rfl
  rw [Matches, hf.flags, ← emittedFlags, hrow, hflags]

/-- An emitted line is assembled to an instance of the variant it was chosen for exactly if the
variant is the one for flags 0, or for flags 1 of `OP_FLOAT_VECTOR_SCALE`. -/
theorem Runtime.generateProgram_matches_iff {py : Runtime} (hpy : py.ReadsCents) (seed : ℤ)
    (draws : List Draw) :
    ∃ p pre words, py.parseImpasFile constants (generateProgram contracts seed draws) =
        (.ok p, constants) ∧
      p.instructions = pre ++ (words ++ [.ofInts Op.halt.code 0 0 0]) ∧ pre.length = 7 ∧
      List.Forall₂ (fun e w => Matches e w ↔
        e.contract.flagsMatch = if e.contract.op = some .floatVectorScale then 1 else 0)
        (fuzzRun contracts draws).emitted words := by
  obtain ⟨p, pre, words, hp, hi, hlen, hwords⟩ := parse_generateProgram hpy contracts seed draws
  refine ⟨p, pre, words, hp, hi, hlen, ?_⟩
  have hemits := (trace_fuzzRun contracts draws).exists_emits
  refine ((List.forall₂_and_left _ _).mpr ⟨hemits, hwords⟩).imp ?_
  rintro e w ⟨⟨pc, s, op, args, he⟩, hw⟩
  exact matches_iff he hw

theorem readsCents_decimals : Runtime.decimals.ReadsCents := by
  have h : ∀ k < 1001, 10 ≤ k →
      ((Runtime.decimals.float (centText k)).bind Runtime.decimals.packFloat).isSome := by
    decide +kernel
  intro k hlo hhi
  obtain ⟨b, hb⟩ := Option.isSome_iff_exists.mp (h k (by omega) hlo)
  obtain ⟨f, hf, hb⟩ := Option.bind_eq_some_iff.mp hb
  exact ⟨f, b, hf, hb⟩

/-- The draws of `random.Random(224)` for one instruction. -/
def draws224 : List Draw := [{ contract := 16, dst := 6, src := 3 }]

theorem emitted_draws224 : ∃ e, (fuzzRun contracts draws224).emitted = [e] ∧
    e.line = chars "0x07: OP_CSR_WALK              R16, R4, 0" ∧
    e.contract.op = some .csrWalk ∧ e.contract.flagsMatch = 4 := by
  have h : (fuzzRun contracts draws224).emitted.map
      (fun e => (e.line, e.contract.op, e.contract.flagsMatch)) =
        [(chars "0x07: OP_CSR_WALK              R16, R4, 0", some .csrWalk, 4)] := by
    decide +kernel
  obtain ⟨e, he, hline⟩ := List.map_eq_singleton_iff.mp h
  rw [Prod.mk.injEq, Prod.mk.injEq] at hline
  exact ⟨e, he, hline.1, hline.2.1, hline.2.2⟩

theorem generateProgram_matches_iff_walk : ∃ p K,
    Runtime.decimals.parseImpasFile constants (generateProgram contracts 224 draws224) =
      (.ok p, K) ∧ p.instructions.length = 9 := by
  obtain ⟨e, he, -⟩ := emitted_draws224
  obtain ⟨p, pre, words, hp, hi, hlen, hwords⟩ :=
    Runtime.generateProgram_matches_iff readsCents_decimals 224 draws224
  have hone : words.length = 1 := by rw [← hwords.length_eq, he, List.length_singleton]
  refine ⟨p, constants, hp, ?_⟩
  simp [hi, hlen, hone]

/-- The word of the emitted walk has flags 0. -/
theorem not_matches_walk : ∃ e p pre w, (fuzzRun contracts draws224).emitted = [e] ∧
    e.line = chars "0x07: OP_CSR_WALK              R16, R4, 0" ∧
    Runtime.decimals.parseImpasFile constants (generateProgram contracts 224 draws224) =
      (.ok p, constants) ∧
    p.instructions = pre ++ [w, .ofInts Op.halt.code 0 0 0] ∧ pre.length = 7 ∧
    ¬ Matches e w := by
  obtain ⟨e, he, hline, hop, hmatch⟩ := emitted_draws224
  obtain ⟨p, pre, words, hp, hi, hlen, hwords⟩ :=
    parse_generateProgram readsCents_decimals contracts 224 draws224
  obtain ⟨pc, s, op, args, hem⟩ := (trace_fuzzRun contracts draws224).exists_emits e (by simp [he])
  rw [he, ExceptFold.forall₂_singleton_left] at hwords
  obtain ⟨w, hw, rfl⟩ := hwords
  refine ⟨e, p, pre, w, he, hline, hp, hi, hlen, ?_⟩
  rw [matches_iff hem hw, hmatch, hop]
  decide

end ImpulseTools

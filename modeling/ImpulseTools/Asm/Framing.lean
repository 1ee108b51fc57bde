import ImpulseTools.Asm.Reads
import Mathlib.Tactic.SplitIfs

/-! # Framing

The stream of an accepted file is cut by flag bit 7 into one unit for each instruction
line, unless an explicit flags operand sets or clears that bit itself.
-/

namespace ImpulseTools

def flagsToken (op : Op) (toks : List Text) : Option ℕ :=
  match branch op toks with
  | .form f => f.flags
  | _ => none

/-- The defaults for a flags operand leave bit 7 clear. -/
theorem flagsElse_lt {op : Op} {toks : List Text} {f : Form} (h : branch op toks = .form f) :
    f.flagsElse < 128 := by
  -- most branches are no `if`, and `h` then gives the form as it stands
  cases op <;> first
    | (cases h; done)
    | (cases h; decide)
    | (unfold branch at h; dsimp only at h; split_ifs at h <;> cases h <;> decide)

/-- One word with bit 7 clear, or one with bit 7 set and its extension. -/
inductive Framed : List Instruction → Prop
  | word {w : Instruction} (hw : ¬ w.extended) (hc : w.opcode ≠ 0xFF) : Framed [w]
  | extended {w e : Instruction} (hw : w.extended) (hc : w.opcode ≠ 0xFF) (he : e.opcode = 0xFF)
      (hf : e.flags = 0) : Framed [w, e]

theorem frame_append {u : List Instruction} (h : Framed u) (ws : List Instruction) :
    frame (u ++ ws) = (u :: ·) <$> frame ws := by
  cases h with
  | word hw =>
    rw [List.singleton_append, frame.eq_def]
    exact if_neg hw
  | extended hw =>
    rw [List.cons_append, List.singleton_append, frame.eq_def]
    exact if_pos hw

theorem frame_flatten {us : List (List Instruction)} (h : ∀ u ∈ us, Framed u) :
    frame us.flatten = some us := by
  induction us with
  | nil => rfl
  | cons u us ih =>
    obtain ⟨hu, hus⟩ := List.forall_mem_cons.mp h
    rw [List.flatten_cons, frame_append hu, ih hus]
    rfl

theorem head_emit (op : Op) (o : Operands) :
    ∃ w, (emit op o).head? = some w ∧ w.opcode = op.code ∧
      w.dstReg.toNat = (mask 16 o.dst).toNat := by
  obtain ⟨-, -, he⟩ | ⟨-, he⟩ := emit_cases op o <;>
  · rw [he]
    exact ⟨_, rfl, rfl, toNat_ofInt 16 o.dst⟩

theorem framed_emit (op : Op) {o : Operands} (h0 : 0 ≤ o.flags) (h1 : o.flags < 128) :
    Framed (emit op o) := by
  obtain ⟨-, -, he⟩ | ⟨-, he⟩ := emit_cases op o
  · rw [he]
    refine .extended ?_ op.code_ne_extension rfl rfl
    rw [Instruction.extended_iff, Instruction.ofInts_flags, toNat_flags_or h0 h1]
    exact Nat.le_add_left _ _
  · rw [he]
    refine .word ?_ op.code_ne_extension
    rw [Instruction.extended_iff, Instruction.ofInts_flags, toNat_ofInt,
      mask_of_lt h0 (h1.trans (by norm_num))]
    omega

namespace Runtime

variable {py : Runtime} {env : Env} {op : Op} {toks : List Text}

theorem encode_eq_ok {ws : List Instruction} :
    py.encode env op toks = .ok ws ↔ ∃ o, py.operands env op toks = .ok o ∧ emit op o = ws :=
  ExceptFold.map_eq_ok

theorem flags_of_no_token {o : Operands} (h : py.operands env op toks = .ok o)
    (hb : ∀ f, branch op toks ≠ .form f) : o.flags = 0 ∨ o.flags = 1 := by
  obtain ⟨-, h⟩ := operands_eq_ok_iff.mp h
  cases hbranch : branch op toks with
  | form f => exact absurd hbranch (hb f)
  | inlineLoad =>
    rw [hbranch] at h
    cases h with
    | symbol =>
      dsimp only
      split_ifs
      · exact .inr rfl
      · exact .inl rfl
    | nothing => exact .inl rfl
  | float i =>
    rw [hbranch] at h
    cases h <;> exact .inl rfl
  | mockAttr =>
    rw [hbranch] at h
    subst h
    exact .inl rfl

/-- An explicit flags operand decides the flags; without one they are below 128. -/
theorem flags_mem {o : Operands} (h : py.operands env op toks = .ok o)
    (hf : ∀ i ∈ flagsToken op toks, ∀ v, py.HasValue env.constants toks i v →
      0 ≤ v ∧ v < 128) : 0 ≤ o.flags ∧ o.flags < 128 := by
  by_cases hb : ∃ f, branch op toks = .form f
  · obtain ⟨f, hb⟩ := hb
    obtain ⟨he, rfl⟩ := (operands_eq_ok_of_form hb).mp h
    have hlt := flagsElse_lt hb
    have hdefault : 0 ≤ (f.flagsElse : ℤ) ∧ (f.flagsElse : ℤ) < 128 := by omega
    rw [formOperands]
    cases hi : f.flags with
    | none => exact hdefault
    | some i =>
      rcases Nat.lt_or_ge i toks.length with hlen | hlen
      · have hv := (he i (by simp [Form.tokens, hi])).hasValue hlen
        rw [hv.valueOr_eq]
        exact hf i (by rw [flagsToken, hb]; exact hi) _ hv
      · rw [valueOr, if_neg (Nat.not_lt.mpr hlen)]
        exact hdefault
  · rcases flags_of_no_token h (fun f hf => hb ⟨f, hf⟩) with h | h <;> rw [h] <;> decide

variable {K K' : Constants} {text : Text} {p : Program}

/-- The stream of an accepted file has one unit for each instruction line. -/
theorem frame_instructions (h : py.parseImpasFile K text = (.ok p, K'))
    (hf : ∀ l ∈ py.instructionLines text, ∀ op ∈ Op.ofName? l.1, ∀ i ∈ flagsToken op l.2,
      ∀ v, py.HasValue K' l.2 i v → 0 ≤ v ∧ v < 128) :
    ∃ units, frame p.instructions = some units ∧ units.flatten = p.instructions ∧
      List.Forall₂ (fun l u => ∃ op w, Op.ofName? l.1 = some op ∧ u.head? = some w ∧
        w.opcode = op.canonical.code) (py.instructionLines text) units ∧
      (∀ u ∈ units, Framed u) ∧
      ∀ op, op ∈ p.opcodesUsed ↔
        op ∈ Op.opcodes ∧ ∃ u ∈ units, ∃ w, u.head? = some w ∧ w.opcode = op.code := by
  obtain ⟨env, units, data, rfl, ha⟩ := exists_units h
  have hframed : ∀ u ∈ units, Framed u := by
    intro u hu
    obtain ⟨l, hl, op, hop, he⟩ := ExceptFold.exists_of_mem_right ha.encodes hu
    obtain ⟨o, ho, rfl⟩ := encode_eq_ok.mp he
    obtain ⟨h0, h1⟩ := flags_mem ho (hf l hl op hop)
    exact framed_emit op h0 h1
  have hheads : List.Forall₂ (fun l u => ∃ op w, Op.ofName? l.1 = some op ∧ u.head? = some w ∧
      w.opcode = op.canonical.code) (py.instructionLines text) units := by
    refine ha.encodes.imp ?_
    rintro l u ⟨op, hop, he⟩
    obtain ⟨o, -, rfl⟩ := encode_eq_ok.mp he
    obtain ⟨w, hw, hc, -⟩ := head_emit op o
    exact ⟨op, w, hop, hw, hc.trans op.code_canonical.symm⟩
  refine ⟨units, ?_, ha.instructions_eq.symm, hheads, hframed, fun op => ?_⟩
  · rw [ha.instructions_eq, frame_flatten hframed]
  · rw [ha.mem_opcodesUsed]
    constructor
    · rintro ⟨l, hl, o, ho, rfl⟩
      obtain ⟨u, hu, o', w, ho', hw, hc⟩ := ExceptFold.exists_of_mem_left hheads hl
      obtain rfl : o = o' := Option.some.inj (ho.symm.trans ho')
      exact ⟨Op.canonical_mem o, u, hu, w, hw, hc⟩
    · rintro ⟨hop, u, hu, w, hw, hc⟩
      obtain ⟨l, hl, o, w', ho, hw', hc'⟩ := ExceptFold.exists_of_mem_right hheads hu
      obtain rfl : w = w' := Option.some.inj (hw.symm.trans hw')
      refine ⟨l, hl, o, ho, ?_⟩
      rw [← Op.canonical_canonical, Op.canonical_eq_of_code_eq (hc'.symm.trans hc)]
      exact Op.canonical_of_mem hop

theorem frame_instructions_gather :
    ∃ p K', Runtime.ascii.parseImpasFile constants
        (chars "OP_GATHER_NODE_ATTR R1, R2, R3, 300\nOP_SET_UNION R4, R1, R2, 3") = (.ok p, K') ∧
      ∃ units, frame p.instructions = some units ∧ units.length = 2 := by
  obtain ⟨p, hp⟩ := exists_program Runtime.ascii constants
    (chars "OP_GATHER_NODE_ATTR R1, R2, R3, 300\nOP_SET_UNION R4, R1, R2, 3")
    (by decide +kernel)
  have hf : ∀ l ∈ Runtime.ascii.instructionLines
        (chars "OP_GATHER_NODE_ATTR R1, R2, R3, 300\nOP_SET_UNION R4, R1, R2, 3"),
      ∀ op ∈ Op.ofName? l.1, ∀ i ∈ flagsToken op l.2,
        0 ≤ Runtime.ascii.valueAt constants l.2 i ∧
          Runtime.ascii.valueAt constants l.2 i < 128 := by
    decide +kernel
  obtain ⟨units, hframe, -, hheads, -⟩ := frame_instructions hp fun l hl op hop i hi v hv =>
    hv.valueAt_eq ▸ hf l hl op hop i hi
  exact ⟨p, _, hp, units, hframe, hheads.length_eq.symm.trans (by decide +kernel)⟩

end Runtime

end ImpulseTools

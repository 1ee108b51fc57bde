import ImpulseTools.Asm.Framing

/-! # Operands that share bits

Two branches or an operand into bits that belong to another one: the first relation of a two-hop
walk reaches under the second, and a first operand that is no register lies under the second
operand of the last branch.
-/

namespace ImpulseTools

/-- Lines whose payloads fit 32 bits have the same words exactly if their operands are equal, the
destinations modulo `2 ^ 16`. -/
theorem emit_eq_iff {op : Op} {o o' : Operands} (hf : 0 ≤ o.flags ∧ o.flags < 128)
    (hf' : 0 ≤ o'.flags ∧ o'.flags < 128) (hp : 0 ≤ o.payload ∧ o.payload < 2 ^ 32)
    (hp' : 0 ≤ o'.payload ∧ o'.payload < 2 ^ 32) :
    emit op o = emit op o' ↔
      mask 16 o.dst = mask 16 o'.dst ∧ o.flags = o'.flags ∧ o.payload = o'.payload := by
  constructor
  · intro h
    have hr := readUnit_emit op o hf.1 hf.2
    rw [h, readUnit_emit op o' hf'.1 hf'.2, mask_of_lt hp.1 hp.2, mask_of_lt hp'.1 hp'.2] at hr
    simp only [Option.some.injEq, VmUnit.mk.injEq, true_and] at hr
    obtain ⟨hflags, hdst, hpayload⟩ := hr
    have h0 := mask_nonneg 16 o.dst
    have h0' := mask_nonneg 16 o'.dst
    omega
  · rintro ⟨hdst, hflags, hpayload⟩
    have hword (c : BitVec 8) (f p : ℤ) :
        Instruction.ofInts c f o.dst p = Instruction.ofInts c f o'.dst p := by
      have : BitVec.ofInt 16 o.dst = BitVec.ofInt 16 o'.dst := by
        rw [← BitVec.toNat_inj, toNat_ofInt, toNat_ofInt, hdst]
      rw [Instruction.ofInts, Instruction.ofInts, this]
    simp only [emit, hflags, hpayload, hword]

theorem emit_of_not_extendable {op : Op} (hx : ¬ extendable op) (o : Operands) :
    emit op o = [.ofInts op.code o.flags o.dst (mask 32 o.payload)] := by
  obtain ⟨hx', -⟩ | ⟨-, he⟩ := emit_cases op o
  · exact absurd hx' hx
  · exact he

theorem emit_eq_singleton {op : Op} {o : Operands} (h : o.payload < 2 ^ 24) :
    emit op o = [.ofInts op.code o.flags o.dst (mask 32 o.payload)] := by
  obtain ⟨-, hx, -⟩ | ⟨-, he⟩ := emit_cases op o
  · rw [Int.shiftRight_eq_div_pow] at hx
    omega
  · exact he

/-- The source, the first id 8 bits up and the second 16 bits up. -/
def twoHopPayload (s a b : ℕ) : ℕ := 2 ^ 16 * (a / 2 ^ 8 ||| b) + 2 ^ 8 * (a % 2 ^ 8) + s

theorem orAll_two_hop {s a b : ℕ} (hs : s < 2 ^ 8) (ha : a < 2 ^ 16) (hb : b < 2 ^ 16) :
    BitField.orAll 0 [(⟨0, 8⟩, s), (⟨8, 16⟩, a), (⟨16, 16⟩, b)] = twoHopPayload s a b := by
  have hlow : a % 2 ^ 8 < 2 ^ 8 := Nat.mod_lt _ (by decide)
  have hids : a ||| b <<< 8 = 2 ^ 8 * (a / 2 ^ 8 ||| b) + a % 2 ^ 8 := by
    have hsplit : a = (a / 2 ^ 8) <<< 8 ||| a % 2 ^ 8 := by
      rw [Nat.shiftLeft_eq, Nat.mul_comm, ← Nat.two_pow_add_eq_or_of_lt hlow, Nat.div_add_mod]
    rw [Nat.two_pow_add_eq_or_of_lt hlow, Nat.mul_comm, ← Nat.shiftLeft_eq,
      Nat.shiftLeft_or_distrib]
    conv_lhs => rw [hsplit]
    rw [Nat.or_assoc, Nat.or_comm (a % 2 ^ 8), ← Nat.or_assoc]
  have hall : BitField.orAll 0 [(⟨0, 8⟩, s), (⟨8, 16⟩, a), (⟨16, 16⟩, b)] =
      2 ^ 8 * (a ||| b <<< 8) + s := by
    simp only [BitField.orAll, BitField.put, List.foldl_cons, List.foldl_nil, Nat.mod_eq_of_lt hs,
      Nat.mod_eq_of_lt ha, Nat.mod_eq_of_lt hb, Nat.zero_or, Nat.shiftLeft_zero]
    rw [Nat.two_pow_add_eq_or_of_lt hs, Nat.mul_comm, ← Nat.shiftLeft_eq, Nat.shiftLeft_or_distrib,
      ← Nat.shiftLeft_add, Nat.or_assoc, Nat.or_comm]
  rw [hall, hids, twoHopPayload]
  omega

theorem twoHopPayload_eq_iff {s s' a a' b b' : ℕ} (hs : s < 2 ^ 8) (hs' : s' < 2 ^ 8) :
    twoHopPayload s a b = twoHopPayload s' a' b' ↔
      s = s' ∧ a % 2 ^ 8 = a' % 2 ^ 8 ∧ a / 2 ^ 8 ||| b = a' / 2 ^ 8 ||| b' := by
  unfold twoHopPayload
  omega

theorem twoHopPayload_lt {s a b : ℕ} (hs : s < 2 ^ 8) (ha : a < 2 ^ 16) (hb : b < 2 ^ 16) :
    twoHopPayload s a b < 2 ^ 32 := by
  have hor : a / 2 ^ 8 ||| b < 2 ^ 16 :=
    Nat.or_lt_two_pow ((Nat.div_le_self _ _).trans_lt ha) hb
  unfold twoHopPayload
  omega

namespace Runtime

variable {py : Runtime} {env env' : Env} {toks toks' : List Text}

structure TwoHopLine (py : Runtime) (K : Constants) (toks : List Text) (d : ℤ) (s a b : ℕ) :
    Prop where
  dst : py.HasValue K toks 1 d
  source : py.HasValue K toks 2 s
  first : py.HasValue K toks 3 a
  second : py.HasValue K toks 4 b
  source_lt : s < 2 ^ 8
  first_lt : a < 2 ^ 16
  second_lt : b < 2 ^ 16

instance (K : Constants) (d : ℤ) (s a b : ℕ) : Decidable (TwoHopLine py K toks d s a b) :=
  decidable_of_iff (py.HasValue K toks 1 d ∧ py.HasValue K toks 2 s ∧ py.HasValue K toks 3 a ∧
      py.HasValue K toks 4 b ∧ s < 2 ^ 8 ∧ a < 2 ^ 16 ∧ b < 2 ^ 16)
    ⟨fun ⟨hd, hs, ha, hb, hs', ha', hb'⟩ => ⟨hd, hs, ha, hb, hs', ha', hb'⟩,
      fun h => ⟨h.dst, h.source, h.first, h.second, h.source_lt, h.first_lt, h.second_lt⟩⟩

theorem branch_csrWalk2hop (h : 4 < toks.length) :
    branch .csrWalk2hop toks = .form { fields := [⟨2, 8, 0⟩, ⟨3, 16, 8⟩, ⟨4, 16, 16⟩] } := by
  unfold branch
  dsimp only
  rw [if_neg (by omega), if_pos h]

theorem TwoHopLine.operands_eq {d : ℤ} {s a b : ℕ} (h : TwoHopLine py env.constants toks d s a b) :
    py.operands env .csrWalk2hop toks =
      .ok ⟨d, twoHopPayload s a b, 0⟩ := by
  refine (operands_eq_ok_of_form (branch_csrWalk2hop h.second.lt)).mpr ⟨?_, ?_⟩
  · simp only [Form.tokens, Option.toList_some, Option.toList_none, List.map_cons, List.map_nil,
      List.cons_append, List.nil_append, List.append_nil, List.forall_mem_cons]
    exact ⟨h.dst.evaluates, h.source.evaluates, h.first.evaluates, h.second.evaluates, by simp⟩
  · refine Eq.symm (formOperands_eq (b := 0) (h.dst.valueOr_eq 0) rfl ?_ rfl)
    rw [← orAll_two_hop h.source_lt h.first_lt h.second_lt, List.map_cons, List.map_cons,
      List.map_cons, List.map_nil, HasValue.fieldPut_eq h.source h.source_lt,
      HasValue.fieldPut_eq h.first h.first_lt, HasValue.fieldPut_eq h.second h.second_lt]
    rfl

/-- Two-hop lines have different words exactly if the high byte of the first id, put under the
second id, or one of the other fields differs. -/
theorem csrWalk2hop_ne_iff {d d' : ℤ} {s s' a a' b b' : ℕ}
    (h : TwoHopLine py env.constants toks d s a b)
    (h' : TwoHopLine py env'.constants toks' d' s' a' b') :
    ∃ ws ws', py.encode env .csrWalk2hop toks = .ok ws ∧
      py.encode env' .csrWalk2hop toks' = .ok ws' ∧
        (ws ≠ ws' ↔ mask 16 d ≠ mask 16 d' ∨ s ≠ s' ∨ a % 2 ^ 8 ≠ a' % 2 ^ 8 ∨
          a / 2 ^ 8 ||| b ≠ a' / 2 ^ 8 ||| b') := by
  have hp := twoHopPayload_lt h.source_lt h.first_lt h.second_lt
  have hp' := twoHopPayload_lt h'.source_lt h'.first_lt h'.second_lt
  refine ⟨_, _, encode_eq_ok.mpr ⟨_, h.operands_eq, rfl⟩,
    encode_eq_ok.mpr ⟨_, h'.operands_eq, rfl⟩, ?_⟩
  rw [ne_eq, emit_eq_iff (by simp) (by simp) ⟨by simp, by simp only; omega⟩
    ⟨by simp, by simp only; omega⟩]
  simp only [Nat.cast_inj, twoHopPayload_eq_iff h.source_lt h'.source_lt]
  tauto

theorem csrWalk2hop_ne_iff_ids :
    ∃ ws ws', Runtime.ascii.encode ⟨constants, ∅, ∅⟩ .csrWalk2hop
        [chars "OP_CSR_WALK_2HOP", chars "R2", chars "R1", chars "7", chars "300"] = .ok ws ∧
      Runtime.ascii.encode ⟨constants, ∅, ∅⟩ .csrWalk2hop
        [chars "OP_CSR_WALK_2HOP", chars "R2", chars "R1", chars "263", chars "300"] = .ok ws' ∧
      ws ≠ ws' := by
  have h : TwoHopLine Runtime.ascii (Env.constants ⟨constants, ∅, ∅⟩)
      [chars "OP_CSR_WALK_2HOP", chars "R2", chars "R1", chars "7", chars "300"] 2 1 7 300 := by
    decide +kernel
  have h' : TwoHopLine Runtime.ascii (Env.constants ⟨constants, ∅, ∅⟩)
      [chars "OP_CSR_WALK_2HOP", chars "R2", chars "R1", chars "263", chars "300"] 2 1 263 300 := by
    decide +kernel
  obtain ⟨ws, ws', hws, hws', hne⟩ := csrWalk2hop_ne_iff h h'
  exact ⟨ws, ws', hws, hws', hne.mpr (by decide)⟩

end Runtime

/-- The ids 256 and 0 assemble to the words of the ids 0 and 1. -/
theorem csrWalk2hop_collision :
    ∃ toks toks',
      Runtime.ascii.instructionLines (chars "OP_CSR_WALK_2HOP R2, R1, 256, 0") =
        [(chars "OP_CSR_WALK_2HOP", toks)] ∧
      Runtime.ascii.instructionLines (chars "OP_CSR_WALK_2HOP R2, R1, 0, 1") =
        [(chars "OP_CSR_WALK_2HOP", toks')] ∧
      Runtime.TwoHopLine .ascii constants toks 2 1 256 0 ∧
      Runtime.TwoHopLine .ascii constants toks' 2 1 0 1 ∧
      (Runtime.ascii.parseImpasFile constants
          (chars "OP_CSR_WALK_2HOP R2, R1, 256, 0")).1.toOption.map (·.instructions) =
        some [⟨0x0E, 0, 2, 0x10001⟩] ∧
      (Runtime.ascii.parseImpasFile constants
          (chars "OP_CSR_WALK_2HOP R2, R1, 0, 1")).1.toOption.map (·.instructions) =
        some [⟨0x0E, 0, 2, 0x10001⟩] := by
  refine ⟨[chars "OP_CSR_WALK_2HOP", chars "R2", chars "R1", chars "256", chars "0"],
    [chars "OP_CSR_WALK_2HOP", chars "R2", chars "R1", chars "0", chars "1"],
    ?_, ?_, ?_, ?_, ?_, ?_⟩ <;> decide +kernel

def defaultForm (toks : List Text) : Form :=
  if (toks.getD 1 []).startsWith (chars "R") then
    { fields := layout 2 0 [16, 16], flags := some 4 }
  else { dst := none, whole := some 1, fields := layout 2 0 [16, 16], flags := some 4 }

/-- A mnemonic that no other branch names. -/
def DefaultBranch (op : Op) : Prop := ∀ toks, branch op toks = .form (defaultForm toks)

theorem defaultBranch_of_mem {op : Op} (h : op ∈ [.createScratchIndex, .csrWalk, .csrDegree,
    .csrWalkState, .csrWalkReduceSum, .loopDecr, .laneInitSeeds, .laneCsrWalk, .laneCscWalk,
    .laneReduceAnd]) : DefaultBranch op := by
  intro toks
  rw [defaultForm, apply_ite Branch.form]
  simp only [List.mem_cons, List.not_mem_nil, or_false] at h
  rcases h with rfl | rfl | rfl | rfl | rfl | rfl | rfl | rfl | rfl | rfl <;> rfl

/-- The first operand under the second, and the third 16 bits up. -/
def literalPayload (a b c : ℕ) : ℕ := 2 ^ 16 * c + (a ||| b)

theorem orAll_literal {a b c : ℕ} (ha : a < 2 ^ 8) (hb : b < 2 ^ 8) (hc : c < 2 ^ 8) :
    BitField.orAll a [(⟨0, 16⟩, b), (⟨16, 16⟩, c)] = literalPayload a b c := by
  have hor : a ||| b < 2 ^ 16 := Nat.or_lt_two_pow (by omega) (by omega)
  simp only [BitField.orAll, BitField.put, List.foldl_cons, List.foldl_nil, Nat.shiftLeft_zero,
    Nat.mod_eq_of_lt (show b < 2 ^ 16 by omega), Nat.mod_eq_of_lt (show c < 2 ^ 16 by omega)]
  rw [literalPayload, Nat.two_pow_add_eq_or_of_lt hor, Nat.or_comm, Nat.shiftLeft_eq, Nat.mul_comm]

theorem literalPayload_eq_iff {a a' b b' c c' : ℕ} (ha : a < 2 ^ 8) (hb : b < 2 ^ 8)
    (ha' : a' < 2 ^ 8) (hb' : b' < 2 ^ 8) :
    literalPayload a b c = literalPayload a' b' c' ↔ c = c' ∧ a ||| b = a' ||| b' := by
  have hor := Nat.or_lt_two_pow ha hb
  have hor' := Nat.or_lt_two_pow ha' hb'
  unfold literalPayload
  omega

theorem literalPayload_lt {a b c : ℕ} (ha : a < 2 ^ 8) (hb : b < 2 ^ 8) (hc : c < 2 ^ 8) :
    literalPayload a b c < 2 ^ 24 := by
  have hor := Nat.or_lt_two_pow ha hb
  unfold literalPayload
  omega

namespace Runtime

variable {py : Runtime} {env env' : Env} {toks toks' : List Text} {op : Op}

/-- A line `OP a, b, c` whose first operand is no register. -/
structure LiteralLine (py : Runtime) (K : Constants) (toks : List Text) (a b c : ℕ) : Prop where
  length_eq : toks.length = 4
  not_register : ¬ (toks.getD 1 []).startsWith (chars "R")
  first : py.HasValue K toks 1 a
  second : py.HasValue K toks 2 b
  third : py.HasValue K toks 3 c
  first_lt : a < 2 ^ 8
  second_lt : b < 2 ^ 8
  third_lt : c < 2 ^ 8

instance (K : Constants) (a b c : ℕ) : Decidable (LiteralLine py K toks a b c) :=
  decidable_of_iff (toks.length = 4 ∧ ¬ (toks.getD 1 []).startsWith (chars "R") ∧
      py.HasValue K toks 1 a ∧ py.HasValue K toks 2 b ∧ py.HasValue K toks 3 c ∧
      a < 2 ^ 8 ∧ b < 2 ^ 8 ∧ c < 2 ^ 8)
    ⟨fun ⟨hl, hr, ha, hb, hc, ha', hb', hc'⟩ => ⟨hl, hr, ha, hb, hc, ha', hb', hc'⟩,
      fun h => ⟨h.length_eq, h.not_register, h.first, h.second, h.third, h.first_lt, h.second_lt,
        h.third_lt⟩⟩

theorem LiteralLine.operands_eq {a b c : ℕ} (h : LiteralLine py env.constants toks a b c)
    (hop : DefaultBranch op) :
    py.operands env op toks = .ok ⟨0, literalPayload a b c, 0⟩ := by
  have hb : branch op toks =
      .form { dst := none, whole := some 1, fields := layout 2 0 [16, 16], flags := some 4 } := by
    rw [hop, defaultForm, if_neg h.not_register]
  refine (operands_eq_ok_of_form hb).mpr ⟨?_, ?_⟩
  · have hflags : py.Evaluates env.constants toks 4 := by
      intro t ht
      simp [List.getElem?_eq_none (h.length_eq.le : toks.length ≤ 4)] at ht
    simp only [Form.tokens, layout, Option.toList_some, Option.toList_none, List.map_cons,
      List.map_nil, List.cons_append, List.nil_append, List.forall_mem_cons]
    exact ⟨h.first.evaluates, h.second.evaluates, h.third.evaluates, hflags, by simp⟩
  · refine Eq.symm (formOperands_eq rfl (h.first.valueOr_eq 0) ?_ ?_)
    · have hb := h.second_lt
      have hc := h.third_lt
      rw [← orAll_literal h.first_lt hb hc, layout, layout, layout, List.map_cons,
        List.map_cons, List.map_nil, HasValue.fieldPut_eq h.second (by simp only; omega),
        HasValue.fieldPut_eq h.third (by simp only; omega)]
      rfl
    · simp [valueOr, h.length_eq]

/-- Literal-first lines have different words exactly if their third operands or the first two
or-ed together differ. -/
theorem literalLine_ne_iff (hop : DefaultBranch op) {a a' b b' c c' : ℕ}
    (h : LiteralLine py env.constants toks a b c)
    (h' : LiteralLine py env'.constants toks' a' b' c') :
    ∃ w w', py.encode env op toks = .ok [w] ∧ py.encode env' op toks' = .ok [w'] ∧
      (w ≠ w' ↔ c ≠ c' ∨ a ||| b ≠ a' ||| b') := by
  have hp := literalPayload_lt h.first_lt h.second_lt h.third_lt
  have hp' := literalPayload_lt h'.first_lt h'.second_lt h'.third_lt
  have he : emit op ⟨0, literalPayload a b c, 0⟩ = [_] :=
    emit_eq_singleton (by simp only; omega)
  have he' : emit op ⟨0, literalPayload a' b' c', 0⟩ = [_] :=
    emit_eq_singleton (by simp only; omega)
  refine ⟨_, _, encode_eq_ok.mpr ⟨_, h.operands_eq hop, he⟩,
    encode_eq_ok.mpr ⟨_, h'.operands_eq hop, he'⟩, ?_⟩
  rw [ne_eq, ← List.singleton_inj, ← he, ← he', emit_eq_iff (by simp) (by simp)
    ⟨by simp, by simp only; omega⟩ ⟨by simp, by simp only; omega⟩]
  simp only [Nat.cast_inj, true_and,
    literalPayload_eq_iff h.first_lt h.second_lt h'.first_lt h'.second_lt]
  tauto

theorem literalLine_ne_iff_scratchIndex :
    ∃ w w', Runtime.ascii.encode ⟨constants, ∅, ∅⟩ .createScratchIndex
        [chars "OP_CREATE_SCRATCH_INDEX", chars "1", chars "2", chars "0"] = .ok [w] ∧
      Runtime.ascii.encode ⟨constants, ∅, ∅⟩ .createScratchIndex
        [chars "OP_CREATE_SCRATCH_INDEX", chars "1", chars "4", chars "0"] = .ok [w'] ∧
      w ≠ w' := by
  have h : LiteralLine Runtime.ascii (Env.constants ⟨constants, ∅, ∅⟩)
      [chars "OP_CREATE_SCRATCH_INDEX", chars "1", chars "2", chars "0"] 1 2 0 := by
    decide +kernel
  have h' : LiteralLine Runtime.ascii (Env.constants ⟨constants, ∅, ∅⟩)
      [chars "OP_CREATE_SCRATCH_INDEX", chars "1", chars "4", chars "0"] 1 4 0 := by
    decide +kernel
  have hop : DefaultBranch .createScratchIndex := defaultBranch_of_mem (by decide)
  obtain ⟨w, w', hw, hw', hne⟩ := literalLine_ne_iff hop h h'
  exact ⟨w, w', hw, hw', hne.mpr (by decide)⟩

end Runtime

/-- The operands 1, 0, 0 assemble to the word of the operands 0, 1, 0. -/
theorem literalLine_collision :
    DefaultBranch .createScratchIndex ∧ ∃ toks toks',
      Runtime.ascii.instructionLines (chars "OP_CREATE_SCRATCH_INDEX 1, 0, 0") =
        [(chars "OP_CREATE_SCRATCH_INDEX", toks)] ∧
      Runtime.ascii.instructionLines (chars "OP_CREATE_SCRATCH_INDEX 0, 1, 0") =
        [(chars "OP_CREATE_SCRATCH_INDEX", toks')] ∧
      Runtime.LiteralLine .ascii constants toks 1 0 0 ∧
      Runtime.LiteralLine .ascii constants toks' 0 1 0 ∧
      (Runtime.ascii.parseImpasFile constants
          (chars "OP_CREATE_SCRATCH_INDEX 1, 0, 0")).1.toOption.map (·.instructions) =
        some [⟨0x1E, 0, 0, 1⟩] ∧
      (Runtime.ascii.parseImpasFile constants
          (chars "OP_CREATE_SCRATCH_INDEX 0, 1, 0")).1.toOption.map (·.instructions) =
        some [⟨0x1E, 0, 0, 1⟩] := by
  refine ⟨defaultBranch_of_mem (by decide),
    [chars "OP_CREATE_SCRATCH_INDEX", chars "1", chars "0", chars "0"],
    [chars "OP_CREATE_SCRATCH_INDEX", chars "0", chars "1", chars "0"],
    ?_, ?_, ?_, ?_, ?_, ?_⟩ <;> decide +kernel

end ImpulseTools

import ImpulseTools.Asm.Overlap

/-! # The flags operand

A stream walk stores the index of its shader in the flags byte, whose top bit marks an extended
unit. The multi-lane and vector-search instructions find their flags operand by the number of
tokens, which the forms of one of them do not have.
-/

namespace ImpulseTools

namespace Runtime

variable {py : Runtime} {K K' : Constants} {env : Env} {op : Op} {toks toks' : List Text}

def isWalkStream : Op → Bool
  | .cooWalkStream | .csrWalkStream | .cscWalkStream => true
  | _ => false

theorem encode_walkStream (hop : isWalkStream op) {q : ℕ}
    (hq : py.HasValue env.constants toks 4 q) {ws : List Instruction}
    (h : py.encode env op toks = .ok ws) : ∃ w, ws = [w] ∧ w.flags.toNat = q % 256 := by
  obtain ⟨o, ho, rfl⟩ := encode_eq_ok.mp h
  have hb : branch op toks = .form { fields := layout 2 0 [16, 16], flags := some 4 } ∧
      ¬ extendable op := by
    cases op <;> first | exact absurd hop (by decide) | exact ⟨rfl, by decide⟩
  obtain ⟨-, rfl⟩ := (operands_eq_ok_of_form hb.1).mp ho
  refine ⟨_, emit_of_not_extendable hb.2 _, ?_⟩
  simp only [Instruction.ofInts_flags, formOperands, hq.valueOr_eq, toNat_ofInt,
    toNat_mask_natCast]
  rfl

/-- In an accepted file a stream walk is one word, and the word holds the index of its shader with
bit 7 clear exactly if the index is below 128. -/
theorem shader_pc_iff {text : Text} {p : Program} (h : py.parseImpasFile K text = (.ok p, K')) :
    ∃ env units, env.constants = K' ∧
      List.Forall₂ (py.Encodes env) (py.instructionLines text) units ∧
      p.instructions = units.flatten ∧
      ∀ (i : ℕ) l op (q : ℕ), (py.instructionLines text)[i]? = some l →
        Op.ofName? l.1 = some op → isWalkStream op → py.HasValue K' l.2 4 q →
        ∃ w, units[i]? = some [w] ∧ (w.flags.toNat = q ∧ ¬ w.extended ↔ q < 128) := by
  obtain ⟨env, units, data, rfl, ha⟩ := exists_units h
  refine ⟨env, units, rfl, ha.encodes, ha.instructions_eq, ?_⟩
  intro i l op q hi hop hs hq
  obtain ⟨u, hu, henc⟩ := ExceptFold.exists_getElem? ha.encodes hi
  obtain ⟨w, rfl, hw⟩ := encode_walkStream hs hq (henc.encode_eq hop)
  refine ⟨w, hu, ?_⟩
  rw [Instruction.extended_iff, hw]
  omega

theorem shader_pc_iff_walk :
    ∃ p K', Runtime.ascii.parseImpasFile constants
        (chars "OP_CSR_WALK_STREAM R0, R3, 0, 2\nOP_HALT\nOP_STREAM_FUNC_BEGIN") = (.ok p, K') ∧
      ∃ w, p.instructions.head? = some w ∧ w.flags.toNat = 2 ∧ ¬ w.extended := by
  obtain ⟨p, hp⟩ := exists_program Runtime.ascii constants
    (chars "OP_CSR_WALK_STREAM R0, R3, 0, 2\nOP_HALT\nOP_STREAM_FUNC_BEGIN") (by decide +kernel)
  obtain ⟨env, units, -, -, hp', hwalk⟩ := shader_pc_iff hp
  obtain ⟨w, hu, hw⟩ := hwalk 0 (chars "OP_CSR_WALK_STREAM",
    [chars "OP_CSR_WALK_STREAM", chars "R0", chars "R3", chars "0", chars "2"]) .csrWalkStream 2
    (by decide +kernel) (by decide +kernel) rfl (by decide +kernel)
  refine ⟨p, _, hp, w, ?_, hw.mpr (by decide)⟩
  cases units with
  | nil => cases hu
  | cons u units =>
    cases hu
    rw [hp']
    rfl

/-- The walk of a file of 129 instructions with its own index for a shader: its word is extended. -/
theorem shader_pc_collision :
    ((Runtime.ascii.parseImpasFile constants ((List.replicate 128 (chars "OP_NOP\n")).flatten ++
        chars "OP_COO_WALK_STREAM R0, R3, 0, 128")).1.toOption.map fun p =>
      (p.instructions.length, p.instructions[128]?.map fun w => (w.opcode, w.flags, w.extended))) =
        some (129, some (0xA0, 128, true)) := by
  decide +kernel

/-- How many operands stand before `FLAGS` in the forms of the multi-lane and vector-search
instructions (`IMPAS_SPECIFICATION.md`, section 2.1). -/
def flagsForms : Op → List ℕ
  | .laneInitSeeds | .laneCsrWalk | .laneCscWalk | .laneReduceAnd | .vectorAnnSearch => [3]
  | .laneInitGroups | .laneSetEdgeMask | .laneReduceAttr | .laneSetCover | .vectorRerankDot => [4]
  | .lanePruneMask | .laneFilterQuorum => [3, 5]
  | _ => []

theorem branch_congr (hlen : toks.length = toks'.length)
    (h : ∀ i < 4, toks.getD i [] = toks'.getD i []) : branch op toks = branch op toks' := by
  unfold branch
  simp only [hlen, h 1 (by decide), h 2 (by decide), h 3 (by decide)]

theorem payload_congr {f : Form} (hlen : toks.length = toks'.length)
    (h : ∀ i ∈ f.whole.toList ++ f.fields.map Field.tok,
      py.valueAt K toks i = py.valueAt K toks' i) :
    (py.formOperands K toks f).payload = (py.formOperands K toks' f).payload := by
  obtain ⟨hw, hf⟩ := List.forall_mem_append.mp h
  have hwhole : py.valueOr K toks f.whole f.base = py.valueOr K toks' f.whole f.base := by
    cases hi : f.whole with
    | none => rfl
    | some i => rw [valueOr, valueOr, hlen, hw i (by simp [hi])]
  simp only [formOperands, hwhole]
  refine List.foldl_ext _ _ _ fun q g hg => ?_
  rw [fieldValue, fieldValue, hf g.tok (List.mem_map_of_mem hg)]

/-- The branch of a line with a flags operand reads it as such, and no operand behind it. -/
theorem form_of_flagsForms {k : ℕ} (hk : k ∈ flagsForms op) (hop : op ≠ .vectorAnnSearch)
    (hlen : toks.length = k + 2) :
    ∃ f, branch op toks = .form f ∧ f.flags = some (k + 1) ∧
      ∀ i ∈ f.dst.toList ++ f.whole.toList ++ f.fields.map Field.tok, 1 ≤ i ∧ i ≤ k := by
  cases op <;> first | (simp [flagsForms] at hk; done) | skip
  case vectorAnnSearch => exact absurd rfl hop
  case laneInitSeeds | laneCsrWalk | laneCscWalk | laneReduceAnd =>
    obtain rfl := List.mem_singleton.mp hk
    refine ⟨_, defaultBranch_of_mem (by decide) toks, ?_⟩
    rw [defaultForm]
    split_ifs <;> exact ⟨rfl, by decide⟩
  case lanePruneMask | laneFilterQuorum =>
    simp only [flagsForms, List.mem_cons, List.not_mem_nil, or_false] at hk
    rcases hk with rfl | rfl <;>
      exact ⟨_, by simp only [branch, hlen]; rfl, rfl, by decide⟩
  all_goals
    obtain rfl := List.mem_singleton.mp hk
    exact ⟨_, by simp only [branch, hlen]; rfl, rfl, by decide⟩

/-- A search has no form with its flags operand: it is stored over the third operand. -/
theorem branch_vectorAnnSearch (hlen : toks.length = 5) :
    branch .vectorAnnSearch toks =
      .form { fields := [⟨2, 8, 0⟩, ⟨3, 8, 8⟩, ⟨4, 16, 16⟩], flags := some 5 } := by
  simp only [branch, hlen]
  rfl

theorem not_extendable_of_flagsForms {k : ℕ} (hk : k ∈ flagsForms op) : ¬ extendable op := by
  cases op <;> first | (simp [flagsForms] at hk; done) | decide

theorem three_le_of_flagsForms {k : ℕ} (hk : k ∈ flagsForms op) : 3 ≤ k := by
  cases op <;> simp [flagsForms] at hk <;> omega

theorem getElem?_line {t f : Text} {pre : List Text} {i : ℕ} (hi : i ≤ pre.length) :
    (t :: (pre ++ [f]))[i]? = (t :: pre)[i]? := by
  rw [← List.cons_append, List.getElem?_append_left]
  exact Nat.lt_succ_of_le hi

theorem hasValue_line {t f : Text} {pre : List Text} {v : ℤ} (hv : py.parseVal K f = .ok v) :
    py.HasValue K (t :: (pre ++ [f])) (pre.length + 1) v :=
  ⟨f, by simp, hv⟩

theorem evaluates_line {t f : Text} {pre : List Text} {v : ℤ}
    (hval : ∀ a ∈ pre, ∃ u, py.parseVal K a = .ok u) (hv : py.parseVal K f = .ok v) {i : ℕ}
    (hi : 1 ≤ i) : py.Evaluates K (t :: (pre ++ [f])) i := by
  intro a ha
  obtain ⟨i, rfl⟩ := Nat.exists_eq_add_of_le' hi
  rcases List.mem_append.mp (List.mem_of_getElem? (List.getElem?_cons_succ ▸ ha)) with h | h
  · exact hval a h
  · obtain rfl := List.mem_singleton.mp h
    exact ⟨v, hv⟩

theorem encode_line {t f : Text} {pre : List Text} {v : ℤ} {F : Form}
    (hval : ∀ a ∈ pre, ∃ u, py.parseVal env.constants a = .ok u)
    (hv : py.parseVal env.constants f = .ok v) (hx : ¬ extendable op)
    (hb : branch op (t :: (pre ++ [f])) = .form F) (hpos : ∀ i ∈ F.tokens, 1 ≤ i) :
    py.encode env op (t :: (pre ++ [f])) = .ok [.ofInts op.code
      (py.formOperands env.constants (t :: (pre ++ [f])) F).flags
      (py.formOperands env.constants (t :: (pre ++ [f])) F).dst
      (mask 32 (py.formOperands env.constants (t :: (pre ++ [f])) F).payload)] := by
  refine encode_eq_ok.mpr ⟨_, (operands_eq_ok_of_form hb).mpr ⟨fun i hi => ?_, rfl⟩,
    emit_of_not_extendable hx _⟩
  exact evaluates_line hval hv (hpos i hi)

theorem flags_line {t f : Text} {pre : List Text} {v : ℤ} {F : Form}
    (hF : F.flags = some (pre.length + 1)) (hv : py.parseVal K f = .ok v) :
    (py.formOperands K (t :: (pre ++ [f])) F).flags = v := by
  rw [formOperands, hF]
  exact (hasValue_line hv).valueOr_eq _

theorem toNat_flags {v : ℕ} (hlt : v < 128) : (BitVec.ofInt 8 v).toNat = v := by
  rw [toNat_ofInt, toNat_mask_natCast, Nat.mod_eq_of_lt (by omega)]

theorem valueAt_line {t f f' : Text} {pre : List Text} {i : ℕ} (hi : i ≤ pre.length) :
    py.valueAt K (t :: (pre ++ [f])) i = py.valueAt K (t :: (pre ++ [f'])) i := by
  rw [valueAt, valueAt, getElem?_line hi, getElem?_line hi]

theorem length_line (t f : Text) (pre : List Text) :
    (t :: (pre ++ [f])).length = pre.length + 2 := by
  simp

theorem encode_flagsForms {pre : List Text} (hk : pre.length ∈ flagsForms op)
    (hop : op ≠ .vectorAnnSearch) {t f f' : Text}
    (hval : ∀ a ∈ pre, ∃ u, py.parseVal env.constants a = .ok u) {v v' : ℕ}
    (hv : py.parseVal env.constants f = .ok v) (hv' : py.parseVal env.constants f' = .ok v')
    (hlt : v < 128) (hlt' : v' < 128) :
    ∃ w w', py.encode env op (t :: (pre ++ [f])) = .ok [w] ∧
      py.encode env op (t :: (pre ++ [f'])) = .ok [w'] ∧
      w.flags.toNat = v ∧ w'.flags.toNat = v' ∧ w.payload = w'.payload := by
  have hlen : (t :: (pre ++ [f])).length = (t :: (pre ++ [f'])).length := by
    rw [length_line, length_line]
  have hx := not_extendable_of_flagsForms hk
  obtain ⟨F, hb, hF, htok⟩ := form_of_flagsForms hk hop (length_line t f pre)
  have hb' : branch op (t :: (pre ++ [f'])) = .form F := by
    rw [← hb]
    refine branch_congr hlen.symm fun i hi => ?_
    have hi' : i ≤ pre.length := by
      have := three_le_of_flagsForms hk
      omega
    rw [List.getD_eq_getElem?_getD, List.getD_eq_getElem?_getD, getElem?_line hi',
      getElem?_line hi']
  have hpos : ∀ i ∈ F.tokens, 1 ≤ i := by
    intro i hi
    rcases List.mem_append.mp hi with hi | hi
    · exact (htok i hi).1
    · rw [hF, Option.toList_some, List.mem_singleton] at hi
      omega
  have hpayload : (py.formOperands env.constants (t :: (pre ++ [f])) F).payload =
      (py.formOperands env.constants (t :: (pre ++ [f'])) F).payload :=
    payload_congr hlen fun i hi =>
      valueAt_line (htok i (by simp only [List.mem_append] at hi ⊢; tauto)).2
  refine ⟨_, _, encode_line hval hv hx hb hpos, encode_line hval hv' hx hb' hpos, ?_⟩
  simp only [Instruction.ofInts_flags, Instruction.ofInts_payload, hpayload, flags_line hF hv,
    flags_line hF hv', toNat_flags hlt, toNat_flags hlt', and_self]

theorem encode_vectorAnnSearch {pre : List Text} (hk : pre.length = 3) {t f f' : Text}
    (hval : ∀ a ∈ pre, ∃ u, py.parseVal env.constants a = .ok u) {v v' : ℤ}
    (hv : py.parseVal env.constants f = .ok v) (hv' : py.parseVal env.constants f' = .ok v') :
    ∃ w w', py.encode env .vectorAnnSearch (t :: (pre ++ [f])) = .ok [w] ∧
      py.encode env .vectorAnnSearch (t :: (pre ++ [f'])) = .ok [w'] ∧
      w.flags = 0 ∧ w'.flags = 0 ∧ (v = v' → w.payload = w'.payload) := by
  have hb (f : Text) : branch .vectorAnnSearch (t :: (pre ++ [f])) = .form _ :=
    branch_vectorAnnSearch (by rw [length_line, hk])
  have hzero (f : Text) : (py.formOperands env.constants (t :: (pre ++ [f]))
      { fields := [⟨2, 8, 0⟩, ⟨3, 8, 8⟩, ⟨4, 16, 16⟩], flags := some 5 }).flags = 0 := by
    simp [formOperands, valueOr, hk]
  have hx : ¬ extendable .vectorAnnSearch := by decide
  have hlen : (t :: (pre ++ [f])).length = (t :: (pre ++ [f'])).length := by
    rw [length_line, length_line]
  refine ⟨_, _, encode_line hval hv hx (hb f) (by decide),
    encode_line hval hv' hx (hb f') (by decide), ?_⟩
  simp only [Instruction.ofInts_flags, Instruction.ofInts_payload, hzero]
  refine ⟨rfl, rfl, fun hvv => ?_⟩
  rw [payload_congr hlen fun i hi => ?_]
  have hi : i = 2 ∨ i = 3 ∨ i = 4 := by simpa using hi
  by_cases h4 : i = pre.length + 1
  · rw [h4, (hasValue_line hv).valueAt_eq, (hasValue_line hv').valueAt_eq, hvv]
  · exact valueAt_line (by omega)

/-- A line in a form with a flags operand is one word, and of two such lines that differ in that
operand each has it in its flags byte and the payloads agree, for all but one mnemonic, and for
that one exactly if both flags are 0. -/
theorem flags_iff {pre : List Text} (hk : pre.length ∈ flagsForms op) {t f f' : Text}
    (hval : ∀ a ∈ pre, ∃ u, py.parseVal env.constants a = .ok u) {v v' : ℕ}
    (hv : py.parseVal env.constants f = .ok v) (hv' : py.parseVal env.constants f' = .ok v')
    (hlt : v < 128) (hlt' : v' < 128) :
    ∃ w w', py.encode env op (t :: (pre ++ [f])) = .ok [w] ∧
      py.encode env op (t :: (pre ++ [f'])) = .ok [w'] ∧
      (w.flags.toNat = v ∧ w'.flags.toNat = v' ∧ w.payload = w'.payload ↔
        op ≠ .vectorAnnSearch ∨ v = 0 ∧ v' = 0) := by
  by_cases hop : op = .vectorAnnSearch
  · subst hop
    obtain ⟨w, w', hw, hw', h0, h0', hpayload⟩ :=
      encode_vectorAnnSearch (t := t) (List.mem_singleton.mp hk) hval hv hv'
    refine ⟨w, w', hw, hw', ?_⟩
    rw [h0, h0']
    constructor
    · rintro ⟨h, h', -⟩
      exact .inr ⟨h.symm, h'.symm⟩
    · rintro (h | ⟨rfl, rfl⟩)
      · exact absurd rfl h
      · exact ⟨rfl, rfl, hpayload rfl⟩
  · obtain ⟨w, w', hw, hw', hall⟩ := encode_flagsForms (t := t) hk hop hval hv hv' hlt hlt'
    exact ⟨w, w', hw, hw', iff_of_true hall (.inl hop)⟩

theorem flags_iff_laneCsrWalk :
    ∃ w w', Runtime.ascii.encode ⟨constants, ∅, ∅⟩ .laneCsrWalk
        [chars "OP_LANE_CSR_WALK", chars "R3", chars "R2", chars "300", chars "1"] = .ok [w] ∧
      Runtime.ascii.encode ⟨constants, ∅, ∅⟩ .laneCsrWalk
        [chars "OP_LANE_CSR_WALK", chars "R3", chars "R2", chars "300", chars "2"] = .ok [w'] ∧
      w.flags.toNat = 1 ∧ w'.flags.toNat = 2 ∧ w.payload = w'.payload := by
  have hk : [chars "R3", chars "R2", chars "300"].length ∈ flagsForms .laneCsrWalk := by decide
  have hval : ∀ a ∈ [chars "R3", chars "R2", chars "300"],
      ∃ u, Runtime.ascii.parseVal (Env.constants ⟨constants, ∅, ∅⟩) a = .ok u := by
    simp only [List.forall_mem_cons]
    exact ⟨⟨3, by decide +kernel⟩, ⟨2, by decide +kernel⟩, ⟨300, by decide +kernel⟩, by simp⟩
  have hv : Runtime.ascii.parseVal (Env.constants ⟨constants, ∅, ∅⟩) (chars "1") = .ok (1 : ℕ) := by
    decide +kernel
  have hv' : Runtime.ascii.parseVal (Env.constants ⟨constants, ∅, ∅⟩) (chars "2") =
      .ok (2 : ℕ) := by
    decide +kernel
  obtain ⟨w, w', hw, hw', h⟩ := flags_iff (t := chars "OP_LANE_CSR_WALK") hk hval hv hv'
    (by decide) (by decide)
  exact ⟨w, w', hw, hw', h.mpr (.inl (by decide))⟩

end Runtime

/-- The flags 0 and 1 of a search: the flags byte is 0, and the payload has the operand. -/
theorem flags_vectorAnnSearch :
    3 ∈ Runtime.flagsForms .vectorAnnSearch ∧
      (Runtime.ascii.parseImpasFile constants
          (chars "OP_VECTOR_ANN_SEARCH R2, R1, 1, 0")).1.toOption.map (·.instructions) =
        some [⟨0xCA, 0, 2, 0x101⟩] ∧
      (Runtime.ascii.parseImpasFile constants
          (chars "OP_VECTOR_ANN_SEARCH R2, R1, 1, 1")).1.toOption.map (·.instructions) =
        some [⟨0xCA, 0, 2, 0x10101⟩] := by
  exact ⟨by decide, by decide +kernel, by decide +kernel⟩

end ImpulseTools

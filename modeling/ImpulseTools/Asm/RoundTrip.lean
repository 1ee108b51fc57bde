import ImpulseTools.Asm.Framing

/-! # Operand round trip

What the machine reads back from the words of a line: the operands themselves when they fit
the fields of the line's layout, and their remainders when they do not.
-/

namespace ImpulseTools

theorem layout_bounds {tok s : ℕ} {ws : List ℕ} {g : Field} (h : g ∈ layout tok s ws) :
    s ≤ g.shift ∧ g.shift + g.width ≤ s + ws.sum := by
  induction ws generalizing tok s with
  | nil => cases h
  | cons w ws ih =>
    rw [List.sum_cons]
    rcases List.mem_cons.mp h with rfl | h
    · exact ⟨le_rfl, by simp only; omega⟩
    · obtain ⟨h1, h2⟩ := ih h
      omega

theorem layout_disjoint {tok s : ℕ} {ws : List ℕ} {g g' : Field} (h : g ∈ layout tok s ws)
    (h' : g' ∈ layout tok s ws) : g' = g ∨ g.bits.Disjoint g'.bits := by
  induction ws generalizing tok s with
  | nil => cases h
  | cons w ws ih =>
    rcases List.mem_cons.mp h with rfl | h <;> rcases List.mem_cons.mp h' with rfl | h'
    · exact .inl rfl
    · exact .inr (.inl (layout_bounds h').1)
    · exact .inr (.inr (layout_bounds h).1)
    · exact ih h h'

/-- The widths of the source operands, from token 2 and bit 0 on, and the flags operand of the
lines that name a destination first and have a layout of their own. -/
def operandLayout (op : Op) (toks : List Text) : Option (List ℕ × Option ℕ) :=
  let n := toks.length
  match op with
  | .csrWalkFiltered | .readEdgeWeight => if 5 ≤ n then some ([8, 8, 16], none) else none
  | .islandDetect => if 4 ≤ n then some ([8, 8, 16], none) else none
  | .csrWalkPredicate | .mxv | .vxm | .ewiseAdd | .ewiseMult | .gatherNodeAttr
  | .cooWalkFiltered | .collectValueMap => some ([8, 8, 16], none)
  | .laneInitGroups | .laneSetEdgeMask | .laneReduceAttr | .laneSetCover | .vectorAnnSearch
  | .vectorRerankDot => if 5 ≤ n then some ([8, 8, 16], some 5) else none
  | .nodeFilter | .nodeFilterStrPrefix | .vectorTimeValidAt => some ([8, 8, 8, 8], none)
  | .vecMathTernary => some ([8, 8, 8, 8], some 6)
  | .lanePruneMask | .laneFilterQuorum => if 6 ≤ n then some ([8, 8, 8, 8], some 6) else none
  | .vecBlend => some ([8, 8, 8], none)
  | .vecMathBinary => some ([8, 8, 8], some 5)
  | .mapDenseToKeys => some ([8, 16], none)
  | .cscWalk => if 5 ≤ n then some ([16, 8, 8], none) else none
  | .setUnion | .setIntersect | .setDifference | .loadIndirect | .enterFrame | .cooWalkStream
  | .csrWalkStream | .cscWalkStream => some ([16, 16], some 4)
  | .vectorDiv | .vectorStrConcat | .l1NormDiff | .roaringBitmapAnd | .roaringBitmapOr
  | .roaringBitmapAndNot => if 4 ≤ n then some ([16, 16], some 4) else none
  | .coalesce => some ([16, 16], none)
  | .jmp | .jz | .jnz | .call | .trap | .nop | .halt | .ret | .leaveFrame | .stableCheck
  | .initMockGraph | .loadInlineArray | .loadInlineIntArray | .loadInlineSet
  | .loadInlineSetDense | .loadInlineSetRoaring | .loadInlineNodeArray | .loadConstFloat
  | .loadConstInt | .initMockNodeAttr | .initMockEdgeAttr | .floatVectorScale | .frontierDiff
  | .extractValidity | .csrWalk2hop | .vecCmpBetween | .vecCmpEq
  | .vecCmpGt | .vecCmpLt | .maskAnd | .maskOr | .maskNot | .vecMathUnary | .streamLoadConst
  | .assert | .allocScratch | .assertScratchBytes | .setMaxDop => none
  | op =>
    if op.name.startsWith (chars "OP_STREAM_") then some ([16, 8, 8], none)
    else if (toks.getD 1 []).startsWith (chars "R") then some ([16, 16], some 4)
    else none

/-- The branch of a line that has a layout. Bits of the payload that no operand gives are in
the field of an operand the line lacks. -/
theorem branch_of_operandLayout {op : Op} {toks : List Text} {ws : List ℕ} {i : Option ℕ}
    (h : operandLayout op toks = some (ws, i)) :
    ∃ b e, branch op toks =
        .form { dst := some 1, base := b, fields := layout 2 0 ws, flags := i, flagsElse := e } ∧
      ws.sum ≤ 32 ∧ ∀ g ∈ layout 2 0 ws, g.tok < toks.length → g.bits.get b = 0 := by
  unfold operandLayout at h
  by_cases hm : op = .ewiseMult
  · subst hm
    cases h
    refine ⟨_, _, rfl, by decide, fun g hg hlen => ?_⟩
    by_cases h4 : 4 < toks.length
    · rw [if_pos h4]
      exact g.bits.get_zero
    · rw [if_neg h4]
      have hg' : g = ⟨2, 8, 0⟩ ∨ g = ⟨3, 8, 8⟩ ∨ g = ⟨4, 16, 16⟩ := by simpa [layout] using hg
      rcases hg' with rfl | rfl | rfl
      · rfl
      · rfl
      · exact absurd hlen h4
  · suffices branch op toks = .form {
        dst := some 1, fields := layout 2 0 ws, flags := i,
        flagsElse := if op = .laneFilterQuorum then 1 else 0 } ∧ ws.sum ≤ 32 from
      ⟨0, _, this.1, this.2, fun g _ _ => g.bits.get_zero⟩
    cases op <;> first
      | exact absurd rfl hm
      | (cases h; done)
      | (cases h; exact ⟨rfl, by decide⟩)
      | (dsimp only at h; unfold branch; dsimp only; split_ifs at h <;> cases h <;>
          (refine ⟨?_, by decide⟩) <;> (try split_ifs) <;> first | omega | contradiction | rfl)

theorem form_of_operandLayout {op : Op} {toks : List Text} {ws : List ℕ} {i : Option ℕ}
    (h : operandLayout op toks = some (ws, i)) :
    ∃ f, branch op toks = .form f ∧ f.dst = some 1 ∧ f.flags = i ∧
      ∀ g ∈ layout 2 0 ws, g.tok < toks.length → f.Stores g := by
  obtain ⟨b, e, hb, hsum, hbase⟩ := branch_of_operandLayout h
  refine ⟨_, hb, rfl, rfl, fun g hg hlen => ⟨rfl, hg, ?_, hbase g hg hlen, fun g' hg' => ?_⟩⟩
  · have := (layout_bounds hg).2
    omega
  · exact layout_disjoint hg hg'

namespace Runtime

variable {py : Runtime}

/-- The operands of a line fit the fields of its layout, and its flags leave bit 7 clear. -/
structure OperandsFit (py : Runtime) (K : Constants) (toks : List Text) (ws : List ℕ)
    (i : Option ℕ) : Prop where
  dst : ∀ v, py.HasValue K toks 1 v → 0 ≤ v ∧ v < 2 ^ 16
  source : ∀ g ∈ layout 2 0 ws, ∀ v, py.HasValue K toks g.tok v → 0 ≤ v ∧ v < 2 ^ g.width
  flags : ∀ j ∈ i, ∀ v, py.HasValue K toks j v → 0 ≤ v ∧ v < 128

theorem operandsFit_of_valueAt {K : Constants} {toks : List Text} {ws : List ℕ} {i : Option ℕ}
    (hd : 0 ≤ py.valueAt K toks 1 ∧ py.valueAt K toks 1 < 2 ^ 16)
    (hs : ∀ g ∈ layout 2 0 ws, 0 ≤ py.valueAt K toks g.tok ∧ py.valueAt K toks g.tok < 2 ^ g.width)
    (hf : ∀ j ∈ i, 0 ≤ py.valueAt K toks j ∧ py.valueAt K toks j < 128) :
    OperandsFit py K toks ws i where
  dst _ hv := hv.valueAt_eq ▸ hd
  source g hg _ hv := hv.valueAt_eq ▸ hs g hg
  flags j hj _ hv := hv.valueAt_eq ▸ hf j hj

structure ReadsBack (py : Runtime) (K : Constants) (toks : List Text) (ws : List ℕ)
    (i : Option ℕ) (r : VmUnit) : Prop where
  dst : ∀ v, py.HasValue K toks 1 v → (r.dst : ℤ) = v
  source : ∀ g ∈ layout 2 0 ws, ∀ v, py.HasValue K toks g.tok v → (g.bits.get r.payload : ℤ) = v
  flags : ∀ j ∈ i, ∀ v, py.HasValue K toks j v → (r.flags : ℤ) = v

theorem readUnit_encode {env : Env} {op : Op} {toks : List Text} {u : List Instruction}
    {ws : List ℕ} {i : Option ℕ} (h : py.encode env op toks = .ok u)
    (hl : operandLayout op toks = some (ws, i))
    (hr : OperandsFit py env.constants toks ws i) :
    ∃ r, readUnit u = some r ∧ r.opcode = op.code ∧ ReadsBack py env.constants toks ws i r := by
  obtain ⟨o, ho, rfl⟩ := encode_eq_ok.mp h
  obtain ⟨f, hb, hd, hi, hstores⟩ := form_of_operandLayout hl
  have hflags : 0 ≤ o.flags ∧ o.flags < 128 := by
    refine flags_mem ho fun j hj => hr.flags j ?_
    rw [flagsToken, hb] at hj
    rwa [← hi]
  obtain ⟨-, rfl⟩ := (operands_eq_ok_of_form hb).mp ho
  refine ⟨_, readUnit_emit op _ hflags.1 hflags.2, rfl, ?_, ?_, ?_⟩
  · intro v hv
    obtain ⟨h0, h1⟩ := hr.dst v hv
    simp only [formOperands, hd, hv.valueOr_eq]
    rw [mask_of_lt h0 h1, Int.toNat_of_nonneg h0]
  · intro g hg v hv
    obtain ⟨h0, h1⟩ := hr.source g hg v hv
    rw [get_payload (hstores g hg hv.lt) hv, mask_of_lt h0 h1, Int.toNat_of_nonneg h0]
  · intro j hj v hv
    obtain rfl : i = some j := hj
    simp only [formOperands, hi, hv.valueOr_eq]
    exact Int.toNat_of_nonneg (hr.flags j rfl v hv).1

variable {K K' : Constants} {text : Text} {p : Program}

/-- The operands of every line of an accepted file that fit the line's layout are read back
from its unit. -/
theorem operand_round_trip (h : py.parseImpasFile K text = (.ok p, K')) :
    ∃ units, p.instructions = units.flatten ∧
      List.Forall₂ (fun l u => ∃ op, Op.ofName? l.1 = some op ∧
        ∀ ws i, operandLayout op l.2 = some (ws, i) → OperandsFit py K' l.2 ws i →
          ∃ r, readUnit u = some r ∧ r.opcode = op.code ∧ ReadsBack py K' l.2 ws i r)
        (py.instructionLines text) units := by
  obtain ⟨env, units, data, rfl, ha⟩ := exists_units h
  refine ⟨units, ha.instructions_eq, ha.encodes.imp ?_⟩
  rintro l u ⟨op, hop, he⟩
  exact ⟨op, hop, fun ws i hl hr => readUnit_encode he hl hr⟩

theorem operand_round_trip_gather :
    ∃ p K', Runtime.ascii.parseImpasFile constants (chars "OP_GATHER_NODE_ATTR R1, R2, R3, 300") =
        (.ok p, K') ∧
      ∃ r, readUnit p.instructions = some r ∧ r.dst = 1 ∧
        (Field.bits ⟨4, 16, 16⟩).get r.payload = 300 := by
  obtain ⟨p, hp⟩ := exists_program Runtime.ascii constants
    (chars "OP_GATHER_NODE_ATTR R1, R2, R3, 300") (by decide +kernel)
  obtain ⟨units, hi, hu⟩ := operand_round_trip hp
  have hl : Runtime.ascii.instructionLines (chars "OP_GATHER_NODE_ATTR R1, R2, R3, 300") =
      [(chars "OP_GATHER_NODE_ATTR", [chars "OP_GATHER_NODE_ATTR", chars "R1", chars "R2",
        chars "R3", chars "300"])] := by decide +kernel
  rw [hl] at hu
  obtain ⟨u, ⟨op, hop, hr⟩, rfl⟩ := ExceptFold.forall₂_singleton_left.mp hu
  obtain rfl : op = .gatherNodeAttr := Option.some.inj (hop.symm.trans (by decide +kernel))
  obtain ⟨r, hr, -, hb⟩ := hr [8, 8, 16] none rfl
    (operandsFit_of_valueAt (by decide +kernel) (by decide +kernel) (by decide))
  have hd := hb.dst 1 ⟨_, rfl, by decide +kernel⟩
  have ha := hb.source ⟨4, 16, 16⟩ (by decide) 300 ⟨_, rfl, by decide +kernel⟩
  refine ⟨p, _, hp, r, ?_, by exact_mod_cast hd, by exact_mod_cast ha⟩
  rw [hi, List.flatten_singleton, hr]

end Runtime

/-- A destination below zero is below `2 ^ 16`, and is read back as another register. -/
theorem not_round_trip_negative_dst :
    (Runtime.ascii.parseImpasFile constants (chars "OP_MXV R-1, R1, R2, 3")).1.toOption.map
        (·.instructions) = some [⟨0x41, 0, 65535, 0x30201⟩] ∧
      ∃ toks, Runtime.ascii.instructionLines (chars "OP_MXV R-1, R1, R2, 3") =
          [(chars "OP_MXV", toks)] ∧
        operandLayout .mxv toks = some ([8, 8, 16], none) ∧
        (∀ v, Runtime.ascii.HasValue constants toks 1 v → v < 2 ^ 16) ∧
        (∀ g ∈ layout 2 0 [8, 8, 16], ∀ v, Runtime.ascii.HasValue constants toks g.tok v →
          0 ≤ v ∧ v < 2 ^ g.width) ∧
        ¬ ∃ r, readUnit [⟨0x41, 0, 65535, 0x30201⟩] = some r ∧
          Runtime.ReadsBack Runtime.ascii constants toks [8, 8, 16] none r := by
  have hs : ∀ g ∈ layout 2 0 [8, 8, 16],
      0 ≤ Runtime.ascii.valueAt constants
        [chars "OP_MXV", chars "R-1", chars "R1", chars "R2", chars "3"] g.tok ∧
      Runtime.ascii.valueAt constants
        [chars "OP_MXV", chars "R-1", chars "R1", chars "R2", chars "3"] g.tok < 2 ^ g.width := by
    decide +kernel
  have hd : Runtime.ascii.HasValue constants
      [chars "OP_MXV", chars "R-1", chars "R1", chars "R2", chars "3"] 1 (-1) :=
    ⟨_, rfl, by decide +kernel⟩
  refine ⟨by decide +kernel, [chars "OP_MXV", chars "R-1", chars "R1", chars "R2", chars "3"],
    by decide +kernel, rfl, ?_, ?_, ?_⟩
  · intro v hv
    rw [← hv.valueAt_eq, hd.valueAt_eq]
    decide
  · exact fun g hg v hv => hv.valueAt_eq ▸ hs g hg
  · rintro ⟨r, -, hr⟩
    have := hr.dst _ hd
    omega

end ImpulseTools

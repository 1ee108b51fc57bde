import ImpulseTools.Asm.Accept
import ImpulseTools.Asm.Directive
import ImpulseTools.Asm.Storage

/-! # The words that can be written

Which words instruction lines are assembled to, over all texts: those of the operands that the
branches of the mnemonics leave free. The lines whose payload is a symbol or a float are left out.
-/

namespace ImpulseTools

inductive Dest where
  | absent
  | operand
  /-- An operand that goes to the payload as well. -/
  | shared
  deriving DecidableEq

/-- The operands a mnemonic leaves free. -/
structure Space where
  dest : Dest := .operand
  /-- The bits of the payload, from the lowest on. -/
  bits : ℕ := 32
  flags : Bool := false
  /-- A number of any size can stand in place of the destination. -/
  literal : Bool := false

def space (op : Op) : Option Space :=
  match op with
  | .initMockGraph | .loadInlineArray | .loadInlineIntArray | .loadInlineSet
  | .loadInlineSetDense | .loadInlineSetRoaring | .loadInlineNodeArray | .loadConstFloat => none
  | .jmp | .jz | .jnz | .call | .trap | .nop | .halt | .ret | .leaveFrame =>
    some { dest := .absent }
  | .stableCheck => some { dest := .shared }
  | .initMockNodeAttr | .initMockEdgeAttr => some { bits := 14 }
  | .maskNot => some { bits := 8 }
  | .frontierDiff | .extractValidity | .vecCmpEq | .vecCmpGt | .vecCmpLt | .maskAnd | .maskOr =>
    some { bits := 16 }
  | .mapDenseToKeys | .vecBlend => some { bits := 24 }
  | .loadConstInt | .readEdgeWeight | .islandDetect | .collectValueMap | .coalesce | .nodeFilter
  | .nodeFilterStrPrefix | .vectorTimeValidAt | .cscWalk | .csrWalkFiltered | .csrWalkPredicate
  | .csrWalk2hop | .mxv | .vxm | .ewiseAdd | .ewiseMult | .vecCmpBetween | .streamLoadConst
  | .gatherNodeAttr | .cooWalkFiltered | .allocScratch | .assertScratchBytes | .setMaxDop =>
    some {}
  | .vecMathUnary => some { bits := 16, flags := true }
  | .vecMathBinary => some { bits := 24, flags := true }
  | .floatVectorScale | .vectorDiv | .vectorStrConcat | .l1NormDiff | .roaringBitmapAnd
  | .roaringBitmapOr | .roaringBitmapAndNot | .cooWalkStream | .csrWalkStream | .cscWalkStream
  | .vecMathTernary | .setUnion | .setIntersect | .setDifference | .assert | .loadIndirect
  | .enterFrame | .laneInitGroups | .laneSetEdgeMask | .laneReduceAttr | .laneSetCover
  | .vectorAnnSearch | .vectorRerankDot | .lanePruneMask | .laneFilterQuorum =>
    some { flags := true }
  | op =>
    if op.name.startsWith (chars "OP_STREAM_") then some {}
    else some { flags := true, literal := true }

def Dest.Holds (d : Dest) (o : Operands) : Prop :=
  match d with
  | .absent => o.dst = 0
  | .operand => 0 ≤ o.dst ∧ o.dst < 2 ^ 16
  | .shared => o.dst = mask 16 o.payload ∨ o.dst = 0 ∧ o.payload < 2 ^ 16

structure Space.Holds (s : Space) (o : Operands) : Prop where
  flags : 0 ≤ o.flags ∧ o.flags < if s.flags then 2 ^ 8 else 1
  operands : 0 ≤ o.payload ∧ o.payload < 2 ^ s.bits ∧ s.dest.Holds o ∨
    s.literal ∧ o.dst = 0 ∧ -2 ^ 32 ≤ o.payload ∧ o.payload < 2 ^ 33

/-- The words are those of a line, for some operands that its mnemonic leaves free. -/
def Writable (u : List Instruction) : Prop :=
  ∃ op s o, space op = some s ∧ s.Holds o ∧ u = emit op o

structure Form.Within (f : Form) (op : Op) (s : Space) : Prop where
  dest : s.dest = .operand ∨ s.dest = .absent ∧ f.dst = none
  flags : s.flags = true ∧ f.flagsElse < 2 ^ 8 ∨ f.flags = none ∧ f.flagsElse = 0
  payload : (f.whole = none ∧ f.base < 2 ^ s.bits ∧ ∀ g ∈ f.fields, g.shift + g.width ≤ s.bits) ∨
    (s.bits = 32 ∧ extendable op = false) ∨ s.literal = true ∧ f.dst = none

instance (f : Form) (op : Op) (s : Space) : Decidable (f.Within op s) :=
  decidable_of_iff (_ ∧ _ ∧ _) ⟨fun h => ⟨h.1, h.2.1, h.2.2⟩, fun h => ⟨h.1, h.2, h.3⟩⟩

theorem within_branch {op : Op} {toks : List Text} {f : Form} {s : Space} (hop : op ≠ .stableCheck)
    (hs : space op = some s) (hb : branch op toks = .form f) : f.Within op s := by
  unfold branch at hb
  cases op <;> first
    | exact absurd rfl hop
    | (cases hs; done)
    | (cases hb; done)
    | (cases hs; cases hb; decide)
    | (cases hs; dsimp only at hb; split_ifs at hb <;> cases hb <;> decide)

theorem float_branch {op : Op} {toks : List Text} {i : ℕ} {s : Space} (hs : space op = some s)
    (hb : branch op toks = .float i) : s = { flags := true } := by
  unfold branch at hb
  cases op <;> first
    | (cases hs; done)
    | cases hb
    | (cases hs; rfl)
    | (dsimp only at hb; split_ifs at hb)

theorem mockAttr_branch {op : Op} {toks : List Text} {s : Space} (hs : space op = some s)
    (hb : branch op toks = .mockAttr) : s = { bits := 14 } := by
  unfold branch at hb
  cases op <;> first
    | (cases hb; done)
    | (cases hs; rfl)
    | (dsimp only at hb; split_ifs at hb)

theorem inlineLoad_branch {op : Op} {toks : List Text} (hb : branch op toks = .inlineLoad) :
    space op = none := by
  unfold branch at hb
  cases op <;> first
    | rfl
    | cases hb
    | (dsimp only at hb; split_ifs at hb)

theorem ofInt_congr {w : ℕ} {v v' : ℤ} (h : mask w v = mask w v') :
    BitVec.ofInt w v = BitVec.ofInt w v' := by
  refine BitVec.eq_of_toNat_eq ?_
  rw [toNat_ofInt, toNat_ofInt, h]

theorem mask_mask {w k : ℕ} (h : w ≤ k) (v : ℤ) : mask w (mask k v) = mask w v :=
  Int.emod_emod_of_dvd v (pow_dvd_pow 2 h)

theorem mask_lor_extended (f : ℤ) : mask 8 (f.lor 0x80) = mask 7 f + 128 := by
  have hor : ∀ m < 2 ^ 8, m ||| 0x80 = m % 2 ^ 7 + 128 := by decide +kernel
  have hdiff : ∀ m < 2 ^ 8, m.ldiff 0x80 = m % 2 ^ 7 := by decide +kernel
  cases f with
  | ofNat n =>
    have h : (n ||| 0x80) % 2 ^ 8 = n % 2 ^ 7 + 128 := by
      rw [Nat.or_mod_two_pow, show 0x80 % 2 ^ 8 = 0x80 from rfl,
        hor _ (Nat.mod_lt _ (by decide)), Nat.mod_mod_of_dvd n (by decide)]
    exact congrArg Int.ofNat h
  | negSucc n =>
    have h : Nat.ldiff n 0x80 % 2 ^ 8 = n % 2 ^ 7 := by
      have hmod : Nat.ldiff n 0x80 % 2 ^ 8 = Nat.ldiff (n % 2 ^ 8) 0x80 := by
        refine Nat.eq_of_testBit_eq fun i => ?_
        rw [Nat.testBit_mod_two_pow, Nat.testBit_ldiff, Nat.testBit_ldiff, Nat.testBit_mod_two_pow,
          Bool.and_assoc]
      rw [hmod, hdiff _ (Nat.mod_lt _ (by decide)), Nat.mod_mod_of_dvd n (by decide)]
    change Int.negSucc (Nat.ldiff n 0x80) % 2 ^ 8 = Int.negSucc n % 2 ^ 7 + 128
    rw [Int.negSucc_emod _ (by decide), Int.negSucc_emod _ (by decide)]
    omega

theorem emit_congr {op : Op} {o o' : Operands} (hd : mask 16 o.dst = mask 16 o'.dst)
    (hf : mask 8 o.flags = mask 8 o'.flags) (hp : mask 32 o.payload = mask 32 o'.payload)
    (hx : extendable op → (255 < o.payload >>> (16 : ℕ) ↔ 255 < o'.payload >>> (16 : ℕ))) :
    emit op o = emit op o' := by
  have hlow : mask 16 o.payload = mask 16 o'.payload := by
    rw [← mask_mask (show 16 ≤ 32 by decide), hp, mask_mask (by decide)]
  have hhigh : mask 16 (o.payload >>> (16 : ℕ)) = mask 16 (o'.payload >>> (16 : ℕ)) := by
    have h := mask_halves o.payload
    rw [hlow, hp, ← mask_halves o'.payload] at h
    have := mask_nonneg 16 (o.payload >>> (16 : ℕ))
    have := mask_nonneg 16 (o'.payload >>> (16 : ℕ))
    omega
  have hext : mask 8 (o.flags.lor 0x80) = mask 8 (o'.flags.lor 0x80) := by
    rw [mask_lor_extended, mask_lor_extended, ← mask_mask (show 7 ≤ 8 by decide), hf,
      mask_mask (by decide)]
  have hword : Instruction.ofInts op.code o.flags o.dst (mask 32 o.payload) =
      .ofInts op.code o'.flags o'.dst (mask 32 o'.payload) := by
    rw [Instruction.ofInts, Instruction.ofInts, ofInt_congr hf, ofInt_congr hd, hp]
  have hwords : [Instruction.ofInts op.code (o.flags.lor 0x80) o.dst (mask 16 o.payload),
      .ofInts 0xFF 0 (mask 16 (o.payload >>> (16 : ℕ))) 0] =
      [.ofInts op.code (o'.flags.lor 0x80) o'.dst (mask 16 o'.payload),
        .ofInts 0xFF 0 (mask 16 (o'.payload >>> (16 : ℕ))) 0] := by
    rw [Instruction.ofInts, Instruction.ofInts, Instruction.ofInts, Instruction.ofInts,
      ofInt_congr hext, ofInt_congr hd, hlow, hhigh]
  unfold emit
  rw [hword, hwords]
  refine if_congr ?_ rfl rfl
  constructor
  · rintro ⟨h, he⟩
    exact ⟨(hx he).mp h, he⟩
  · rintro ⟨h, he⟩
    exact ⟨(hx he).mpr h, he⟩

theorem orAll_lt {l : List (BitField × ℕ)} {b n : ℕ} (hn : n < 2 ^ b)
    (h : ∀ p ∈ l, p.1.shift + p.1.width ≤ b) : BitField.orAll n l < 2 ^ b := by
  induction l generalizing n with
  | nil => exact hn
  | cons p l ih =>
    obtain ⟨hp, hl⟩ := List.forall_mem_cons.mp h
    rw [BitField.orAll_cons]
    refine ih (Nat.or_lt_two_pow hn ?_) hl
    rw [BitField.put, Nat.shiftLeft_eq]
    calc p.2 % 2 ^ p.1.width * 2 ^ p.1.shift
        < 2 ^ p.1.width * 2 ^ p.1.shift :=
          Nat.mul_lt_mul_of_pos_right (Nat.mod_lt _ (Nat.two_pow_pos _)) (Nat.two_pow_pos _)
      _ = 2 ^ (p.1.shift + p.1.width) := by rw [← pow_add, Nat.add_comm]
      _ ≤ 2 ^ b := Nat.pow_le_pow_right two_pos hp

theorem emit_mask {op : Op} (d q f : ℤ) : emit op ⟨d, q, f⟩ = emit op ⟨mask 16 d, q, mask 8 f⟩ :=
  emit_congr (mask_mask le_rfl d).symm (mask_mask le_rfl f).symm rfl fun _ => Iff.rfl

theorem emit_mask_payload {op : Op} (d q f : ℤ) (hx : extendable op = false) :
    emit op ⟨d, q, f⟩ = emit op ⟨d, mask 32 q, f⟩ := by
  refine emit_congr rfl rfl (mask_mask le_rfl q).symm fun he => ?_
  rw [hx] at he
  cases he

/-- A literal counts modulo the size of the payload, but for whether it needs an extension. -/
theorem exists_emit_literal (op : Op) (d q f : ℤ) :
    ∃ q', -2 ^ 32 ≤ q' ∧ q' < 2 ^ 33 ∧ emit op ⟨d, q, f⟩ = emit op ⟨d, q', f⟩ := by
  have h0 := mask_nonneg 32 q
  have h1 := mask_lt 32 q
  have hshift : ∀ v : ℤ, v >>> (16 : ℕ) = v / 2 ^ 16 := fun v => Int.shiftRight_eq_div_pow v 16
  by_cases hq : 255 < q >>> (16 : ℕ)
  · refine ⟨mask 32 q + 2 ^ 32, by omega, by omega, emit_congr rfl rfl ?_ fun _ => ?_⟩
    · exact ((Int.add_emod_right _ _).trans (Int.emod_emod_of_dvd _ dvd_rfl)).symm
    · refine iff_of_true hq ?_
      rw [hshift]
      dsimp only
      omega
  · refine ⟨mask 32 q - 2 ^ 32, by omega, by omega, emit_congr rfl rfl ?_ fun _ => ?_⟩
    · exact ((Int.sub_emod_right _ _).trans (Int.emod_emod_of_dvd _ dvd_rfl)).symm
    · refine iff_of_false hq ?_
      rw [hshift]
      dsimp only
      omega

theorem mask_flags_lt {s : Space} {f : ℤ} (h : s.flags = true ∨ f = 0) :
    0 ≤ mask 8 f ∧ mask 8 f < if s.flags then 2 ^ 8 else 1 := by
  refine ⟨mask_nonneg 8 f, ?_⟩
  rcases h with h | rfl
  · rw [if_pos h]
    exact mask_lt 8 f
  · split_ifs <;> decide

theorem writable_emit {op : Op} {s : Space} {d q f : ℤ} (hs : space op = some s)
    (hf : s.flags = true ∨ f = 0) (h0 : 0 ≤ q) (h1 : q < 2 ^ s.bits)
    (hd : s.dest.Holds ⟨d, q, mask 8 f⟩) : Writable (emit op ⟨d, q, mask 8 f⟩) :=
  ⟨op, s, _, hs, ⟨mask_flags_lt hf, .inl ⟨h0, h1, hd⟩⟩, rfl⟩

namespace Runtime

variable {py : Runtime} {env : Env} {op : Op} {toks : List Text} {s : Space}

theorem writable_of_form {f : Form} (hop : op ≠ .stableCheck) (hs : space op = some s)
    (hb : branch op toks = .form f) (K : Constants) :
    Writable (emit op (py.formOperands K toks f)) := by
  obtain ⟨hdest, hflags, hpayload⟩ := within_branch hop hs hb
  generalize ho : py.formOperands K toks f = o
  obtain ⟨d, q, v⟩ := o
  have hnone (h : f.dst = none) : d = 0 := by
    have hd := congrArg Operands.dst ho
    rw [formOperands, h] at hd
    exact hd.symm
  have hd (q v : ℤ) : s.dest.Holds ⟨mask 16 d, q, v⟩ := by
    rcases hdest with h | ⟨h, hdst⟩ <;> rw [h]
    · exact ⟨mask_nonneg 16 d, mask_lt 16 d⟩
    · rw [hnone hdst]
      rfl
  have hf : s.flags = true ∨ v = 0 := by
    refine hflags.imp And.left fun h => ?_
    have hv := congrArg Operands.flags ho
    rw [formOperands, h.1, h.2] at hv
    exact hv.symm
  rw [emit_mask]
  rcases hpayload with ⟨hw, hbase, hfields⟩ | ⟨hbits, hx⟩ | ⟨hlit, hdst⟩
  · have hq : q = (BitField.orAll f.base (f.fields.map (py.fieldPut K toks)) : ℕ) :=
      (congrArg Operands.payload ho).symm.trans (payload_eq hw)
    have hlt : q < 2 ^ s.bits := by
      rw [hq]
      exact_mod_cast orAll_lt hbase (List.forall_mem_map.mpr hfields)
    have h0 : 0 ≤ q := hq ▸ Int.natCast_nonneg _
    exact writable_emit hs hf h0 hlt (hd _ _)
  · rw [emit_mask_payload _ _ _ hx]
    exact writable_emit hs hf (mask_nonneg 32 q) (hbits ▸ mask_lt 32 q) (hd _ _)
  · obtain ⟨q', hlo, hhi, he⟩ := exists_emit_literal op (mask 16 d) q (mask 8 v)
    refine ⟨op, s, _, hs, ⟨mask_flags_lt hf, .inr ⟨hlit, ?_, hlo, hhi⟩⟩, he⟩
    rw [hnone hdst]
    rfl

/-- The destination of `OP_STABLE_CHECK` is the first operand, which the payload has too. -/
theorem writable_stableCheck {u : List Instruction}
    (h : py.encode env .stableCheck toks = .ok u) : Writable u := by
  obtain ⟨o, ho, rfl⟩ := encode_eq_ok.mp h
  have hholds {d : ℤ} {n : ℕ} (hn : n < 2 ^ 32) (hd : d = mask 16 n ∨ d = 0 ∧ n < 2 ^ 16) :
      Writable (emit .stableCheck ⟨d, n, 0⟩) := by
    have hn' : (n : ℤ) < 2 ^ 32 := by exact_mod_cast hn
    have hd' : d = mask 16 (n : ℤ) ∨ d = 0 ∧ (n : ℤ) < 2 ^ 16 :=
      hd.imp id fun h => ⟨h.1, by exact_mod_cast h.2⟩
    exact writable_emit (s := { dest := .shared }) rfl (.inr rfl) (Int.natCast_nonneg n) hn' hd'
  have hb : branch .stableCheck toks = if toks.length = 2 then
      .form { dst := none, fields := [⟨1, 16, 0⟩] }
    else if 2 < toks.length then .form { fields := [⟨1, 16, 0⟩, ⟨2, 16, 16⟩] }
    else .form { dst := none } := rfl
  split_ifs at hb with h2 h3
  · obtain ⟨-, rfl⟩ := (operands_eq_ok_of_form hb).mp ho
    rw [formOperands_eq (b := 0) rfl rfl rfl rfl]
    have hlt : BitField.orAll 0 [py.fieldPut env.constants toks ⟨1, 16, 0⟩] < 2 ^ 16 :=
      orAll_lt (by decide) (by simp [fieldPut, Field.bits])
    exact hholds (hlt.trans (by decide)) (.inr ⟨rfl, hlt⟩)
  · obtain ⟨-, rfl⟩ := (operands_eq_ok_of_form hb).mp ho
    generalize hv : py.valueAt env.constants toks 1 = v
    generalize hl : [py.fieldPut env.constants toks ⟨1, 16, 0⟩,
      py.fieldPut env.constants toks ⟨2, 16, 16⟩] = l
    have hfirst : ((⟨0, 16⟩ : BitField), (mask 16 v).toNat) ∈ l := by
      rw [← hl, ← hv]
      exact .head _
    have hlt : BitField.orAll 0 l < 2 ^ 32 :=
      orAll_lt (by decide) (by simp [← hl, fieldPut, Field.bits])
    have hlow : BitField.orAll 0 l % 2 ^ 16 = (mask 16 v).toNat % 2 ^ 16 :=
      BitField.get_orAll ⟨0, 16⟩ hfirst
        (by simp [← hl, ← hv, fieldPut, Field.bits, BitField.Disjoint]) (BitField.get_zero _)
    have hdst : mask 16 v = mask 16 (BitField.orAll 0 l : ℕ) := by
      calc mask 16 v = (((mask 16 v).toNat % 2 ^ 16 : ℕ) : ℤ) := by
            rw [Nat.mod_eq_of_lt (toNat_mask_lt 16 v), Int.toNat_of_nonneg (mask_nonneg 16 v)]
        _ = mask 16 (BitField.orAll 0 l : ℕ) := by
            rw [← hlow, Int.natCast_emod]
            rfl
    have hops : py.formOperands env.constants toks
        { fields := [⟨1, 16, 0⟩, ⟨2, 16, 16⟩] } = ⟨v, (BitField.orAll 0 l : ℕ), 0⟩ :=
      formOperands_eq (b := 0) (valueOr_zero.trans hv) rfl (congrArg (BitField.orAll 0) hl) rfl
    rw [hops, emit_mask]
    exact hholds hlt (.inl hdst)
  · obtain ⟨-, rfl⟩ := (operands_eq_ok_of_form hb).mp ho
    rw [formOperands_eq (b := 0) rfl rfl rfl rfl]
    exact hholds (n := 0) (by decide) (.inr ⟨rfl, by decide⟩)

theorem writable_float {K : Constants} {i : ℕ} {o : Operands} (hs : space op = some s)
    (hb : branch op toks = .float i) (h : py.FloatReads K toks i o) : Writable (emit op o) := by
  obtain rfl := float_branch hs hb
  obtain ⟨q, hq, he⟩ : ∃ q : ℕ, q < 2 ^ 32 ∧ o = ⟨py.valueAt K toks 1, q, 0⟩ := by
    cases h with
    | @literal t x b => exact ⟨b.toNat, b.isLt, rfl⟩
    | nothing => exact ⟨0, by decide, rfl⟩
  have hlt : (q : ℤ) < 2 ^ 32 := by exact_mod_cast hq
  rw [he, emit_mask]
  exact writable_emit hs (.inr rfl) (Int.natCast_nonneg q) hlt ⟨mask_nonneg 16 _, mask_lt 16 _⟩

theorem writable_mockAttr {K : Constants} (hs : space op = some s)
    (hb : branch op toks = .mockAttr) : Writable (emit op (py.mockOperands K toks)) := by
  obtain rfl := mockAttr_branch hs hb
  -- the register is below 64, and takes six of the eight bits of its field
  have hm : (mockRegister (py.valueAt K toks 3)).toNat < 2 ^ 6 := by
    unfold mockRegister
    have := mask_nonneg 8 (py.valueAt K toks 3)
    split_ifs <;> omega
  have hput : ∀ m < 2 ^ 6, (⟨8, 8⟩ : BitField).put m = (⟨8, 6⟩ : BitField).put m := by
    intro m hm
    have hm' : m < 2 ^ 8 := hm.trans (by norm_num)
    rw [BitField.put, BitField.put, Nat.mod_eq_of_lt hm, Nat.mod_eq_of_lt hm']
  have hq : BitField.orAll 0 [(⟨0, 8⟩, (mask 8 (py.valueAt K toks 2)).toNat),
      (⟨8, 8⟩, (mockRegister (py.valueAt K toks 3)).toNat)] =
      BitField.orAll 0 [(⟨0, 8⟩, (mask 8 (py.valueAt K toks 2)).toNat),
        (⟨8, 6⟩, (mockRegister (py.valueAt K toks 3)).toNat)] := by
    simp only [BitField.orAll_cons, hput _ hm]
  have hlt : (py.mockOperands K toks).payload < 2 ^ 14 := by
    rw [payload_mockOperands, hq]
    exact_mod_cast orAll_lt (b := 14) (by decide) (by simp)
  have h0 : 0 ≤ (py.mockOperands K toks).payload := by
    rw [payload_mockOperands]
    exact Int.natCast_nonneg _
  have he : emit op (py.mockOperands K toks) = emit op ⟨mask 16 (py.valueAt K toks 1),
      (py.mockOperands K toks).payload, mask 8 0⟩ := emit_mask _ _ _
  rw [he]
  exact writable_emit hs (.inr rfl) h0 hlt ⟨mask_nonneg 16 _, mask_lt 16 _⟩

theorem writable_of_encode {u : List Instruction} (hs : (space op).isSome)
    (h : py.encode env op toks = .ok u) : Writable u := by
  obtain ⟨s, hs⟩ := Option.isSome_iff_exists.mp hs
  by_cases hop : op = .stableCheck
  · exact writable_stableCheck (hop ▸ h)
  obtain ⟨o, ho, rfl⟩ := encode_eq_ok.mp h
  obtain ⟨-, ho⟩ := operands_eq_ok_iff.mp ho
  cases hb : branch op toks with
  | form f =>
    rw [hb] at ho
    obtain rfl : o = _ := ho
    exact writable_of_form hop hs hb _
  | inlineLoad =>
    rw [inlineLoad_branch hb] at hs
    cases hs
  | float i =>
    rw [hb] at ho
    exact writable_float hs hb ho
  | mockAttr =>
    rw [hb] at ho
    obtain rfl : o = _ := ho
    exact writable_mockAttr hs hb

end Runtime

end ImpulseTools

import ImpulseTools.Asm.Framing

/-! # What becomes of operands that do not fit

The encoder masks and never checks a range: a line is accepted when the tokens its branch
reads have values, each value is kept modulo two to the width of its place, and a token the
branch does not read leaves no trace.
-/

namespace ImpulseTools

def dstOf (u : List Instruction) : ℕ := (u.head?.map (·.dstReg.toNat)).getD 0

/-- The width of the flags: bit 7 of an extended unit is `FLAG_EXTENDED`. -/
def flagsWidth (u : List Instruction) : ℕ := if u.length = 2 then 7 else 8

def flagsOf (u : List Instruction) : ℕ :=
  (u.head?.map (·.flags.toNat)).getD 0 % 2 ^ flagsWidth u

/-- The payload, whose high half is `arg3` of the extension if there is one. -/
def payloadOf : List Instruction → ℕ
  | [w, e] => w.payload.toNat + 2 ^ 16 * e.dstReg.toNat
  | w :: _ => w.payload.toNat
  | [] => 0

variable {op : Op} {o : Operands}

theorem dstOf_emit : (dstOf (emit op o) : ℤ) = o.dst % 2 ^ 16 := by
  obtain ⟨w, hw, -, hd⟩ := head_emit op o
  rw [dstOf, hw, Option.map_some, Option.getD_some, hd, Int.toNat_of_nonneg (mask_nonneg _ _)]
  rfl

theorem payloadOf_emit : payloadOf (emit op o) = (mask 32 o.payload).toNat := by
  obtain ⟨-, -, he⟩ | ⟨-, he⟩ := emit_cases op o <;> rw [he, payloadOf]
  · simp only [Instruction.ofInts_payload, Instruction.ofInts_dstReg, toNat_ofInt_mask]
    rw [← mask_halves, toNat_ofInt, mask_of_lt (mask_nonneg _ _)
      ((mask_lt 16 o.payload).trans (by norm_num))]
  · exact toNat_ofInt_mask 32 o.payload
  · simp

theorem testBit_extended {i : ℕ} (h : i < 7) : Nat.testBit 0x80 i = false := by
  have : ∀ i < 7, Nat.testBit 0x80 i = false := by decide
  exact this i h

theorem lor_extended_mod (f : ℤ) : f.lor 0x80 % 2 ^ 7 = f % 2 ^ 7 := by
  cases f with
  | ofNat n =>
    have h : (n ||| 0x80) % 2 ^ 7 = n % 2 ^ 7 := by
      rw [Nat.or_mod_two_pow, show 0x80 % 2 ^ 7 = 0 from rfl, Nat.or_zero]
    exact congrArg Int.ofNat h
  | negSucc n =>
    have h : Nat.ldiff n 0x80 % 2 ^ 7 = n % 2 ^ 7 := by
      apply Nat.eq_of_testBit_eq
      intro i
      rw [Nat.testBit_mod_two_pow, Nat.testBit_mod_two_pow, Nat.testBit_ldiff]
      by_cases hi : i < 7
      · rw [testBit_extended hi, Bool.not_false, Bool.and_true]
      · rw [decide_eq_false hi, Bool.false_and, Bool.false_and]
    change Int.negSucc (Nat.ldiff n 0x80) % 2 ^ 7 = Int.negSucc n % 2 ^ 7
    rw [Int.negSucc_emod _ (by decide), Int.negSucc_emod _ (by decide)]
    omega

theorem flagsOf_emit : (flagsOf (emit op o) : ℤ) = o.flags % 2 ^ flagsWidth (emit op o) := by
  have hmask (f : ℤ) {w : ℕ} (hw : w ≤ 8) :
      (((BitVec.ofInt 8 f).toNat % 2 ^ w : ℕ) : ℤ) = f % 2 ^ w := by
    rw [toNat_ofInt, Int.natCast_emod, Int.toNat_of_nonneg (mask_nonneg _ _), mask]
    exact_mod_cast Int.emod_emod_of_dvd f (pow_dvd_pow 2 hw)
  obtain ⟨-, -, he⟩ | ⟨-, he⟩ := emit_cases op o <;> rw [he]
  · exact (hmask _ (show 7 ≤ 8 by decide)).trans (lor_extended_mod _)
  · exact hmask _ (show 8 ≤ 8 by decide)

namespace Runtime

variable {py : Runtime}

/-- Every operand of a form that has a place of its own is there modulo the size of the place. -/
structure StoredForm (py : Runtime) (K : Constants) (toks : List Text) (f : Form)
    (u : List Instruction) : Prop where
  dst : ∀ i ∈ f.dst, ∀ v, py.HasValue K toks i v → (dstOf u : ℤ) = v % 2 ^ 16
  flags : ∀ i ∈ f.flags, ∀ v, py.HasValue K toks i v → (flagsOf u : ℤ) = v % 2 ^ flagsWidth u
  immediate : (∀ g ∈ f.fields, toks[g.tok]? = none) → ∀ i ∈ f.whole, ∀ v,
    py.HasValue K toks i v → (payloadOf u : ℤ) = v % 2 ^ 32
  field : ∀ g, f.Stores g → ∀ v, py.HasValue K toks g.tok v →
    (g.bits.get (payloadOf u) : ℤ) = v % 2 ^ g.width

/-- The payload of a load: the offset and the count of its symbol, the count shifted over the
offset and both joined bit by bit. -/
structure StoredSymbol (env : Env) (sym : Text) (u : List Instruction) : Prop where
  joined : ∀ off n, env.symbols.lookup sym = some ⟨off, .num n⟩ →
    (payloadOf u : ℤ) = off.lor (n * 2 ^ 16) % 2 ^ 32
  halves : ∀ off n : ℕ, env.symbols.lookup sym = some ⟨off, .num n⟩ → off < 2 ^ 16 →
    payloadOf u % 2 ^ 16 = off ∧ payloadOf u / 2 ^ 16 = n % 2 ^ 16
  undefined : sym ∉ env.symbols → payloadOf u = 0

def Stored (py : Runtime) (env : Env) (op : Op) (toks : List Text) (u : List Instruction) : Prop :=
  match branch op toks with
  | .form f => StoredForm py env.constants toks f u
  | .float i =>
    (∀ v, py.HasValue env.constants toks 1 v → (dstOf u : ℤ) = v % 2 ^ 16) ∧
      ∀ t, toks[i]? = some t →
        ∃ x b, py.float t = some x ∧ py.packFloat x = some b ∧ payloadOf u = b.toNat
  | .mockAttr =>
    (∀ v, py.HasValue env.constants toks 1 v → (dstOf u : ℤ) = v % 2 ^ 16) ∧
      (∀ v, py.HasValue env.constants toks 2 v →
        ((⟨0, 8⟩ : BitField).get (payloadOf u) : ℤ) = v % 2 ^ 8) ∧
      ∀ v, py.HasValue env.constants toks 3 v →
        ((⟨8, 8⟩ : BitField).get (payloadOf u) : ℤ) = if v % 2 ^ 8 < 64 then v % 2 ^ 8 else 0
  | .inlineLoad =>
    (∀ v, py.HasValue env.constants toks 1 v → (dstOf u : ℤ) = v % 2 ^ 16) ∧
      ∀ t, toks[2]? = some t → StoredSymbol env t.strip u

theorem foldl_fieldValue_of_missing {K : Constants} {toks : List Text} {gs : List Field}
    (h : ∀ g ∈ gs, toks[g.tok]? = none) (q : ℤ) :
    gs.foldl (fun q g => q.lor (py.fieldValue K toks g)) q = q := by
  induction gs generalizing q with
  | nil => rfl
  | cons g gs ih =>
    obtain ⟨hg, hgs⟩ := List.forall_mem_cons.mp h
    have hv : py.valueAt K toks g.tok = 0 := valueAt_of_le (List.getElem?_eq_none_iff.mp hg)
    have hzero : py.fieldValue K toks g = 0 := by simp [fieldValue, hv, mask]
    rw [List.foldl_cons, hzero, lor_zero]
    exact ih hgs q

theorem storedForm {K : Constants} {op : Op} {toks : List Text} {f : Form} :
    StoredForm py K toks f (emit op (py.formOperands K toks f)) where
  dst i hi v hv := by
    obtain hi : f.dst = some i := hi
    rw [dstOf_emit, formOperands, hi, hv.valueOr_eq]
  flags i hi v hv := by
    obtain hi : f.flags = some i := hi
    rw [flagsOf_emit]
    simp only [formOperands, hi, hv.valueOr_eq]
  immediate hf i hi v hv := by
    obtain hi : f.whole = some i := hi
    rw [payloadOf_emit, Int.toNat_of_nonneg (mask_nonneg _ _), formOperands, hi, hv.valueOr_eq]
    simp only [foldl_fieldValue_of_missing hf, mask]
  field g hg v hv := by
    rw [payloadOf_emit, get_payload hg hv, Int.toNat_of_nonneg (mask_nonneg _ _), mask]

theorem mockRegister_put (v : ℤ) :
    mockRegister v * 2 ^ 8 = ((⟨8, 8⟩ : BitField).put (mockRegister v).toNat : ℕ) := by
  have h0 : 0 ≤ mockRegister v ∧ mockRegister v < 64 := by
    unfold mockRegister
    split_ifs with h64
    · decide
    · exact ⟨mask_nonneg 8 v, not_le.mp h64⟩
  obtain ⟨n, hn⟩ := Int.eq_ofNat_of_zero_le h0.1
  have hlt : n < 2 ^ 8 := by omega
  rw [hn, BitField.put, Int.toNat_natCast, Nat.mod_eq_of_lt hlt, Nat.shiftLeft_eq]
  push_cast
  rfl

theorem payload_mockOperands {K : Constants} {toks : List Text} :
    (py.mockOperands K toks).payload =
      (BitField.orAll 0 [(⟨0, 8⟩, (mask 8 (py.valueAt K toks 2)).toNat),
        (⟨8, 8⟩, (mockRegister (py.valueAt K toks 3)).toNat)] : ℕ) := by
  have hq : (0 : ℤ).lor (py.fieldValue K toks ⟨2, 8, 0⟩) =
      (BitField.orAll 0 [(⟨0, 8⟩, (mask 8 (py.valueAt K toks 2)).toNat)] : ℕ) :=
    foldl_lor_eq [⟨2, 8, 0⟩] 0
  simp only [mockOperands]
  rw [hq, mockRegister_put]
  rfl

theorem get_mock_attr {K : Constants} {op : Op} {toks : List Text} :
    (⟨0, 8⟩ : BitField).get (payloadOf (emit op (py.mockOperands K toks))) =
      (mask 8 (py.valueAt K toks 2)).toNat := by
  rw [payloadOf_emit, payload_mockOperands, toNat_mask_natCast, BitField.get_mod _ (by decide),
    BitField.get_orAll _ (.head _) _ (BitField.get_zero _), Nat.mod_eq_of_lt (toNat_mask_lt 8 _)]
  simp [BitField.Disjoint]

theorem get_mock_register {K : Constants} {op : Op} {toks : List Text} :
    (⟨8, 8⟩ : BitField).get (payloadOf (emit op (py.mockOperands K toks))) =
      (mockRegister (py.valueAt K toks 3)).toNat % 2 ^ 8 := by
  rw [payloadOf_emit, payload_mockOperands, toNat_mask_natCast, BitField.get_mod _ (by decide),
    BitField.get_orAll _ (.tail _ (.head _)) _ (BitField.get_zero _)]
  simp [BitField.Disjoint]

theorem mockRegister_eq (v : ℤ) :
    mockRegister v = if v % 2 ^ 8 < 64 then v % 2 ^ 8 else 0 := by
  unfold mockRegister mask
  split_ifs <;> omega

theorem storedSymbol {env : Env} {op : Op} {sym : Text} {q d f : ℤ} (h : SymbolReads env sym q) :
    StoredSymbol env sym (emit op ⟨d, q, f⟩) := by
  have hpayload : (payloadOf (emit op ⟨d, q, f⟩) : ℤ) = q % 2 ^ 32 := by
    rw [payloadOf_emit, Int.toNat_of_nonneg (mask_nonneg _ _), mask]
  have hjoined (off n : ℤ) (hs : env.symbols.lookup sym = some ⟨off, .num n⟩) :
      q = off.lor (n * 2 ^ 16) := by
    cases h with
    | defined hs' =>
      cases hs.symm.trans hs'
      rfl
    | undefined hno => simp [AList.lookup_eq_none.mpr hno] at hs
  constructor
  · intro off n hs
    rw [hpayload, hjoined off n hs]
  · intro off n hs hoff
    have hq : q = ((off ||| n <<< 16 : ℕ) : ℤ) := by
      rw [hjoined off n hs, Nat.shiftLeft_eq]
      push_cast
      rfl
    have hnat : payloadOf (emit op ⟨d, q, f⟩) = (off + 2 ^ 16 * n) % 2 ^ 32 := by
      rw [payloadOf_emit, hq, toNat_mask_natCast, BitField.or_shiftLeft hoff]
    omega
  · intro hno
    cases h with
    | defined hs => simp [AList.lookup_eq_none.mpr hno] at hs
    | undefined => exact_mod_cast hpayload

theorem stored_of_encode {env : Env} {op : Op} {toks : List Text} {u : List Instruction}
    (h : py.encode env op toks = .ok u) : Stored py env op toks u := by
  obtain ⟨o, ho, rfl⟩ := encode_eq_ok.mp h
  obtain ⟨-, ho⟩ := operands_eq_ok_iff.mp ho
  have hdst (hd : o.dst = py.valueAt env.constants toks 1) (v : ℤ)
      (hv : py.HasValue env.constants toks 1 v) : (dstOf (emit op o) : ℤ) = v % 2 ^ 16 := by
    rw [dstOf_emit, hd, hv.valueAt_eq]
  unfold Stored
  cases hb : branch op toks with
  | form f =>
    rw [hb] at ho
    subst ho
    exact storedForm
  | inlineLoad =>
    rw [hb] at ho
    cases ho with
    | symbol ht hs =>
      refine ⟨hdst rfl, fun t ht' => ?_⟩
      obtain rfl := Option.some.inj (ht.symm.trans ht')
      exact storedSymbol hs
    | nothing ht =>
      refine ⟨hdst rfl, fun t ht' => ?_⟩
      rw [ht] at ht'
      cases ht'
  | float i =>
    rw [hb] at ho
    cases ho with
    | literal ht hx hp =>
      refine ⟨hdst rfl, fun t ht' => ?_⟩
      obtain rfl := Option.some.inj (ht.symm.trans ht')
      refine ⟨_, _, hx, hp, ?_⟩
      rw [payloadOf_emit, toNat_mask_natCast, Nat.mod_eq_of_lt (BitVec.isLt _)]
    | nothing ht =>
      refine ⟨hdst rfl, fun t ht' => ?_⟩
      rw [ht] at ht'
      cases ht'
  | mockAttr =>
    rw [hb] at ho
    subst ho
    refine ⟨hdst rfl, fun v hv => ?_, fun v hv => ?_⟩
    · rw [get_mock_attr, hv.valueAt_eq, Int.toNat_of_nonneg (mask_nonneg _ _), mask]
    · rw [get_mock_register, hv.valueAt_eq, mockRegister_eq]
      split_ifs <;> omega

theorem exists_encode_iff {env : Env} {op : Op} {toks : List Text} :
    (∃ u, py.encode env op toks = .ok u) ↔
      (∀ i ∈ (branch op toks).tokens, py.Evaluates env.constants toks i) ∧
        py.Takes env toks (branch op toks) := by
  rw [← exists_operands_iff]
  simp only [encode_eq_ok]
  constructor
  · rintro ⟨u, o, ho, -⟩
    exact ⟨o, ho⟩
  · rintro ⟨o, ho⟩
    exact ⟨_, o, ho, rfl⟩

theorem tokVal_congr {K : Constants} {toks toks' : List Text} {i : Option ℕ}
    (h : ∀ j ∈ i.toList, toks'[j]? = toks[j]?) (d : ℤ) :
    py.tokVal K toks' i d = py.tokVal K toks i d := by
  cases i with
  | none => rfl
  | some i => rw [tokVal, tokVal, Option.bind_some, Option.bind_some, h i (by simp)]

theorem evalForm_congr {K : Constants} {toks toks' : List Text} {f : Form}
    (h : ∀ i ∈ f.tokens, toks'[i]? = toks[i]?) :
    py.evalForm K toks' f = py.evalForm K toks f := by
  simp only [Form.tokens, List.forall_mem_append, List.forall_mem_map] at h
  obtain ⟨⟨⟨hd, hw⟩, hg⟩, hf⟩ := h
  rw [evalForm, evalForm, tokVal_congr hd, tokVal_congr hw, tokVal_congr hf]
  refine bind_congr fun _ => bind_congr fun q => ?_
  rw [ExceptFold.foldlM_congr (g := py.orField K toks) fun g hg' q => ?_]
  rw [orField, orField, hg g hg']

theorem operands_congr {env : Env} {op : Op} {toks toks' : List Text}
    (hb : branch op toks' = branch op toks)
    (h : ∀ i ∈ (branch op toks).reads, toks'[i]? = toks[i]?) :
    py.operands env op toks' = py.operands env op toks := by
  unfold operands
  rw [hb]
  have hdst (h1 : 1 ∈ (branch op toks).reads) :
      py.tokVal env.constants toks' (some 1) 0 = py.tokVal env.constants toks (some 1) 0 :=
    tokVal_congr (by simpa using h 1 h1) 0
  cases hbranch : branch op toks with
  | form f =>
    rw [hbranch] at h
    exact evalForm_congr h
  | inlineLoad =>
    rw [hbranch] at h hdst
    simp only [evalInlineLoad, hdst (by decide), h 2 (by decide)]
  | float i =>
    rw [hbranch] at h hdst
    simp only [evalFloat, hdst (List.mem_cons_self), h i (by simp [Branch.reads])]
  | mockAttr =>
    rw [hbranch] at h hdst
    simp only [evalMockAttr, orField, hdst (by decide), h 2 (by decide), h 3 (by decide)]

/-- No operand is refused for its size or for want of a field: a line is encoded when the tokens
it reads have values, keeps each of them modulo the size of its place, and shows nothing of the
other tokens. -/
theorem operand_storage {K K' : Constants} {text : Text} {p : Program}
    (h : py.parseImpasFile K text = (.ok p, K')) :
    (∃ env units, env.constants = K' ∧ py.TablesOf K text env ∧
      p.instructions = units.flatten ∧
      List.Forall₂ (py.Encodes env) (py.instructionLines text) units ∧
      List.Forall₂ (fun l u => ∃ op, Op.ofName? l.1 = some op ∧ Stored py env op l.2 u)
        (py.instructionLines text) units) ∧
    (∀ env op toks, (∃ u, py.encode env op toks = .ok u) ↔
      (∀ i ∈ (branch op toks).tokens, py.Evaluates env.constants toks i) ∧
        py.Takes env toks (branch op toks)) ∧
    ∀ env op toks toks', op ≠ .initMockEdgeAttr → branch op toks' = branch op toks →
      (∀ i ∈ (branch op toks).reads, toks'[i]? = toks[i]?) →
        py.encode env op toks' = py.encode env op toks := by
  refine ⟨?_, fun env op toks => exists_encode_iff, ?_⟩
  · obtain ⟨env, units, data, hK, ht, ha⟩ := exists_units_of_tables h
    refine ⟨env, units, hK, ht, ha.instructions_eq, ha.encodes, ha.encodes.imp ?_⟩
    rintro l u ⟨op, hop, he⟩
    exact ⟨op, hop, stored_of_encode he⟩
  · intro env op toks toks' _ hb hreads
    rw [encode, encode, operands_congr hb hreads]

theorem operand_storage_node_filter :
    ∃ p K', Runtime.ascii.parseImpasFile constants (chars "OP_NODE_FILTER R2, R0, R1, 38000") =
        (.ok p, K') ∧ (⟨16, 8⟩ : BitField).get (payloadOf p.instructions) = 112 := by
  obtain ⟨p, hp⟩ := exists_program Runtime.ascii constants
    (chars "OP_NODE_FILTER R2, R0, R1, 38000") (by decide +kernel)
  obtain ⟨⟨env, units, henv, -, hi, -, hu⟩, -⟩ := operand_storage hp
  have hl : Runtime.ascii.instructionLines (chars "OP_NODE_FILTER R2, R0, R1, 38000") =
      [(chars "OP_NODE_FILTER", [chars "OP_NODE_FILTER", chars "R2", chars "R0", chars "R1",
        chars "38000"])] := by decide +kernel
  rw [hl] at hu
  obtain ⟨u, ⟨op, hop, hs⟩, rfl⟩ := ExceptFold.forall₂_singleton_left.mp hu
  obtain rfl : op = .nodeFilter := Option.some.inj (hop.symm.trans (by decide +kernel))
  have hf := StoredForm.field hs ⟨4, 8, 16⟩ (by decide) 38000
    ⟨_, rfl, by rw [henv]; decide +kernel⟩
  refine ⟨p, _, hp, ?_⟩
  rw [hi, List.flatten_singleton]
  exact_mod_cast hf

/-- Two values of an operand that give the same words. -/
theorem node_filter_truncates :
    (Runtime.ascii.parseImpasFile constants
        (chars "OP_NODE_FILTER R2, R0, R1, 38000")).1.toOption.map (·.instructions) =
      some [⟨0x14, 0, 2, 0x700100⟩] ∧
    (Runtime.ascii.parseImpasFile constants
        (chars "OP_NODE_FILTER R2, R0, R1, 112")).1.toOption.map (·.instructions) =
      some [⟨0x14, 0, 2, 0x700100⟩] ∧
    Runtime.ascii.parseVal constants (chars "38000") = .ok 38000 ∧
    Runtime.ascii.parseVal constants (chars "112") = .ok 112 := by
  refine ⟨?_, ?_, ?_, ?_⟩ <;> decide +kernel

end Runtime

end ImpulseTools

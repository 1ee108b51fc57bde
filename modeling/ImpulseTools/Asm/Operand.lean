import ImpulseTools.Asm.Unit
import ImpulseTools.Lib.BitField
import ImpulseTools.Lib.ExceptFold

/-! # What a line stores

The values of the tokens a branch reads, and what becomes of them: a line is accepted when
all of them have a value, and a field that shares its bits with nothing else reads back its
token's value modulo two to its width.
-/

namespace ImpulseTools

def Field.bits (g : Field) : BitField := ⟨g.shift, g.width⟩

namespace Form

def tokens (f : Form) : List ℕ :=
  f.dst.toList ++ f.whole.toList ++ f.fields.map Field.tok ++ f.flags.toList

/-- A field of the branch whose bits belong to no other part of the payload. -/
def Stores (f : Form) (g : Field) : Prop :=
  f.whole = none ∧ g ∈ f.fields ∧ g.shift + g.width ≤ 32 ∧ g.bits.get f.base = 0 ∧
    ∀ g' ∈ f.fields, g' = g ∨ g.bits.Disjoint g'.bits

instance (f : Form) (g : Field) : Decidable (f.Stores g) :=
  inferInstanceAs (Decidable (_ ∧ _ ∧ _ ∧ _ ∧ _))

end Form

namespace Runtime

variable (py : Runtime) (K : Constants) (toks : List Text)

def HasValue (i : ℕ) (v : ℤ) : Prop := ∃ t, toks[i]? = some t ∧ py.parseVal K t = .ok v

instance (i : ℕ) (v : ℤ) : Decidable (py.HasValue K toks i v) :=
  decidable_of_iff (toks[i]?.map (py.parseVal K) = some (.ok v)) (by simp [HasValue])

def Evaluates (i : ℕ) : Prop := ∀ t, toks[i]? = some t → ∃ v, py.parseVal K t = .ok v

def valueAt (i : ℕ) : ℤ := ((toks[i]?.map (py.parseVal K)).bind Except.toOption).getD 0

/-- The value of an optional token, `missing` if the branch or the line lacks it. -/
def valueOr (i : Option ℕ) (missing : ℤ) : ℤ :=
  match i with
  | some i => if i < toks.length then py.valueAt K toks i else missing
  | none => missing

variable {py K toks}

theorem HasValue.valueAt_eq {i : ℕ} {v : ℤ} (h : py.HasValue K toks i v) :
    py.valueAt K toks i = v := by
  obtain ⟨t, ht, hv⟩ := h
  simp [valueAt, ht, hv, Except.toOption]

theorem HasValue.lt {i : ℕ} {v : ℤ} (h : py.HasValue K toks i v) : i < toks.length := by
  obtain ⟨t, ht, -⟩ := h
  exact (List.getElem?_eq_some_iff.mp ht).1

theorem HasValue.evaluates {i : ℕ} {v : ℤ} (h : py.HasValue K toks i v) :
    py.Evaluates K toks i := by
  obtain ⟨t, ht, hv⟩ := h
  intro t' ht'
  obtain rfl := Option.some.inj (ht.symm.trans ht')
  exact ⟨v, hv⟩

theorem HasValue.valueOr_eq {i : ℕ} {v : ℤ} (h : py.HasValue K toks i v) (d : ℤ) :
    py.valueOr K toks (some i) d = v := by
  rw [valueOr, if_pos h.lt, h.valueAt_eq]

theorem Evaluates.hasValue {i : ℕ} (h : py.Evaluates K toks i) (hi : i < toks.length) :
    py.HasValue K toks i (py.valueAt K toks i) := by
  obtain ⟨v, hv⟩ := h _ (List.getElem?_eq_getElem hi)
  have hv' : py.HasValue K toks i v := ⟨_, List.getElem?_eq_getElem hi, hv⟩
  rwa [hv'.valueAt_eq]

theorem valueAt_of_le {i : ℕ} (h : toks.length ≤ i) : py.valueAt K toks i = 0 := by
  simp [valueAt, List.getElem?_eq_none h]

theorem tokVal_eq_ok {i : Option ℕ} {d v : ℤ} :
    py.tokVal K toks i d = .ok v ↔
      (∀ j ∈ i.toList, py.Evaluates K toks j) ∧ v = py.valueOr K toks i d := by
  cases i with
  | none => simp [tokVal, valueOr, eq_comm]
  | some i =>
    simp only [tokVal, Option.bind_some, valueOr, Option.toList_some, List.mem_singleton,
      forall_eq]
    rcases Nat.lt_or_ge i toks.length with hi | hi
    · rw [if_pos hi, List.getElem?_eq_getElem hi]
      constructor
      · intro h
        have hv : py.HasValue K toks i v := ⟨_, List.getElem?_eq_getElem hi, h⟩
        refine ⟨fun t ht => ?_, hv.valueAt_eq.symm⟩
        rw [List.getElem?_eq_getElem hi, Option.some.injEq] at ht
        exact ⟨v, ht ▸ h⟩
      · rintro ⟨h, rfl⟩
        obtain ⟨t, ht, hv⟩ := h.hasValue hi
        rw [List.getElem?_eq_getElem hi, Option.some.injEq] at ht
        rwa [ht]
    · rw [if_neg (Nat.not_lt.mpr hi), List.getElem?_eq_none hi]
      simp [Evaluates, List.getElem?_eq_none hi, eq_comm]

def fieldValue (py : Runtime) (K : Constants) (toks : List Text) (g : Field) : ℤ :=
  mask g.width (py.valueAt K toks g.tok) * 2 ^ g.shift

theorem ldiff_zero (n : ℕ) : n.ldiff 0 = n := by
  refine Nat.eq_of_testBit_eq fun i => ?_
  simp [Nat.testBit_ldiff]

theorem lor_zero (q : ℤ) : q.lor 0 = q := by
  cases q with
  | ofNat n => exact congrArg Int.ofNat (Nat.or_zero n)
  | negSucc n => exact congrArg Int.negSucc (ldiff_zero n)

theorem zero_lor (q : ℤ) : Int.lor 0 q = q := by
  cases q with
  | ofNat n => exact congrArg Int.ofNat (Nat.zero_or n)
  | negSucc n => exact congrArg Int.negSucc (ldiff_zero n)

theorem orField_eq_ok {q r : ℤ} {g : Field} :
    py.orField K toks q g = .ok r ↔
      py.Evaluates K toks g.tok ∧ r = q.lor (py.fieldValue K toks g) := by
  unfold orField
  rcases Nat.lt_or_ge g.tok toks.length with hi | hi
  · rw [List.getElem?_eq_getElem hi]
    simp only [ExceptFold.bind_eq_ok, pure, Except.pure, Except.ok.injEq]
    constructor
    · rintro ⟨v, hv, rfl⟩
      have hv' : py.HasValue K toks g.tok v := ⟨_, List.getElem?_eq_getElem hi, hv⟩
      refine ⟨fun t ht => ?_, by rw [fieldValue, hv'.valueAt_eq]⟩
      rw [List.getElem?_eq_getElem hi, Option.some.injEq] at ht
      exact ⟨v, ht ▸ hv⟩
    · rintro ⟨h, rfl⟩
      obtain ⟨t, ht, hv⟩ := h.hasValue hi
      rw [List.getElem?_eq_getElem hi, Option.some.injEq] at ht
      exact ⟨_, ht ▸ hv, rfl⟩
  · rw [List.getElem?_eq_none hi]
    simp [Evaluates, List.getElem?_eq_none hi, fieldValue, valueAt_of_le hi, mask,
      lor_zero, eq_comm]

theorem foldlM_orField_eq_ok {q r : ℤ} {gs : List Field} :
    gs.foldlM (py.orField K toks) q = .ok r ↔
      (∀ g ∈ gs, py.Evaluates K toks g.tok) ∧
        r = gs.foldl (fun q g => q.lor (py.fieldValue K toks g)) q := by
  induction gs generalizing q with
  | nil => simp [pure, Except.pure, eq_comm]
  | cons g gs ih =>
    simp only [List.foldlM_cons, ExceptFold.bind_eq_ok, orField_eq_ok, ih, List.forall_mem_cons,
      List.foldl_cons]
    constructor
    · rintro ⟨_, ⟨hg, rfl⟩, hgs, rfl⟩
      exact ⟨⟨hg, hgs⟩, rfl⟩
    · rintro ⟨⟨hg, hgs⟩, rfl⟩
      exact ⟨_, ⟨hg, rfl⟩, hgs, rfl⟩

def formOperands (py : Runtime) (K : Constants) (toks : List Text) (f : Form) : Operands where
  dst := py.valueOr K toks f.dst 0
  payload := f.fields.foldl (fun q g => q.lor (py.fieldValue K toks g))
    (py.valueOr K toks f.whole f.base)
  flags := py.valueOr K toks f.flags f.flagsElse

theorem evalForm_eq_ok {f : Form} {o : Operands} :
    py.evalForm K toks f = .ok o ↔
      (∀ i ∈ f.tokens, py.Evaluates K toks i) ∧ o = py.formOperands K toks f := by
  simp only [evalForm, ExceptFold.bind_eq_ok, tokVal_eq_ok, foldlM_orField_eq_ok, pure,
    Except.pure, Except.ok.injEq, Form.tokens, List.forall_mem_append, List.forall_mem_map]
  constructor
  · rintro ⟨_, ⟨hd, rfl⟩, _, ⟨hw, rfl⟩, _, ⟨hg, rfl⟩, _, ⟨hf, rfl⟩, rfl⟩
    exact ⟨⟨⟨⟨hd, hw⟩, hg⟩, hf⟩, rfl⟩
  · rintro ⟨⟨⟨⟨hd, hw⟩, hg⟩, hf⟩, rfl⟩
    exact ⟨_, ⟨hd, rfl⟩, _, ⟨hw, rfl⟩, _, ⟨hg, rfl⟩, _, ⟨hf, rfl⟩, rfl⟩

theorem operands_eq_ok_of_form {env : Env} {op : Op} {f : Form} {o : Operands}
    (hb : branch op toks = .form f) :
    py.operands env op toks = .ok o ↔
      (∀ i ∈ f.tokens, py.Evaluates env.constants toks i) ∧
        o = py.formOperands env.constants toks f := by
  rw [operands, hb]
  exact evalForm_eq_ok

def fieldPut (py : Runtime) (K : Constants) (toks : List Text) (g : Field) : BitField × ℕ :=
  (g.bits, (mask g.width (py.valueAt K toks g.tok)).toNat)

theorem fieldValue_eq (g : Field) : py.fieldValue K toks g =
    (g.bits.put (py.fieldPut K toks g).2 : ℕ) := by
  rw [fieldValue, fieldPut, BitField.put, Field.bits, Nat.mod_eq_of_lt (toNat_mask_lt _ _),
    Nat.shiftLeft_eq]
  push_cast
  rw [Int.toNat_of_nonneg (mask_nonneg _ _)]

theorem foldl_lor_eq (gs : List Field) (b : ℕ) :
    gs.foldl (fun q g => q.lor (py.fieldValue K toks g)) (b : ℤ) =
      (BitField.orAll b (gs.map (py.fieldPut K toks)) : ℕ) := by
  induction gs generalizing b with
  | nil => rfl
  | cons g gs ih =>
    rw [List.foldl_cons, List.map_cons, BitField.orAll_cons, ← ih, fieldValue_eq]
    rfl

theorem HasValue.fieldPut_eq {g : Field} {n : ℕ} (h : py.HasValue K toks g.tok n)
    (hn : n < 2 ^ g.width) : py.fieldPut K toks g = (g.bits, n) := by
  rw [fieldPut, h.valueAt_eq, toNat_mask_natCast, Nat.mod_eq_of_lt hn]

theorem formOperands_eq {f : Form} {d v : ℤ} {b n : ℕ} (hd : py.valueOr K toks f.dst 0 = d)
    (hw : py.valueOr K toks f.whole f.base = b)
    (hn : BitField.orAll b (f.fields.map (py.fieldPut K toks)) = n)
    (hf : py.valueOr K toks f.flags f.flagsElse = v) :
    py.formOperands K toks f = ⟨d, n, v⟩ := by
  rw [formOperands, hd, hw, foldl_lor_eq, hn, hf]

theorem payload_eq {f : Form} (hw : f.whole = none) :
    (py.formOperands K toks f).payload =
      (BitField.orAll f.base (f.fields.map (py.fieldPut K toks)) : ℕ) := by
  rw [← foldl_lor_eq, formOperands, hw, valueOr]

/-- A field with bits of its own holds its token's value modulo two to its width. -/
theorem get_payload {f : Form} {g : Field} (h : f.Stores g) {v : ℤ}
    (hv : py.HasValue K toks g.tok v) :
    g.bits.get (mask 32 (py.formOperands K toks f).payload).toNat = (mask g.width v).toNat := by
  obtain ⟨hw, hmem, hle, hb, hd⟩ := h
  have hput : (g.bits, (mask g.width v).toNat) = py.fieldPut K toks g := by
    rw [fieldPut, hv.valueAt_eq]
  rw [payload_eq hw, toNat_mask_natCast, BitField.get_mod _ hle,
    BitField.get_orAll g.bits (v := (mask g.width v).toNat) _ _ hb]
  · exact Nat.mod_eq_of_lt (toNat_mask_lt _ _)
  · rw [hput]
    exact List.mem_map_of_mem hmem
  · rintro p hp
    obtain ⟨g', hg', rfl⟩ := List.mem_map.mp hp
    rcases hd g' hg' with rfl | hd
    · exact .inl hput.symm
    · exact .inr hd

end Runtime

end ImpulseTools

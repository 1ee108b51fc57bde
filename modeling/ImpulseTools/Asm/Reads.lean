import ImpulseTools.Asm.DataBlocks
import ImpulseTools.Asm.Operand
import ImpulseTools.Lib.Split

/-! # What a token is read as

`parse_val` knows names, hexadecimal literals, registers and integers, and takes 0 for any other
token that starts with neither `0x` nor `R`. A line is encoded when each token its branch
evaluates is one of these.
-/

namespace ImpulseTools

/-- The tokens a branch gives to `parse_val`. -/
def Branch.tokens : Branch → List ℕ
  | .form f => f.tokens
  | .inlineLoad => [1]
  | .float _ => [1]
  | .mockAttr => [1, 2, 3]

/-- The tokens a branch looks at. -/
def Branch.reads : Branch → List ℕ
  | .form f => f.tokens
  | .inlineLoad => [1, 2]
  | .float i => [1, i]
  | .mockAttr => [1, 2, 3]

namespace Runtime

section

variable (py : Runtime)

/-- What a branch asks of a line besides the values of its tokens. -/
def Takes (env : Env) (toks : List Text) : Branch → Prop
  | .form _ | .mockAttr => True
  | .inlineLoad =>
    ∀ t, toks[2]? = some t → ∀ off ids, env.symbols.lookup t.strip ≠ some ⟨off, .ids ids⟩
  | .float i => ∀ t, toks[i]? = some t → ∃ x b, py.float t = some x ∧ py.packFloat x = some b

inductive Reads (K : Constants) (t : Text) : ℤ → Prop
  | name {v : ℤ} (h : K.lookup t = some v) : Reads K t v
  | hex {v : ℤ} (hn : t ∉ K) (hx : t.startsWith (chars "0x")) (h : py.int16 t = .ok v) :
      Reads K t v
  | register {v : ℤ} (hn : t ∉ K) (hR : t.startsWith (chars "R"))
      (h : py.int (t.drop 1) = .ok v) : Reads K t v
  | decimal {v : ℤ} (hn : t ∉ K) (hx : ¬ t.startsWith (chars "0x"))
      (hR : ¬ t.startsWith (chars "R")) (h : py.int t = .ok v) : Reads K t v
  /-- A token that is nothing of this counts as 0. -/
  | other (hn : t ∉ K) (hx : ¬ t.startsWith (chars "0x")) (hR : ¬ t.startsWith (chars "R"))
      (h : ∀ v, py.int t ≠ .ok v) : Reads K t 0

/-- Every token at the given places that the line has is read, and as the number used for it. -/
def ReadsAt (K : Constants) (toks : List Text) (is : List ℕ) : Prop :=
  ∀ i ∈ is, ∀ t, toks[i]? = some t → py.Reads K t (py.valueAt K toks i)

inductive SymbolReads (env : Env) (sym : Text) : ℤ → Prop
  | defined {off n : ℤ} (h : env.symbols.lookup sym = some ⟨off, .num n⟩) :
      SymbolReads env sym (off.lor (n * 2 ^ 16))
  | undefined (h : sym ∉ env.symbols) : SymbolReads env sym 0

inductive LoadReads (env : Env) (op : Op) (toks : List Text) : Operands → Prop
  | symbol {t : Text} {q : ℤ} (ht : toks[2]? = some t) (hs : SymbolReads env t.strip q) :
      LoadReads env op toks ⟨py.valueAt env.constants toks 1, q,
        if op = .loadInlineIntArray ∨ (op = .loadInlineArray ∧ t.strip ∈ env.intSymbols) then 1
        else 0⟩
  | nothing (ht : toks[2]? = none) :
      LoadReads env op toks ⟨py.valueAt env.constants toks 1, 0, 0⟩

inductive FloatReads (K : Constants) (toks : List Text) (i : ℕ) : Operands → Prop
  | literal {t : Text} {x : BitVec 64} {b : BitVec 32} (ht : toks[i]? = some t)
      (hx : py.float t = some x) (hp : py.packFloat x = some b) :
      FloatReads K toks i ⟨py.valueAt K toks 1, b.toNat, 0⟩
  | nothing (ht : toks[i]? = none) : FloatReads K toks i ⟨py.valueAt K toks 1, 0, 0⟩

/-- The third operand of `OP_INIT_MOCK_NODE_ATTR` as it is stored. -/
def mockRegister (v : ℤ) : ℤ := if 64 ≤ mask 8 v then 0 else mask 8 v

def mockOperands (K : Constants) (toks : List Text) : Operands where
  dst := py.valueAt K toks 1
  payload := (Int.lor 0 (py.fieldValue K toks ⟨2, 8, 0⟩)).lor
    (mockRegister (py.valueAt K toks 3) * 2 ^ 8)
  flags := 0

def LineReads (env : Env) (op : Op) (toks : List Text) (o : Operands) : Prop :=
  py.ReadsAt env.constants toks (branch op toks).tokens ∧
    match branch op toks with
    | .form f => o = py.formOperands env.constants toks f
    | .inlineLoad => py.LoadReads env op toks o
    | .float i => py.FloatReads env.constants toks i o
    | .mockAttr => o = py.mockOperands env.constants toks

end

variable {py : Runtime} {K : Constants} {env : Env} {op : Op} {toks : List Text} {t : Text}

theorem not_startsWith_hex (h : t.startsWith (chars "R")) : ¬ t.startsWith (chars "0x") := by
  intro hx
  obtain ⟨r, hr⟩ := Option.isSome_iff_exists.mp h
  obtain ⟨r', hr'⟩ := Option.isSome_iff_exists.mp hx
  rw [Scan.lit_eq_some] at hr hr'
  rw [hr] at hr'
  exact absurd (List.cons.inj hr').1 (by decide)

theorem parseVal_eq_ok_iff {v : ℤ} : py.parseVal K t = .ok v ↔ py.Reads K t v := by
  unfold parseVal
  constructor
  · intro h
    split at h
    · rename_i w hw
      cases h
      exact .name hw
    · rename_i hn
      have hn : t ∉ K := AList.lookup_eq_none.mp hn
      split at h
      · exact .hex hn ‹_› h
      · split at h
        · exact .register hn ‹_› h
        · split at h
          · rename_i w hw
            cases h
            exact .decimal hn ‹_› ‹_› hw
          · rename_i e he
            cases h
            exact .other hn ‹_› ‹_› fun v hv => by simp [he] at hv
  · intro h
    cases h with
    | name h => simp only [h]
    | hex hn hx h => simp only [AList.lookup_eq_none.mpr hn, hx, if_true, h]
    | register hn hR h =>
      simp only [AList.lookup_eq_none.mpr hn, if_neg (not_startsWith_hex hR), if_pos hR, h]
    | decimal hn hx hR h =>
      simp only [AList.lookup_eq_none.mpr hn, if_neg hx, if_neg hR, h]
    | other hn hx hR h =>
      simp only [AList.lookup_eq_none.mpr hn, if_neg hx, if_neg hR]
      cases hi : py.int t with
      | ok v => exact absurd hi (h v)
      | error e => rfl

theorem readsAt_iff {is : List ℕ} :
    py.ReadsAt K toks is ↔ ∀ i ∈ is, py.Evaluates K toks i := by
  constructor
  · intro h i hi t ht
    exact ⟨_, parseVal_eq_ok_iff.mpr (h i hi t ht)⟩
  · intro h i hi t ht
    obtain ⟨v, hv⟩ := h i hi t ht
    have hv' : py.HasValue K toks i v := ⟨t, ht, hv⟩
    rw [hv'.valueAt_eq]
    exact parseVal_eq_ok_iff.mp hv

theorem namedPayload_eq_ok_iff {sym : Text} {q : ℤ} :
    namedPayload env sym = .ok q ↔ SymbolReads env sym q := by
  unfold namedPayload
  constructor
  · intro h
    split at h
    · rename_i s hs
      obtain ⟨off, n | ids⟩ := s
      · cases h
        exact .defined hs
      · cases h
    · rename_i hs
      cases h
      exact .undefined (AList.lookup_eq_none.mp hs)
  · intro h
    cases h with
    | defined h =>
      rw [h]
      rfl
    | undefined h => rw [AList.lookup_eq_none.mpr h]

theorem valueOr_zero {i : ℕ} : py.valueOr K toks (some i) 0 = py.valueAt K toks i := by
  rw [valueOr]
  split
  · rfl
  · rename_i hi
    exact (valueAt_of_le (not_lt.mp hi)).symm

theorem dst_eq_ok_iff {v : ℤ} :
    py.tokVal K toks (some 1) 0 = .ok v ↔ py.ReadsAt K toks [1] ∧ v = py.valueAt K toks 1 := by
  rw [tokVal_eq_ok, valueOr_zero, readsAt_iff, Option.toList_some]

theorem evalInlineLoad_eq_ok_iff {o : Operands} :
    py.evalInlineLoad env op toks = .ok o ↔
      py.ReadsAt env.constants toks [1] ∧ py.LoadReads env op toks o := by
  simp only [evalInlineLoad, ExceptFold.bind_eq_ok, dst_eq_ok_iff]
  constructor
  · rintro ⟨_, ⟨hr, rfl⟩, h⟩
    split at h
    · cases h
      exact ⟨hr, .nothing ‹_›⟩
    · simp only [ExceptFold.bind_eq_ok, namedPayload_eq_ok_iff, pure, Except.pure,
        Except.ok.injEq] at h
      obtain ⟨q, hq, rfl⟩ := h
      exact ⟨hr, .symbol ‹_› hq⟩
  · rintro ⟨hr, h⟩
    refine ⟨_, ⟨hr, rfl⟩, ?_⟩
    cases h with
    | symbol ht hs =>
      simp only [ht, namedPayload_eq_ok_iff.mpr hs]
      rfl
    | nothing ht =>
      simp only [ht]
      rfl

theorem evalFloat_eq_ok_iff {i : ℕ} {o : Operands} :
    py.evalFloat K toks i = .ok o ↔ py.ReadsAt K toks [1] ∧ py.FloatReads K toks i o := by
  simp only [evalFloat, ExceptFold.bind_eq_ok, dst_eq_ok_iff]
  constructor
  · rintro ⟨_, ⟨hr, rfl⟩, h⟩
    split at h
    · cases h
      exact ⟨hr, .nothing ‹_›⟩
    · split at h
      · cases h
      · simp only [ExceptFold.bind_eq_ok, floatBits_eq_ok, pure, Except.pure,
          Except.ok.injEq] at h
        obtain ⟨b, hb, rfl⟩ := h
        exact ⟨hr, .literal ‹_› ‹_› hb⟩
  · rintro ⟨hr, h⟩
    refine ⟨_, ⟨hr, rfl⟩, ?_⟩
    cases h with
    | literal ht hx hp =>
      simp only [ht, hx, floatBits_eq_ok.mpr hp]
      rfl
    | nothing ht =>
      simp only [ht]
      rfl

theorem evalMockAttr_eq_ok_iff {o : Operands} :
    py.evalMockAttr K toks = .ok o ↔
      py.ReadsAt K toks [1, 2, 3] ∧ o = py.mockOperands K toks := by
  simp only [evalMockAttr, ExceptFold.bind_eq_ok, tokVal_eq_ok, orField_eq_ok, valueOr_zero,
    readsAt_iff, List.forall_mem_cons, Option.toList_some]
  constructor
  · rintro ⟨_, ⟨⟨h₁, -⟩, rfl⟩, _, ⟨h₂, rfl⟩, h⟩
    split at h
    · rename_i ht
      cases h
      have hv : py.valueAt K toks 3 = 0 := valueAt_of_le (List.getElem?_eq_none_iff.mp ht)
      refine ⟨⟨h₁, h₂, ?_, by simp⟩, ?_⟩
      · intro t ht'
        simp [ht] at ht'
      · rw [mockOperands, hv, show mockRegister 0 * 2 ^ 8 = 0 from rfl, lor_zero]
    · rename_i t ht
      simp only [ExceptFold.bind_eq_ok, pure, Except.pure, Except.ok.injEq] at h
      obtain ⟨v, hv, rfl⟩ := h
      have hv' : py.HasValue K toks 3 v := ⟨t, ht, hv⟩
      refine ⟨⟨h₁, h₂, ?_, by simp⟩, ?_⟩
      · intro t' ht'
        obtain rfl := Option.some.inj (ht.symm.trans ht')
        exact ⟨v, hv⟩
      · rw [mockOperands, hv'.valueAt_eq]
        rfl
  · rintro ⟨⟨h₁, h₂, h₃, -⟩, rfl⟩
    refine ⟨_, ⟨⟨h₁, by simp⟩, rfl⟩, _, ⟨h₂, rfl⟩, ?_⟩
    cases ht : toks[3]? with
    | none =>
      have hv : py.valueAt K toks 3 = 0 := valueAt_of_le (List.getElem?_eq_none_iff.mp ht)
      simp only [mockOperands, hv, show mockRegister 0 * 2 ^ 8 = 0 from rfl, lor_zero]
      rfl
    | some t =>
      obtain ⟨v, hv⟩ := h₃ t ht
      have hv' : py.HasValue K toks 3 v := ⟨t, ht, hv⟩
      simp only [mockOperands, hv'.valueAt_eq, hv]
      rfl

/-- A line has operands exactly when each token its branch evaluates is read. -/
theorem operands_eq_ok_iff {o : Operands} :
    py.operands env op toks = .ok o ↔ py.LineReads env op toks o := by
  unfold operands LineReads
  cases branch op toks with
  | form f => simp only [evalForm_eq_ok, readsAt_iff, Branch.tokens]
  | inlineLoad => exact evalInlineLoad_eq_ok_iff
  | float i => exact evalFloat_eq_ok_iff
  | mockAttr => exact evalMockAttr_eq_ok_iff

theorem exists_symbolReads_iff {sym : Text} :
    (∃ q, SymbolReads env sym q) ↔ ∀ off ids, env.symbols.lookup sym ≠ some ⟨off, .ids ids⟩ := by
  constructor
  · rintro ⟨q, hq⟩ off ids hids
    cases hq with
    | defined h => simp [h] at hids
    | undefined h => simp [AList.lookup_eq_none.mpr h] at hids
  · intro h
    cases hl : env.symbols.lookup sym with
    | none => exact ⟨0, .undefined (AList.lookup_eq_none.mp hl)⟩
    | some s =>
      obtain ⟨off, n | ids⟩ := s
      · exact ⟨_, .defined hl⟩
      · exact absurd hl (h off ids)

theorem exists_operands_iff :
    (∃ o, py.operands env op toks = .ok o) ↔
      (∀ i ∈ (branch op toks).tokens, py.Evaluates env.constants toks i) ∧
        py.Takes env toks (branch op toks) := by
  simp only [operands_eq_ok_iff, LineReads, exists_and_left, readsAt_iff]
  apply and_congr_right
  intro _
  cases branch op toks with
  | form f => simp [Takes]
  | mockAttr => simp [Takes]
  | inlineLoad =>
    simp only [Takes, ← exists_symbolReads_iff]
    constructor
    · rintro ⟨o, ho⟩ t ht
      cases ho with
      | symbol ht' hs =>
        obtain rfl := Option.some.inj (ht'.symm.trans ht)
        exact ⟨_, hs⟩
      | nothing ht' => simp [ht'] at ht
    · intro h
      cases ht : toks[2]? with
      | none => exact ⟨_, .nothing ht⟩
      | some t =>
        obtain ⟨q, hq⟩ := h t ht
        exact ⟨_, .symbol ht hq⟩
  | float i =>
    simp only [Takes]
    constructor
    · rintro ⟨o, ho⟩ t ht
      cases ho with
      | literal ht' hx hp =>
        obtain rfl := Option.some.inj (ht'.symm.trans ht)
        exact ⟨_, _, hx, hp⟩
      | nothing ht' => simp [ht'] at ht
    · intro h
      cases ht : toks[i]? with
      | none => exact ⟨_, .nothing ht⟩
      | some t =>
        obtain ⟨x, b, hx, hb⟩ := h t ht
        exact ⟨_, .literal ht hx hb⟩

end Runtime

end ImpulseTools

import ImpulseTools.Fuzz.Variant
import Mathlib.Data.Finset.Lattice.Basic

/-! # Types of the registers

Whether the types the generator records are among those the contract table gives when it is run
over the words.
-/

open ImpulseTools.Runtime

namespace ImpulseTools

abbrev TypeState := RegState

def Contract.apply (c : Contract) (t : TypeState) (w : Instruction) : TypeState :=
  if c.modifiesDstState then
    Function.update t w.dstReg.toNat
      (if c.op = some .mov then t (w.payload.toNat % 2 ^ 16)
        else (possibleTypes c.outputDstTypes).toFinset)
  else t

def tableStep (t : TypeState) (w : Instruction) : TypeState :=
  match variant? w.opcode w.flags with
  | some c => c.apply t w
  | none => t

def tableRun (words : List Instruction) : TypeState := words.foldl tableStep preambleTypes

/-- The types that may be recorded for an instruction other than `OP_MOV`; none leave the
register as it is. -/
def recordable (op : Op) (c : Contract) : List RegType :=
  match op with
  | .vecMathUnary | .vecMathBinary => [.float, .floatVector]
  | .csrWalk | .cscWalk | .adaptiveWalk | .setUnion | .setIntersect | .setDifference
  | .initInputSet | .extractValidity => [.bitsetHandle]
  | .setCardinality | .csrDegree => [.int64]
  | .clearReg => [.null]
  | .floatVectorScale => []
  | _ => if c.modifiesDstState then possibleTypes c.outputDstTypes else []

theorem choice_eq_none {α : Type} {l : List α} {n : ℕ} : choice l n = none ↔ l = [] := by
  constructor
  · intro h
    by_contra hl
    have hlt := Nat.mod_lt n (List.length_pos_iff.mpr hl)
    rw [choice, List.getElem?_eq_getElem hlt] at h
    cases h
  · rintro rfl
    rfl

/-- What is recorded: the types of the source, one of the recordable types, or nothing. -/
inductive Records (s : RegState) (c : Contract) (dst src : ℕ) : Op → RegState → Prop where
  | mov : Records s c dst src .mov (Function.update s dst (s src))
  | one {op : Op} {a : RegType} (hop : op ≠ .mov) (ha : a ∈ recordable op c) :
    Records s c dst src op (Function.update s dst {a})
  | keep {op : Op} (hop : op ≠ .mov) (hr : recordable op c = []) : Records s c dst src op s

theorem records_recordTypes (s : RegState) {c : Contract} {op : Op} (hop : c.op = some op)
    (dst src aux1 n : ℕ) : Records s c dst src op (recordTypes s c dst src aux1 n) := by
  unfold recordTypes
  rw [hop]
  split
  case h_1 | h_2 =>
    rename_i heq
    obtain rfl := Option.some.inj heq
    split
    · exact .one (by decide) (.head _)
    · exact .one (by decide) (.tail _ (.head _))
  case h_14 =>
    rename_i heq
    obtain rfl := Option.some.inj heq
    exact .mov
  case h_15 =>
    rename_i heq
    obtain rfl := Option.some.inj heq
    exact .keep (by decide) rfl
  case h_16 =>
    have hne : op ≠ .mov := by
      rintro rfl
      contradiction
    have hrec : recordable op c =
        if c.modifiesDstState then possibleTypes c.outputDstTypes else [] := by
      unfold recordable
      split
      all_goals first | rfl | contradiction
    split
    · rename_i t ht
      split
      · rename_i hm
        exact .one hne (by rw [hrec, if_pos hm]; exact choice_mem ht)
      · rename_i hm
        exact .keep hne (by rw [hrec, if_neg hm])
    · rename_i ht
      refine .keep hne ?_
      rw [hrec, choice_eq_none.mp ht, ite_self]
  all_goals
    rename_i heq
    obtain rfl := Option.some.inj heq
    exact .one (by decide) (.head _)

def typesAfter (es : List Emission) : RegState :=
  match es.getLast? with
  | some e => e.regState
  | none => preambleTypes

/-- What a step needs for its record to be one the table allows. -/
structure StepOk (e : Emission) (t : TypeState) : Prop where
  /-- The table leaves the destination of an adaptive walk as it was. -/
  walk : e.contract.op = some .adaptiveWalk → .bitsetHandle ∈ t e.dst
  /-- The line is assembled to the other variant. -/
  search : ¬ (e.contract.op = some .vectorAnnSearch ∧ e.contract.flagsMatch = 1)

def variantOf (op : Op) : Option Contract := variant? op.code (emittedFlags op)

theorem row_mov : ∃ v ∈ variantOf .mov, v.modifiesDstState ∧ v.op = some .mov := by
  decide +kernel

theorem row_walk : ∃ v ∈ variantOf .adaptiveWalk, v.modifiesDstState = false := by
  decide +kernel

theorem rows_search : ∀ c ∈ contracts, c.opcode = Op.vectorAnnSearch.code.toNat →
    c.flagsMatch = 1 → ∃ v ∈ variantOf .vectorAnnSearch, v.modifiesDstState ∧ v.op ≠ some .mov ∧
      recordable .vectorAnnSearch c ≠ [] ∧
      ∀ a ∈ recordable .vectorAnnSearch c, a ∉ possibleTypes v.outputDstTypes := by
  decide +kernel

/-- Where nothing goes wrong, the variant of the word changes the register exactly if something is
recorded, and to types among which are those that may be recorded. -/
theorem rows_other : ∀ op ∈ formattedOps, op ≠ .mov → op ≠ .adaptiveWalk → ∀ c ∈ contracts,
    c.opcode = op.code.toNat → ¬ (op = .vectorAnnSearch ∧ c.flagsMatch = 1) →
    ∃ v ∈ variantOf op, v.op ≠ some .mov ∧
      (v.modifiesDstState = false ↔ recordable op c = []) ∧
      ∀ a ∈ recordable op c, a ∈ possibleTypes v.outputDstTypes := by
  decide +kernel

theorem rows_assert : ∀ c ∈ contracts, c.opcode = Op.assert.code.toNat →
    recordable .assert c = [] := by
  decide +kernel

section

variable {op : Op} {dst src : ℕ} {w : Instruction} {v : Contract} {t : TypeState}

theorem tableStep_of_variantOf (hf : WordFields op dst src w) (hv : v ∈ variantOf op) :
    tableStep t w = v.apply t w := by
  have hw : variant? w.opcode w.flags = some v := by
    rw [hf.opcode, hf.flags]
    exact hv
  rw [tableStep, hw]

theorem tableStep_of_not_modifies (hf : WordFields op dst src w) (hv : v ∈ variantOf op)
    (hm : v.modifiesDstState = false) : tableStep t w = t := by
  rw [tableStep_of_variantOf hf hv, Contract.apply, hm, if_neg Bool.false_ne_true]

theorem tableStep_of_modifies (hf : WordFields op dst src w) (hv : v ∈ variantOf op)
    (hop : op ≠ .assert) (hm : v.modifiesDstState) (hmov : v.op ≠ some .mov) :
    tableStep t w = Function.update t dst (possibleTypes v.outputDstTypes).toFinset := by
  rw [tableStep_of_variantOf hf hv, Contract.apply, if_pos hm, if_neg hmov, hf.dst, if_neg hop]

theorem stepOk_iff {e : Emission} (hop : e.contract.op = some op) :
    StepOk e t ↔ (op = .adaptiveWalk → .bitsetHandle ∈ t e.dst) ∧
      ¬ (op = .vectorAnnSearch ∧ e.contract.flagsMatch = 1) := by
  constructor
  · rintro ⟨hwalk, hsearch⟩
    simpa only [hop, Option.some.injEq] using And.intro hwalk hsearch
  · rintro ⟨hwalk, hsearch⟩
    constructor
    · simpa only [hop, Option.some.injEq] using hwalk
    · simpa only [hop, Option.some.injEq] using hsearch

section

variable {s s' : RegState} {c : Contract}

theorem records_le_walk (hst : s ≤ t) (hf : WordFields .adaptiveWalk dst src w)
    (h : Records s c dst src .adaptiveWalk s') :
    s' ≤ tableStep t w ↔ .bitsetHandle ∈ t dst := by
  obtain ⟨v, hv, hm⟩ := row_walk
  rw [tableStep_of_not_modifies hf hv hm]
  cases h with
  | one _ ha =>
    obtain rfl := List.mem_singleton.mp ha
    rw [update_le_iff, Finset.singleton_subset_iff]
    exact and_iff_left fun r _ => hst r
  | keep _ hr => cases hr

theorem not_records_le_search (hf : WordFields .vectorAnnSearch dst src w) (hc : c ∈ contracts)
    (hcode : c.opcode = Op.vectorAnnSearch.code.toNat) (hmatch : c.flagsMatch = 1)
    (h : Records s c dst src .vectorAnnSearch s') : ¬ s' ≤ tableStep t w := by
  obtain ⟨v, hv, hm, hmov, hne, hout⟩ := rows_search c hc hcode hmatch
  rw [tableStep_of_modifies hf hv (by decide) hm hmov]
  cases h with
  | one _ ha =>
    rw [update_le_update_iff, Finset.singleton_subset_iff, List.mem_toFinset]
    exact fun h => hout _ ha h.1
  | keep _ hr => exact absurd hr hne

theorem records_le_other (hst : s ≤ t) (hf : WordFields op dst src w) (hc : c ∈ contracts)
    (hformat : op ∈ formattedOps) (hcode : c.opcode = op.code.toNat) (hwalk : op ≠ .adaptiveWalk)
    (hsearch : ¬ (op = .vectorAnnSearch ∧ c.flagsMatch = 1)) (h : Records s c dst src op s') :
    s' ≤ tableStep t w := by
  have hrest : ∀ r, r ≠ dst → s r ≤ t r := fun r _ => hst r
  cases h with
  | mov =>
    obtain ⟨v, hv, hm, hvop⟩ := row_mov
    have hdst : w.dstReg.toNat = dst := hf.dst
    rw [tableStep_of_variantOf hf hv, Contract.apply, if_pos hm, if_pos hvop, hf.src rfl, hdst]
    exact update_le_update_iff.mpr ⟨hst _, hrest⟩
  | one hmov ha =>
    obtain ⟨v, hv, hvop, hm, hout⟩ := rows_other op hformat hmov hwalk c hc hcode hsearch
    have hne : op ≠ .assert := by
      rintro rfl
      rw [rows_assert c hc hcode] at ha
      cases ha
    have hmod : v.modifiesDstState = true := by
      by_contra h
      rw [hm.mp (Bool.not_eq_true _ ▸ h)] at ha
      cases ha
    rw [tableStep_of_modifies hf hv hne hmod hvop, update_le_update_iff]
    exact ⟨Finset.singleton_subset_iff.mpr (List.mem_toFinset.mpr (hout _ ha)), hrest⟩
  | keep hmov hr =>
    obtain ⟨v, hv, hvop, hm, hout⟩ := rows_other op hformat hmov hwalk c hc hcode hsearch
    rw [tableStep_of_not_modifies hf hv (hm.mpr hr)]
    exact hst

end

end

theorem regState_le_tableStep_iff {pc : ℕ} {s : RegState} {e : Emission} {op : Op}
    {args : List Text} {w : Instruction} {t : TypeState} (hst : s ≤ t)
    (he : Emits contracts pc s e op args) (hw : IsWordOf e w) :
    e.regState ≤ tableStep t w ↔ StepOk e t := by
  obtain ⟨op', hop, hf⟩ := hw
  obtain rfl : op = op' := Option.some.inj (he.op_eq.symm.trans hop)
  obtain ⟨hformat, hcode⟩ := he.row
  obtain ⟨aux1, n, hrec⟩ := he.regState_eq
  have hrecords := records_recordTypes s hop e.dst e.src aux1 n
  rw [← hrec] at hrecords
  rw [stepOk_iff hop]
  by_cases hwalk : op = .adaptiveWalk
  · subst hwalk
    rw [records_le_walk hst hf hrecords]
    exact ⟨fun h => ⟨fun _ => h, fun h => absurd h.1 (by decide)⟩, fun h => h.1 rfl⟩
  · by_cases hsearch : op = .vectorAnnSearch ∧ e.contract.flagsMatch = 1
    · obtain ⟨rfl, hmatch⟩ := hsearch
      apply iff_of_false
      · exact not_records_le_search hf he.contract_mem hcode hmatch hrecords
      · exact fun h => h.2 ⟨rfl, hmatch⟩
    · apply iff_of_true _ ⟨fun h => absurd h hwalk, hsearch⟩
      exact records_le_other hst hf he.contract_mem hformat hcode hwalk hsearch hrecords

theorem typesAfter_concat (es : List Emission) (e : Emission) :
    typesAfter (es ++ [e]) = e.regState := by
  simp [typesAfter]

theorem Trace.regState_eq {table : List Contract} {s : RegState} {es : List Emission}
    (h : Trace table preambleTypes es s) : s = typesAfter es := by
  cases h with
  | nil => rfl
  | snoc _ _ => rw [typesAfter_concat]

theorem Trace.emits_getElem {table : List Contract} {s : RegState} {es : List Emission}
    (h : Trace table preambleTypes es s) {k : ℕ} {e : Emission} (hk : es[k]? = some e) :
    ∃ op args, Emits table (7 + k) (typesAfter (es.take k)) e op args := by
  induction h with
  | nil => cases hk
  | @snoc es s e' op args htrace he ih =>
    rcases Concat.getElem?_concat_eq_some.mp hk with hk | ⟨rfl, rfl⟩
    · rw [List.take_append_of_le_length (List.getElem?_eq_some_iff.mp hk).1.le]
      exact ih hk
    · rw [List.take_left, ← htrace.regState_eq]
      exact ⟨op, args, he⟩

/-- A run keeps within the table exactly if each of its steps is in order. -/
theorem typesAfter_le_tableRun_iff {s : RegState} {es : List Emission} {words : List Instruction}
    (h : Trace contracts preambleTypes es s) (hwords : List.Forall₂ IsWordOf es words) :
    (∀ k, typesAfter (es.take k) ≤ tableRun (words.take k)) ↔
      ∀ k e, es[k]? = some e → StepOk e (tableRun (words.take k)) := by
  have hstep {k : ℕ} {e : Emission} (hk : es[k]? = some e)
      (hle : typesAfter (es.take k) ≤ tableRun (words.take k)) :
      typesAfter (es.take (k + 1)) ≤ tableRun (words.take (k + 1)) ↔
        StepOk e (tableRun (words.take k)) := by
    obtain ⟨op, args, he⟩ := h.emits_getElem hk
    obtain ⟨w, hw, hwe⟩ := ExceptFold.exists_getElem? hwords hk
    rw [List.take_add_one, List.take_add_one, hk, hw, Option.toList_some, Option.toList_some,
      typesAfter_concat, tableRun, List.foldl_append, ← tableRun]
    exact regState_le_tableStep_iff hle he hwe
  constructor
  · intro hall k e hk
    exact (hstep hk (hall k)).mp (hall (k + 1))
  · intro hok k
    induction k with
    | zero => exact le_rfl
    | succ k ih =>
      rcases Option.eq_none_or_eq_some es[k]? with hk | ⟨e, hk⟩
      · have hlen : es.length ≤ k := List.getElem?_eq_none_iff.mp hk
        rw [List.take_of_length_le (by omega), List.take_of_length_le (hwords.length_eq ▸ by omega)]
        rwa [List.take_of_length_le hlen, List.take_of_length_le (hwords.length_eq ▸ hlen)] at ih
      · exact (hstep hk ih).mpr (hok k e hk)

/-- The types recorded for every register after every emission are among those the table gives
it exactly if no step records the destination of an adaptive walk against the table, or an
output of the variant of the search that its word is not. -/
theorem Runtime.generateProgram_types_iff {py : Runtime} (hpy : py.ReadsCents) (seed : ℤ)
    (draws : List Draw) :
    ∃ p pre words, py.parseImpasFile constants (generateProgram contracts seed draws) =
        (.ok p, constants) ∧
      p.instructions = pre ++ (words ++ [.ofInts Op.halt.code 0 0 0]) ∧ pre.length = 7 ∧
      words.length = (fuzzRun contracts draws).emitted.length ∧
      ((∀ k r, typesAfter ((fuzzRun contracts draws).emitted.take k) r ⊆
          tableRun (words.take k) r) ↔
        ∀ k e, (fuzzRun contracts draws).emitted[k]? = some e →
          StepOk e (tableRun (words.take k))) := by
  obtain ⟨p, pre, words, hp, hi, hlen, hwords⟩ := parse_generateProgram hpy contracts seed draws
  refine ⟨p, pre, words, hp, hi, hlen, hwords.length_eq.symm, ?_⟩
  exact typesAfter_le_tableRun_iff (trace_fuzzRun contracts draws) hwords

/-- The draws of `random.Random(168)` for one instruction. -/
def draws168 : List Draw := [{ contract := 29, dst := 16, src := 2 }]

theorem emitted_draws168 : ∃ e, (fuzzRun contracts draws168).emitted = [e] ∧
    e.line = chars "0x07: OP_ADAPTIVE_WALK         R26, R3, 0" ∧
    e.contract.op = some .adaptiveWalk ∧ e.regState 26 = {.bitsetHandle} := by
  have h : (fuzzRun contracts draws168).emitted.map
      (fun e => (e.line, e.contract.op, e.regState 26)) =
        [(chars "0x07: OP_ADAPTIVE_WALK         R26, R3, 0", some .adaptiveWalk,
          {.bitsetHandle})] := by
    decide +kernel
  obtain ⟨e, he, hline⟩ := List.map_eq_singleton_iff.mp h
  rw [Prod.mk.injEq, Prod.mk.injEq] at hline
  exact ⟨e, he, hline.1, hline.2.1, hline.2.2⟩

theorem generateProgram_types_iff_walk : ∃ p words,
    Runtime.decimals.parseImpasFile constants (generateProgram contracts 168 draws168) =
      (.ok p, constants) ∧ List.length words = 1 ∧
    ((∀ k r, typesAfter ((fuzzRun contracts draws168).emitted.take k) r ⊆
        tableRun (words.take k) r) ↔
      ∀ k e, (fuzzRun contracts draws168).emitted[k]? = some e →
        StepOk e (tableRun (words.take k))) := by
  obtain ⟨e, he, -⟩ := emitted_draws168
  obtain ⟨p, pre, words, hp, -, -, hlen, hiff⟩ :=
    Runtime.generateProgram_types_iff readsCents_decimals 168 draws168
  exact ⟨p, words, hp, by rw [hlen, he, List.length_singleton], hiff⟩

/-- The walk is recorded to give a bitset, and the table leaves its destination null. -/
theorem types_not_allowed_walk : ∃ e p pre w, (fuzzRun contracts draws168).emitted = [e] ∧
    e.line = chars "0x07: OP_ADAPTIVE_WALK         R26, R3, 0" ∧
    Runtime.decimals.parseImpasFile constants (generateProgram contracts 168 draws168) =
      (.ok p, constants) ∧
    p.instructions = pre ++ [w, .ofInts Op.halt.code 0 0 0] ∧ pre.length = 7 ∧
    typesAfter [e] 26 = {.bitsetHandle} ∧ tableRun [w] 26 = {.null} ∧
    ¬ typesAfter [e] 26 ⊆ tableRun [w] 26 := by
  obtain ⟨e, he, hline, hop, htypes⟩ := emitted_draws168
  obtain ⟨p, pre, words, hp, hi, hlen, hwords⟩ :=
    parse_generateProgram readsCents_decimals contracts 168 draws168
  rw [he, ExceptFold.forall₂_singleton_left] at hwords
  obtain ⟨w, ⟨op, hop', hf⟩, rfl⟩ := hwords
  obtain rfl : op = .adaptiveWalk := Option.some.inj (hop'.symm.trans hop)
  have htable : tableRun [w] 26 = {.null} := by
    obtain ⟨v, hv, hm⟩ := row_walk
    show tableStep preambleTypes w 26 = _
    rw [tableStep_of_not_modifies hf hv hm]
    rfl
  have hafter : typesAfter [e] 26 = {.bitsetHandle} := htypes
  refine ⟨e, p, pre, w, he, hline, hp, hi, hlen, hafter, htable, ?_⟩
  rw [hafter, htable]
  decide

end ImpulseTools

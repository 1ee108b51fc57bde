import ImpulseTools.Fuzz.Types

/-! # Operand selection

A turn of the generator first collects the contracts whose operands can be given registers, and
then chooses a register for each operand of one of them. The two comprehensions are written apart,
and the register 0 stands for a missing candidate.
-/

namespace ImpulseTools

/-- The numbers drawn in one turn, with those for the register of aux2. -/
structure FullDraw extends Draw where
  /-- `rng.random() < 0.3` -/
  skipAux2 : Bool := false
  aux2 : ℕ := 0

structure Selection where
  contract : Contract
  dst : ℕ
  src : ℕ
  aux1 : ℕ
  aux2 : ℕ

/-- The register of an operand: 0 if the mask is 0, the operand is skipped or there is no
candidate. -/
def operandReg (s : RegState) (allowed : ℕ) (skip : Bool) (n : ℕ) : ℕ :=
  if allowed = 0 then 0
  else if skip then 0
  else (choice (validRegs s allowed) n).getD 0

/-- The first half of a turn. The masks of a set operation are restricted for src and aux1. -/
def select (table : List Contract) (s : RegState) (d : FullDraw) : Option Selection := do
  let c ← choice ((fuzzerContracts table).filter (isEligible s)) d.contract
  return {
    contract := c
    dst := randint 10 31 d.dst
    src := operandReg s c.allowedSrc false d.src
    aux1 := operandReg s c.allowedAux1 (c.allowZeroSkipAux1 && d.skipAux1) d.aux1
    aux2 := operandReg s c.allowedAux2Types (c.allowZeroSkipAux2 && d.skipAux2) d.aux2 }

/-- The second half: the line, if the mnemonic has a format, and the type of its destination. -/
def addLine (s : FuzzState) (d : FullDraw) (sel : Selection) : FuzzState :=
  match formatInstruction s.pc sel.contract sel.dst sel.src sel.aux1 d.operand with
  | none => s
  | some line =>
    let regState := recordTypes s.regState sel.contract sel.dst sel.src sel.aux1 d.outType
    ⟨s.pc + 1, regState, s.emitted ++ [⟨sel.contract, sel.dst, sel.src, line, regState⟩]⟩

variable {table : List Contract} {s : RegState}

theorem turn_eq (table : List Contract) (s : FuzzState) (d : FullDraw) :
    turn table s d.toDraw = (select table s.regState d).map (addLine s d) := by
  unfold turn select
  cases choice ((fuzzerContracts table).filter (isEligible s.regState)) d.contract with
  | none => rfl
  | some c =>
    simp only [bind, Option.bind_some, pure, Option.map_some, addLine, operandReg,
      Bool.false_eq_true, if_false]
    generalize formatInstruction s.pc c _ _ _ d.operand = line
    cases line <;> rfl

theorem turn_eq_none {s : FuzzState} {d d' : Draw} (h : turn table s d = none) :
    turn table s d' = none := by
  have hnil : (fuzzerContracts table).filter (isEligible s.regState) = [] := by
    by_contra hne
    obtain ⟨c, hc⟩ := Option.ne_none_iff_exists'.mp (mt (choice_eq_none (n := d.contract)).mp hne)
    simp only [turn, hc, bind, Option.bind_some] at h
    split at h <;> cases h
  rw [turn, choice_eq_none.mpr hnil]
  rfl

theorem generate_concat (draws : List Draw) (d : Draw) (s : FuzzState) :
    generate table (draws ++ [d]) s =
      (turn table (generate table draws s) d).getD (generate table draws s) := by
  induction draws generalizing s with
  | nil =>
    simp only [List.nil_append, generate]
    cases turn table s d <;> rfl
  | cons d' draws ih =>
    simp only [List.cons_append, generate]
    cases h : turn table s d' with
    | none => simp [turn_eq_none h]
    | some s' => exact ih s'

/-- `reg_state` as every iteration finds it: the destinations are R10 to R31. -/
structure Keeps (s : RegState) : Prop where
  low : ∀ r < 10, s r = preambleTypes r
  high : ∀ r, 32 ≤ r → s r = {.null}
  nonempty : ∀ r, (s r).Nonempty

theorem keeps_preambleTypes : Keeps preambleTypes where
  low _ _ := rfl
  high r hr := by
    obtain ⟨r, rfl⟩ := Nat.exists_eq_add_of_le' hr
    rfl
  nonempty r := by
    unfold preambleTypes
    split <;> exact Finset.singleton_nonempty _

theorem Keeps.update (h : Keeps s) {dst : ℕ} (hd : 10 ≤ dst ∧ dst ≤ 31) {ts : Finset RegType}
    (ht : ts.Nonempty) : Keeps (Function.update s dst ts) where
  low r hr := by
    rw [Function.update_of_ne (by omega), h.low r hr]
  high r hr := by
    rw [Function.update_of_ne (by omega), h.high r hr]
  nonempty r := by
    by_cases hr : r = dst
    · rw [hr, Function.update_self]
      exact ht
    · rw [Function.update_of_ne hr]
      exact h.nonempty r

theorem Keeps.records (h : Keeps s) {s' : RegState} {c : Contract} {dst src : ℕ} {op : Op}
    (hd : 10 ≤ dst ∧ dst ≤ 31) (hr : Records s c dst src op s') : Keeps s' := by
  cases hr with
  | mov => exact h.update hd (h.nonempty src)
  | one => exact h.update hd (Finset.singleton_nonempty _)
  | keep => exact h

theorem Keeps.trace (h : Keeps s) {s' : RegState} {es : List Emission} (ht : Trace table s es s') :
    Keeps s' := by
  induction ht with
  | nil => exact h
  | snoc _ he ih =>
    obtain ⟨aux1, n, hs⟩ := he.regState_eq
    rw [hs]
    exact ih.records he.dst_mem (records_recordTypes _ he.op_eq _ _ _ _)

/-- A tracked type of the register is in the mask, and it is no `NULL` unless the register is
R0. -/
def Tracked (s : RegState) (allowed r : ℕ) : Prop :=
  ∃ t ∈ s r, allowed.testBit t.tag ∧ (t = .null → r = 0)

structure Suits (s : RegState) (allowed : ℕ) (skips : Bool) (r : ℕ) : Prop where
  register : r < 64 ∧ Tracked s allowed r ∨ r = 0 ∧ (allowed = 0 ∨ skips)
  /-- A required operand has candidates. -/
  candidates : allowed ≠ 0 → ¬ skips → validRegs s allowed ≠ []

structure Selection.Suitable (sel : Selection) (s : RegState) : Prop where
  src : Suits s sel.contract.allowedSrc false sel.src
  aux1 : Suits s sel.contract.allowedAux1 sel.contract.allowZeroSkipAux1 sel.aux1
  aux2 : Suits s sel.contract.allowedAux2Types sel.contract.allowZeroSkipAux2 sel.aux2

theorem accepts_iff {allowed r : ℕ} : accepts allowed (s r) r ↔ Tracked s allowed r := by
  simp only [accepts, Tracked, decide_eq_true_eq]
  refine exists_congr fun t => and_congr_right fun _ => ?_
  tauto

theorem mem_validRegs {allowed r : ℕ} :
    r ∈ validRegs s allowed ↔ r < 64 ∧ Tracked s allowed r := by
  rw [validRegs, List.mem_filter, List.mem_range, accepts_iff]

theorem required_iff (s : RegState) (allowed : ℕ) (skips : Bool) :
    (!(allowed != 0 && !skips && ((List.range 64).filter fun r =>
      allowed == 0 || skips || accepts allowed (s r) r).isEmpty)) ↔
      (allowed ≠ 0 → ¬ skips → validRegs s allowed ≠ []) := by
  by_cases h0 : allowed = 0
  · simp [h0]
  · cases skips with
    | true => simp
    | false => simp [h0, validRegs]

theorem isEligible_iff {c : Contract} : isEligible s c ↔
    (c.allowedSrc ≠ 0 → validRegs s c.allowedSrc ≠ []) ∧
      (c.allowedAux1 ≠ 0 → ¬ c.allowZeroSkipAux1 → validRegs s c.allowedAux1 ≠ []) ∧
      (c.allowedAux2Types ≠ 0 → ¬ c.allowZeroSkipAux2 → validRegs s c.allowedAux2Types ≠ []) := by
  have hsrc := required_iff s c.allowedSrc false
  simp only [Bool.not_false, Bool.and_true, Bool.or_false, Bool.false_eq_true, not_false_eq_true,
    true_imp_iff] at hsrc
  unfold isEligible
  dsimp only
  rw [Bool.and_eq_true, Bool.and_eq_true, hsrc, required_iff, required_iff, and_assoc]

theorem suits_operandReg {allowed : ℕ} {skips skip : Bool} (hskip : skip → skips)
    (h : allowed ≠ 0 → ¬ skips → validRegs s allowed ≠ []) (n : ℕ) :
    Suits s allowed skips (operandReg s allowed skip n) where
  register := by
    unfold operandReg
    split_ifs with h0 hs
    · exact .inr ⟨rfl, .inl h0⟩
    · exact .inr ⟨rfl, .inr (hskip hs)⟩
    · cases hc : choice (validRegs s allowed) n with
      | some r => exact .inl (mem_validRegs.mp (choice_mem hc))
      | none =>
        -- no candidate: the operand may be skipped, or the contract was not eligible
        refine .inr ⟨rfl, .inr ?_⟩
        by_contra hs'
        exact h h0 hs' (choice_eq_none.mp hc)
  candidates := h

theorem select_suitable {d : FullDraw} {sel : Selection} (h : select table s d = some sel) :
    sel.Suitable s := by
  obtain ⟨c, hc, h⟩ := Option.bind_eq_some_iff.mp h
  obtain rfl := Option.some.inj h
  obtain ⟨hsrc, haux1, haux2⟩ := isEligible_iff.mp (List.of_mem_filter (choice_mem hc))
  constructor
  · exact suits_operandReg id (fun h0 _ => hsrc h0) _
  · exact suits_operandReg (fun hs => (Bool.and_eq_true_iff.mp hs).1) haux1 _
  · exact suits_operandReg (fun hs => (Bool.and_eq_true_iff.mp hs).1) haux2 _

/-- Each iteration finds R0 to R9 with the types of the preamble, R32 to R63 with the type `NULL`
and every register with a type, and the registers it chooses suit the operands of the contract. -/
theorem fuzzRun_selects (table : List Contract) (draws : List FullDraw) (d : FullDraw) :
    let s := fuzzRun table (draws.map FullDraw.toDraw)
    Keeps s.regState ∧
      (∀ sel, select table s.regState d = some sel → sel.Suitable s.regState) ∧
      fuzzRun table ((draws ++ [d]).map FullDraw.toDraw) =
        ((select table s.regState d).map (addLine s d)).getD s := by
  refine ⟨keeps_preambleTypes.trace (trace_fuzzRun _ _), fun sel h => select_suitable h, ?_⟩
  rw [List.map_append, List.map_singleton, fuzzRun, generate_concat, turn_eq]
  rfl

end ImpulseTools

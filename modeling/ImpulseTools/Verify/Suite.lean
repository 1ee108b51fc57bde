import ImpulseTools.Lib.Checks
import ImpulseTools.Lib.ExceptFold
import ImpulseTools.Asm.Parse
import ImpulseTools.Verify.Compare

/-! # The verdict of the suite

The expectation checks of `main` in `run_vm_asm_suite.py`, and the states on which they
agree with those of the four-way comparison.
-/

namespace ImpulseTools

inductive Failure where
  | status (expected got : Text)
  | register (i expected got : ℤ)
  | throwCode (expected got : ℤ)
  | flagZf (expected got : Bool)
  | flagSt (expected got : Bool)
  | pc (expected got : ℤ)
  | callStackDepth (expected got : ℤ)

theorem toNat_lt_of_mem {i : ℤ} (h : 0 ≤ i ∧ i < 64) : i.toNat < 64 := by omega

/-- The index of a ctypes array of 64 items: a negative one counts from the end. -/
def registerIndex (i : ℤ) : Option (Fin 64) :=
  if h : 0 ≤ i ∧ i < 64 then some ⟨i.toNat, toNat_lt_of_mem h⟩
  else if h : -64 ≤ i ∧ i < 0 then some ⟨(i + 64).toNat, by omega⟩
  else none

def check {α : Type} [DecidableEq α] (failure : α → α → Failure) (expected got : α) :
    List Failure :=
  if got ≠ expected then [failure expected got] else []

def checkSome {α : Type} [DecidableEq α] (failure : α → α → Failure) (expected : Option α)
    (got : α) : List Failure :=
  match expected with
  | some x => check failure x got
  | none => []

def registerAt (s : VmState) (i : ℤ) : Except PyErr ℤ :=
  match registerIndex i with
  | some i => .ok (s.registers i).toNat
  | none => .error .indexOutOfRange

/-- `failure_reasons` for a run, or the exception of a register index out of range. -/
def verify (e : Expectations) (o : Outcome) : Except PyErr (List Failure) := do
  let registers ← e.registers.entries.mapM fun r => do
    return check (.register r.1) r.2 (← registerAt o.state r.1)
  return check .status e.status o.status ++ registers.flatten ++
    checkSome .throwCode e.throwCode (o.state.registers 0).toNat ++
    checkSome .flagZf e.flagZf (o.state.flags.getLsbD 0) ++
    -- `state.flags & 2`
    checkSome .flagSt e.flagSt (o.state.flags.getLsbD 1) ++
    checkSome .pc e.pc o.state.pc.toNat ++
    checkSome .callStackDepth e.callStackDepth o.state.callStackDepth.toNat

inductive Coord where
  | status
  | register (i : Fin 64)
  | flag (k : Fin 64)
  | pc
  | callStackDepth
  | scratchBytes
  | maxDop
  deriving DecidableEq

inductive Value where
  | text (t : Text)
  | num (n : ℤ)
  | bit (b : Bool)
  deriving DecidableEq

abbrev Check := Coord × Value

/-- A check that no outcome passes. -/
def never : Check := (.status, .num 0)

def Outcome.read : Coord → Outcome → Value
  | .status, o => .text o.status
  | .register i, o => .num (o.state.registers i).toNat
  | .flag k, o => .bit (o.state.flags.getLsbD k)
  | .pc, o => .num o.state.pc.toNat
  | .callStackDepth, o => .num o.state.callStackDepth.toNat
  | .scratchBytes, o => .num o.scratchBytes
  | .maxDop, o => .num o.maxDop

def Coord.range : Coord → Set Value
  | .status => {v | ∃ c : BitVec 32, v = .text (statusName c.toInt)}
  | .register _ => {v | ∃ b : BitVec 64, v = .num b.toNat}
  | .flag _ => {v | ∃ b, v = .bit b}
  | .pc | .callStackDepth => {v | ∃ b : BitVec 32, v = .num b.toNat}
  | .scratchBytes | .maxDop => {v | ∃ n : ℕ, v = .num n}

def bitsWord (b : Fin 64 → Bool) : BitVec 64 :=
  (BitVec.ofBoolListLE ((List.finRange 64).map b)).cast (by simp)

theorem getLsbD_bitsWord (b : Fin 64 → Bool) (k : Fin 64) : (bitsWord b).getLsbD k = b k := by
  rw [bitsWord, BitVec.getLsbD_cast, BitVec.getLsbD_ofBoolListLE, List.getD_eq_getElem?_getD,
    List.getElem?_map, List.getElem?_eq_getElem (by simp), List.getElem_finRange]
  rfl

theorem exists_outcome {f : Coord → Value} (h : ∀ i, f i ∈ i.range) :
    ∃ o : Outcome, ∀ i, o.read i = f i := by
  obtain ⟨c, hc⟩ := h .status
  choose r hr using fun i => h (.register i)
  choose b hb using fun k => h (.flag k)
  obtain ⟨pc, hpc⟩ := h .pc
  obtain ⟨depth, hdepth⟩ := h .callStackDepth
  obtain ⟨n, hn⟩ := h .scratchBytes
  obtain ⟨m, hm⟩ := h .maxDop
  refine ⟨⟨c, ⟨pc, bitsWord b, r, fun _ => 0, depth⟩, n, m⟩, fun i => ?_⟩
  cases i with
  | status => exact hc.symm
  | register i => exact (hr i).symm
  | flag k => rw [hb k, Outcome.read, getLsbD_bitsWord]
  | pc => exact hpc.symm
  | callStackDepth => exact hdepth.symm
  | scratchBytes => exact hn.symm
  | maxDop => exact hm.symm

theorem exists_ne_value (i : Coord) (v : Value) : ∃ v' ∈ i.range, v' ≠ v := by
  have two {a b : Value} (ha : a ∈ i.range) (hb : b ∈ i.range) (hab : a ≠ b) :
      ∃ v' ∈ i.range, v' ≠ v := by
    by_cases h : a = v
    · exact ⟨b, hb, fun h' => hab (h.trans h'.symm)⟩
    · exact ⟨a, ha, h⟩
  cases i with
  | status => exact two ⟨0, rfl⟩ ⟨1, rfl⟩ (by decide)
  | register i => exact two ⟨0, rfl⟩ ⟨1, rfl⟩ (by decide)
  | flag k => exact two ⟨true, rfl⟩ ⟨false, rfl⟩ (by decide)
  | pc => exact two ⟨0, rfl⟩ ⟨1, rfl⟩ (by decide)
  | callStackDepth => exact two ⟨0, rfl⟩ ⟨1, rfl⟩ (by decide)
  | scratchBytes => exact two ⟨0, rfl⟩ ⟨1, rfl⟩ (by decide)
  | maxDop => exact two ⟨0, rfl⟩ ⟨1, rfl⟩ (by decide)

theorem Outcome.read_mem_range (i : Coord) (o : Outcome) : o.read i ∈ i.range := by
  cases i with
  | status => exact ⟨o.statusCode, rfl⟩
  | register i => exact ⟨o.state.registers i, rfl⟩
  | flag k => exact ⟨_, rfl⟩
  | pc => exact ⟨o.state.pc, rfl⟩
  | callStackDepth => exact ⟨o.state.callStackDepth, rfl⟩
  | scratchBytes => exact ⟨o.scratchBytes, rfl⟩
  | maxDop => exact ⟨o.maxDop, rfl⟩

/-- The coordinates of an outcome vary independently. -/
theorem independent : Checks.Independent (fun i o => Outcome.read i o) Coord.range where
  read_mem := Outcome.read_mem_range
  exists_state _ := exists_outcome
  exists_ne := exists_ne_value

inductive Target where
  | status
  | register (i : ℤ)
  | throwCode
  | flagZf
  | flagSt
  | pc
  | callStackDepth
  | scratchBytes
  | maxDop
  deriving DecidableEq

/-- `expectations[…]` -/
def Expectations.get (e : Expectations) : Target → Option Value
  | .status => some (.text e.status)
  | .register i => (e.registers.lookup i).map .num
  | .throwCode => e.throwCode.map .num
  | .flagZf => e.flagZf.map .bit
  | .flagSt => e.flagSt.map .bit
  | .pc => e.pc.map .num
  | .callStackDepth => e.callStackDepth.map .num
  | .scratchBytes => e.scratchBytes.map .num
  | .maxDop => e.maxDop.map .num

def registerCheck (i : ℤ) (v : Value) : Check :=
  match registerIndex i with
  | some i => (.register i, v)
  | none => never

/-- The check the suite makes of an expectation, if it makes one. -/
def suiteCheck : Target → Value → Option Check
  | .status, v => some (.status, v)
  | .register i, v => some (registerCheck i v)
  | .throwCode, v => some (.register 0, v)
  | .flagZf, v => some (.flag 0, v)
  | .flagSt, v => some (.flag 1, v)
  | .pc, v => some (.pc, v)
  | .callStackDepth, v => some (.callStackDepth, v)
  | .scratchBytes, _ | .maxDop, _ => none

def compareCheck : Target → Value → Option Check
  | .status, .text t => if t = [] then none else some (.status, .text (statusOf t))
  | .status, v => some (.status, v)
  | .register i, v =>
    if h : 0 ≤ i ∧ i < 64 then some (.register ⟨i.toNat, by omega⟩, v)
    -- a missing key of `registers` reads as 0
    else if v = .num 0 then none
    else some never
  | .flagZf, v => some (.flag 0, v)
  | .flagSt, v => some (.flag 4, v)
  | .pc, v => some (.pc, v)
  | .throwCode, _ | .callStackDepth, _ | .scratchBytes, _ | .maxDop, _ => none

def checks (f : Target → Value → Option Check) (get : Target → Option Value) : Set Check :=
  {c | ∃ t v, get t = some v ∧ f t v = some c}

abbrev Passes (C : Set Check) (o : Outcome) : Prop := Checks.Holds (fun i o => Outcome.read i o) C o

theorem passes_checks {f : Target → Value → Option Check} {get : Target → Option Value}
    {o : Outcome} : Passes (checks f get) o ↔
      ∀ t v, get t = some v → ∀ c, f t v = some c → o.read c.1 = c.2 := by
  constructor
  · exact fun h t v hv c hc => h c ⟨t, v, hv, hc⟩
  · rintro h c ⟨t, v, hv, hc⟩
    exact h t v hv c hc

theorem not_read_never (o : Outcome) : o.read never.1 ≠ never.2 := fun h => nomatch h

theorem read_registerCheck {o : Outcome} {i v : ℤ} :
    o.read (registerCheck i (.num v)).1 = (registerCheck i (.num v)).2 ↔
      ∃ j, registerIndex i = some j ∧ ((o.state.registers j).toNat : ℤ) = v := by
  unfold registerCheck
  cases registerIndex i with
  | some j => simp [Outcome.read]
  | none => simp [not_read_never]

theorem Target.forall_iff {P : Target → Prop} : (∀ t, P t) ↔
    P .status ∧ (∀ i, P (.register i)) ∧ P .throwCode ∧ P .flagZf ∧ P .flagSt ∧ P .pc ∧
      P .callStackDepth ∧ P .scratchBytes ∧ P .maxDop := by
  constructor
  · exact fun h => ⟨h _, fun _ => h _, h _, h _, h _, h _, h _, h _, h _⟩
  · rintro ⟨h1, h2, h3, h4, h5, h6, h7, h8, h9⟩ t
    cases t with
    | register i => exact h2 i
    | _ => assumption

theorem Target.exists_iff {P : Target → Prop} : (∃ t, P t) ↔
    P .status ∨ (∃ i, P (.register i)) ∨ P .throwCode ∨ P .flagZf ∨ P .flagSt ∨ P .pc ∨
      P .callStackDepth ∨ P .scratchBytes ∨ P .maxDop := by
  rw [← not_iff_not, not_exists, Target.forall_iff]
  simp only [not_or, not_exists]

theorem check_eq_nil {α : Type} [DecidableEq α] {failure : α → α → Failure} {x got : α} :
    check failure x got = [] ↔ got = x := by
  unfold check
  split <;> simp_all

theorem checkSome_eq_nil {α : Type} [DecidableEq α] {failure : α → α → Failure} {x : Option α}
    {got : α} : checkSome failure x got = [] ↔ ∀ v, x = some v → got = v := by
  cases x with
  | none => simp [checkSome]
  | some x => simp [checkSome, check_eq_nil]

theorem registerAt_eq_ok {s : VmState} {i v : ℤ} :
    registerAt s i = .ok v ↔ ∃ j, registerIndex i = some j ∧ ((s.registers j).toNat : ℤ) = v := by
  unfold registerAt
  cases registerIndex i <;> simp

theorem registers_eq_ok {s : VmState} {l : List ((_ : ℤ) × ℤ)} :
    (∃ fs, l.mapM (fun r => do return check (.register r.1) r.2 (← registerAt s r.1)) =
        Except.ok fs ∧ fs.flatten = []) ↔
      ∀ r ∈ l, ∃ j, registerIndex r.1 = some j ∧ ((s.registers j).toNat : ℤ) = r.2 := by
  simp only [ExceptFold.mapM_eq_ok]
  induction l with
  | nil => simp
  | cons r l ih =>
    rw [List.forall_mem_cons, ← ih]
    constructor
    · rintro ⟨_, hfs, hnil⟩
      cases hfs with
      | @cons _ b _ fs hb hfs =>
        obtain ⟨hbn, hfn⟩ := List.append_eq_nil_iff.mp hnil
        simp only [ExceptFold.bind_eq_ok, pure, Except.pure, Except.ok.injEq] at hb
        obtain ⟨v, hv, rfl⟩ := hb
        obtain ⟨j, hj, rfl⟩ := registerAt_eq_ok.mp hv
        exact ⟨⟨j, hj, check_eq_nil.mp hbn⟩, fs, hfs, hfn⟩
    · rintro ⟨⟨j, hj, hv⟩, fs, hfs, hfn⟩
      refine ⟨[] :: fs, .cons ?_ hfs, hfn⟩
      rw [registerAt_eq_ok.mpr ⟨j, hj, rfl⟩]
      exact congrArg _ (check_eq_nil.mpr hv)

theorem registers_pass {s : VmState} {m : AList fun _ : ℤ => ℤ} :
    (∀ k v, m.lookup k = some v → ∃ j, registerIndex k = some j ∧
        ((s.registers j).toNat : ℤ) = v) ↔
      ∃ fs, m.entries.mapM (fun r => do return check (.register r.1) r.2 (← registerAt s r.1)) =
        Except.ok fs ∧ fs.flatten = [] := by
  rw [registers_eq_ok]
  constructor
  · exact fun h r hr => h r.1 r.2 (AList.mem_lookup_iff.mpr hr)
  · exact fun h k v hkv => h ⟨k, v⟩ (AList.mem_lookup_iff.mp hkv)

theorem verify_eq_ok_nil {e : Expectations} {o : Outcome} :
    verify e o = .ok [] ↔ Passes (checks suiteCheck e.get) o := by
  rw [passes_checks, Target.forall_iff]
  simp only [Expectations.get, suiteCheck, Option.map_eq_some_iff, Option.some.injEq,
    forall_exists_index, and_imp, forall_eq', forall_apply_eq_imp_iff₂, read_registerCheck,
    registers_pass]
  simp only [verify, ExceptFold.bind_eq_ok, pure, Except.pure, Except.ok.injEq,
    List.append_eq_nil_iff, check_eq_nil, checkSome_eq_nil, Outcome.read, Value.num.injEq,
    Value.text.injEq, Value.bit.injEq, reduceCtorEq, false_implies, implies_true, and_true]
  constructor
  · rintro ⟨fs, hfs, ⟨⟨⟨⟨⟨hs, hn⟩, ht⟩, hz⟩, hst⟩, hp⟩, hd⟩
    exact ⟨hs, ⟨fs, hfs, hn⟩, ht, hz, hst, hp, hd⟩
  · rintro ⟨hs, ⟨fs, hfs, hn⟩, ht, hz, hst, hp, hd⟩
    exact ⟨fs, hfs, ⟨⟨⟨⟨⟨hs, hn⟩, ht⟩, hz⟩, hst⟩, hp⟩, hd⟩

theorem compareCheck_status {t : Text} {hash : Text} {o : Outcome} :
    (if t ≠ [] then unexpected .expectedStatus (fun _ => (runCpp hash o).status) (statusOf t)
      else []) = [] ↔
      ∀ c, compareCheck .status (.text t) = some c → o.read c.1 = c.2 := by
  by_cases ht : t = []
  · simp [ht, compareCheck]
  · rw [if_pos ht, unexpected_eq_nil]
    simp only [compareCheck, if_neg ht, Option.some.injEq, forall_eq', Outcome.read,
      Value.text.injEq]
    exact ⟨fun h => h .java, fun h _ => h⟩

theorem compareCheck_register {k v : ℤ} {hash : Text} {o : Outcome} :
    unexpected (.expectedRegister (regName k))
        (fun _ => getD (runCpp hash o).registers (regName k) 0) v = [] ↔
      ∀ c, compareCheck (.register k) (.num v) = some c → o.read c.1 = c.2 := by
  have hconst {x : ℤ} : (∀ _ : Engine, x = v) ↔ x = v := ⟨fun h => h .java, fun h _ => h⟩
  rw [unexpected_eq_nil, hconst, compareCheck]
  by_cases hk : 0 ≤ k ∧ k < 64
  · have hreg := getD_runCpp_register hash o ⟨k.toNat, by omega⟩
    rw [show (((⟨k.toNat, by omega⟩ : Fin 64) : ℕ) : ℤ) = k from Int.toNat_of_nonneg hk.1] at hreg
    rw [hreg, dif_pos hk]
    simp [Outcome.read]
  · rw [getD_runCpp_of_not_mem _ _ hk, dif_neg hk]
    by_cases hv : v = 0
    · simp [hv]
    · have hv' : Value.num v ≠ .num 0 := by simpa using hv
      rw [if_neg hv']
      refine iff_of_false (Ne.symm hv) fun h => ?_
      exact not_read_never o (h never rfl)

theorem compareState_self_eq_nil {e : Expectations} {hash : Text} {o : Outcome} :
    compareState (fun _ => runCpp hash o) (some e) = [] ↔
      Passes (checks compareCheck e.get) o := by
  have hnone : compareState (fun _ => runCpp hash o) none = [] :=
    compareState_none_eq_nil.mpr ⟨⟨fun _ _ => rfl, fun _ _ => rfl, fun _ _ => rfl,
      fun _ _ => rfl, fun _ _ => rfl⟩, fun _ _ _ _ _ => rfl⟩
  have hsplit : compareState (fun _ => runCpp hash o) (some e) =
      compareState (fun _ => runCpp hash o) none ++
        expectationDiffs (fun _ => runCpp hash o) e := by
    simp [compareState]
  rw [hsplit, hnone, List.nil_append, passes_checks, Target.forall_iff]
  simp only [Expectations.get, Option.map_eq_some_iff, Option.some.injEq, forall_exists_index,
    and_imp, forall_eq', forall_apply_eq_imp_iff₂, expectationDiffs, List.append_eq_nil_iff,
    List.flatMap_eq_nil_iff, compareCheck_status, compareCheck_register, unexpectedSome_eq_nil,
    getD_runCpp_zf, getD_runCpp_st]
  constructor
  · rintro ⟨⟨⟨⟨hs, hp⟩, hz⟩, hst⟩, hr⟩
    refine ⟨hs, fun k v h => hr ⟨k, v⟩ (AList.mem_lookup_iff.mp h), ?_, ?_, ?_, ?_, ?_, ?_, ?_⟩
    · rintro v - c ⟨⟩
    · rintro b hb c ⟨⟩
      exact congrArg Value.bit (hz b hb .java)
    · rintro b hb c ⟨⟩
      exact congrArg Value.bit (hst b hb .java)
    · rintro v hv c ⟨⟩
      exact congrArg Value.num (hp v hv .java)
    · rintro v - c ⟨⟩
    · rintro v - c ⟨⟩
    · rintro v - c ⟨⟩
  · rintro ⟨hs, hr, -, hz, hst, hp, -⟩
    refine ⟨⟨⟨⟨hs, ?_⟩, ?_⟩, ?_⟩, fun r h => hr r.1 r.2 (AList.mem_lookup_iff.mpr h)⟩
    · exact fun v hv _ => Value.num.inj (hp v hv _ rfl)
    · exact fun b hb _ => Value.bit.inj (hz b hb _ rfl)
    · exact fun b hb _ => Value.bit.inj (hst b hb _ rfl)

def Contradictory (C : Set Check) : Prop := ¬ Checks.Consistent Coord.range C

/-- The expectations of which both verifiers make the same checks. -/
structure SameChecks (e : Expectations) : Prop where
  status : e.status ≠ [] ∧ statusOf e.status = e.status
  throwCode : ∀ v, e.throwCode = some v → e.registers.lookup 0 = some v
  flagSt : e.flagSt = none
  callStackDepth : e.callStackDepth = none
  registers : ∀ k v, e.registers.lookup k = some v →
    (0 ≤ k ∧ k < 64) ∨ (-64 ≤ k ∧ k < 0) ∧ v = 0 ∧ e.registers.lookup (k + 64) = some 0

theorem never_not_mem {C : Set Check} (h : Checks.Consistent Coord.range C) : never ∉ C := by
  intro hc
  obtain ⟨c, hc⟩ := h.mem_range _ _ hc
  cases hc

theorem registerIndex_of_mem {k : ℤ} (h : 0 ≤ k ∧ k < 64) :
    registerIndex k = some ⟨k.toNat, by omega⟩ := dif_pos h

theorem registerIndex_natCast (i : Fin 64) : registerIndex (i.val : ℤ) = some i := by
  rw [registerIndex_of_mem ⟨Int.natCast_nonneg _, by omega⟩]
  rfl

section

variable {e : Expectations} {c : Check}

theorem mem_suiteChecks : c ∈ checks suiteCheck e.get ↔
    c = (.status, .text e.status) ∨
    (∃ k v, e.registers.lookup k = some v ∧ c = registerCheck k (.num v)) ∨
    (∃ v, e.throwCode = some v ∧ c = (.register 0, .num v)) ∨
    (∃ b, e.flagZf = some b ∧ c = (.flag 0, .bit b)) ∨
    (∃ b, e.flagSt = some b ∧ c = (.flag 1, .bit b)) ∨
    (∃ v, e.pc = some v ∧ c = (.pc, .num v)) ∨
    ∃ v, e.callStackDepth = some v ∧ c = (.callStackDepth, .num v) := by
  simp [checks, Target.exists_iff, Expectations.get, suiteCheck, eq_comm, -Bool.exists_bool]

theorem mem_compareChecks : c ∈ checks compareCheck e.get ↔
    (e.status ≠ [] ∧ c = (.status, .text (statusOf e.status))) ∨
    (∃ (i : Fin 64) (v : ℤ), e.registers.lookup (i.val : ℤ) = some v ∧
      c = (.register i, .num v)) ∨
    (∃ k v, e.registers.lookup k = some v ∧ ¬ (0 ≤ k ∧ k < 64) ∧ v ≠ 0 ∧ c = never) ∨
    (∃ b, e.flagZf = some b ∧ c = (.flag 0, .bit b)) ∨
    (∃ b, e.flagSt = some b ∧ c = (.flag 4, .bit b)) ∨
    ∃ v, e.pc = some v ∧ c = (.pc, .num v) := by
  constructor
  · rintro ⟨t, v, ht, hc⟩
    cases t with
    | status =>
      obtain rfl := Option.some.inj ht
      simp only [compareCheck] at hc
      split at hc
      · cases hc
      · rename_i hne
        exact .inl ⟨hne, (Option.some.inj hc).symm⟩
    | register k =>
      obtain ⟨v, hv, rfl⟩ := Option.map_eq_some_iff.mp ht
      simp only [compareCheck] at hc
      split at hc
      · rename_i hk
        refine .inr (.inl ⟨⟨k.toNat, by omega⟩, v, ?_, (Option.some.inj hc).symm⟩)
        rwa [show ((k.toNat : ℕ) : ℤ) = k from Int.toNat_of_nonneg hk.1]
      · split at hc
        · cases hc
        · rename_i hk hv0
          exact .inr (.inr (.inl ⟨k, v, hv, hk, fun h => hv0 (congrArg _ h),
            (Option.some.inj hc).symm⟩))
    | flagZf =>
      obtain ⟨b, hb, rfl⟩ := Option.map_eq_some_iff.mp ht
      exact .inr (.inr (.inr (.inl ⟨b, hb, (Option.some.inj hc).symm⟩)))
    | flagSt =>
      obtain ⟨b, hb, rfl⟩ := Option.map_eq_some_iff.mp ht
      exact .inr (.inr (.inr (.inr (.inl ⟨b, hb, (Option.some.inj hc).symm⟩))))
    | pc =>
      obtain ⟨v, hv, rfl⟩ := Option.map_eq_some_iff.mp ht
      exact .inr (.inr (.inr (.inr (.inr ⟨v, hv, (Option.some.inj hc).symm⟩))))
    | _ => cases hc
  · rintro (⟨hs, rfl⟩ | ⟨i, v, hv, rfl⟩ | ⟨k, v, hv, hk, hv0, rfl⟩ | ⟨b, hb, rfl⟩ |
      ⟨b, hb, rfl⟩ | ⟨v, hv, rfl⟩)
    · exact ⟨.status, _, rfl, if_neg hs⟩
    · refine ⟨.register i.val, .num v, congrArg (Option.map _) hv, ?_⟩
      exact dif_pos ⟨Int.natCast_nonneg _, by omega⟩
    · refine ⟨.register k, .num v, congrArg (Option.map _) hv, ?_⟩
      rw [compareCheck, dif_neg hk, if_neg fun h => hv0 (Value.num.inj h)]
    · exact ⟨.flagZf, .bit b, congrArg (Option.map _) hb, rfl⟩
    · exact ⟨.flagSt, .bit b, congrArg (Option.map _) hb, rfl⟩
    · exact ⟨.pc, .num v, congrArg (Option.map _) hv, rfl⟩

theorem status_mem_compareChecks {t : Text} :
    (.status, .text t) ∈ checks compareCheck e.get ↔ e.status ≠ [] ∧ t = statusOf e.status := by
  simp [mem_compareChecks, never]

theorem register_mem_compareChecks {i : Fin 64} {v : ℤ} :
    (.register i, .num v) ∈ checks compareCheck e.get ↔
      e.registers.lookup (i.val : ℤ) = some v := by
  simp [mem_compareChecks, never]

theorem flag_one_not_mem_compareChecks {b : Bool} :
    (.flag 1, .bit b) ∉ checks compareCheck e.get := by
  simp [mem_compareChecks, never]

theorem depth_not_mem_compareChecks {v : ℤ} :
    (.callStackDepth, .num v) ∉ checks compareCheck e.get := by
  simp [mem_compareChecks, never]

/-- Consistent checks are the same for both verifiers only for such expectations. -/
theorem SameChecks.of_eq (hS : Checks.Consistent Coord.range (checks suiteCheck e.get))
    (h : checks suiteCheck e.get = checks compareCheck e.get) : SameChecks e where
  status := by
    have hc : (.status, .text e.status) ∈ checks compareCheck e.get :=
      h ▸ mem_suiteChecks.mpr (.inl rfl)
    obtain ⟨hne, heq⟩ := status_mem_compareChecks.mp hc
    exact ⟨hne, heq.symm⟩
  throwCode v hv := by
    have hc : (.register 0, .num v) ∈ checks compareCheck e.get :=
      h ▸ mem_suiteChecks.mpr (.inr (.inr (.inl ⟨v, hv, rfl⟩)))
    exact register_mem_compareChecks.mp hc
  flagSt := by
    refine Option.eq_none_iff_forall_ne_some.mpr fun b hb => ?_
    refine flag_one_not_mem_compareChecks (e := e) (b := b) ?_
    exact h ▸ mem_suiteChecks.mpr (.inr (.inr (.inr (.inr (.inl ⟨b, hb, rfl⟩)))))
  callStackDepth := by
    refine Option.eq_none_iff_forall_ne_some.mpr fun v hv => ?_
    refine depth_not_mem_compareChecks (e := e) (v := v) ?_
    exact h ▸ mem_suiteChecks.mpr (.inr (.inr (.inr (.inr (.inr (.inr ⟨v, hv, rfl⟩))))))
  registers k v hk := by
    have hc : registerCheck k (.num v) ∈ checks suiteCheck e.get :=
      mem_suiteChecks.mpr (.inr (.inl ⟨k, v, hk, rfl⟩))
    by_cases hk0 : 0 ≤ k ∧ k < 64
    · exact .inl hk0
    · have hv0 : v = 0 := by
        by_contra hv0
        refine never_not_mem hS (h ▸ mem_compareChecks.mpr ?_)
        exact .inr (.inr (.inl ⟨k, v, hk, hk0, hv0, rfl⟩))
      subst hv0
      by_cases hneg : -64 ≤ k ∧ k < 0
      · rw [registerCheck, registerIndex, dif_neg hk0, dif_pos hneg, h] at hc
        have hl := register_mem_compareChecks.mp hc
        rw [show (((k + 64).toNat : ℕ) : ℤ) = k + 64 from Int.toNat_of_nonneg (by omega)] at hl
        exact .inr ⟨hneg, rfl, hl⟩
      · rw [registerCheck, registerIndex, dif_neg hk0, dif_neg hneg] at hc
        exact absurd hc (never_not_mem hS)

theorem SameChecks.eq (h : SameChecks e) :
    checks suiteCheck e.get = checks compareCheck e.get := by
  ext c
  rw [mem_suiteChecks, mem_compareChecks, h.status.2, h.flagSt, h.callStackDepth]
  constructor
  · rintro (rfl | ⟨k, v, hk, rfl⟩ | ⟨v, hv, rfl⟩ | ⟨b, hb, rfl⟩ | ⟨b, hb, -⟩ | ⟨v, hv, rfl⟩ |
      ⟨v, hv, -⟩)
    · exact .inl ⟨h.status.1, rfl⟩
    · refine .inr (.inl ?_)
      rcases h.registers k v hk with hk0 | ⟨hneg, rfl, hl⟩
      · refine ⟨⟨k.toNat, by omega⟩, v, ?_, ?_⟩
        · rwa [show ((k.toNat : ℕ) : ℤ) = k from Int.toNat_of_nonneg hk0.1]
        · rw [registerCheck, registerIndex_of_mem hk0]
      · refine ⟨⟨(k + 64).toNat, by omega⟩, 0, ?_, ?_⟩
        · rwa [show (((k + 64).toNat : ℕ) : ℤ) = k + 64 from Int.toNat_of_nonneg (by omega)]
        · rw [registerCheck, registerIndex, dif_neg (by omega), dif_pos hneg]
    · exact .inr (.inl ⟨0, v, h.throwCode v hv, rfl⟩)
    · exact .inr (.inr (.inr (.inl ⟨b, hb, rfl⟩)))
    · cases hb
    · exact .inr (.inr (.inr (.inr (.inr ⟨v, hv, rfl⟩))))
    · cases hv
  · rintro (⟨-, rfl⟩ | ⟨i, v, hv, rfl⟩ | ⟨k, v, hk, hk0, hv0, -⟩ | ⟨b, hb, rfl⟩ | ⟨b, hb, -⟩ |
      ⟨v, hv, rfl⟩)
    · exact .inl rfl
    · refine .inr (.inl ⟨i.val, v, hv, ?_⟩)
      rw [registerCheck, registerIndex_natCast]
    · rcases h.registers k v hk with hk' | ⟨-, hv', -⟩
      · exact absurd hk' hk0
      · exact absurd hv' hv0
    · exact .inr (.inr (.inr (.inl ⟨b, hb, rfl⟩)))
    · cases hb
    · exact .inr (.inr (.inr (.inr (.inr (.inl ⟨v, hv, rfl⟩)))))

end

/-- The two verifiers agree on every run exactly when they make the same checks of the
expectations, or no run satisfies either. -/
theorem verify_iff_compareState (e : Expectations) (hash : Text) :
    (∀ o, verify e o = .ok [] ↔ compareState (fun _ => runCpp hash o) (some e) = []) ↔
      SameChecks e ∨ Contradictory (checks suiteCheck e.get) ∧
        Contradictory (checks compareCheck e.get) := by
  simp only [verify_eq_ok_nil, compareState_self_eq_nil]
  rw [independent.forall_holds_iff_iff, or_comm]
  constructor
  · rintro (h | h)
    · by_cases hS : Checks.Consistent Coord.range (checks suiteCheck e.get)
      · exact .inl (.of_eq hS h)
      · exact .inr ⟨hS, h ▸ hS⟩
    · exact .inr h
  · rintro (h | h)
    · exact .inl h.eq
    · exact .inr h

def flagsOutcome (flags : BitVec 64) : Outcome where
  statusCode := 0
  state := ⟨0, flags, fun _ => 0, fun _ => 0, 0⟩
  scratchBytes := 0
  maxDop := 0

/-- A run that ends after an instruction with `ZF` set and the given word in `R1`. -/
def registerOutcome (v : BitVec 64) : Outcome where
  statusCode := 0
  state := ⟨1, 1, Function.update (fun _ => 0) 1 v, fun _ => 0, 0⟩
  scratchBytes := 0
  maxDop := 0

/-- Bit 4 alone is `ST` for the four-way comparison, and not for the suite. -/
theorem verify_disagrees_st : ∃ p,
    (Runtime.ascii.parseImpasFile constants
      (chars "OP_HALT ; \x7bEXPECT: FLAG = ST\x7d")).1 = .ok p ∧
    verify p.expectations (flagsOutcome 16) ≠ .ok [] ∧
    compareState (fun _ => runCpp [] (flagsOutcome 16)) (some p.expectations) = [] := by
  have h : ((Runtime.ascii.parseImpasFile constants
      (chars "OP_HALT ; \x7bEXPECT: FLAG = ST\x7d")).1.toOption.map fun p =>
        ((verify p.expectations (flagsOutcome 16)).toOption.map (·.isEmpty),
          (compareState (fun _ => runCpp [] (flagsOutcome 16)) (some p.expectations)).isEmpty)) =
      some (some false, true) := by decide +kernel
  obtain ⟨p, hp, hv⟩ := Option.map_eq_some_iff.mp h
  obtain ⟨hv, hc⟩ := Prod.mk.inj hv
  refine ⟨p, ExceptFold.toOption_eq_some.mp hp, fun hn => ?_, List.isEmpty_iff.mp hc⟩
  rw [hn] at hv
  exact absurd hv (by decide)

end ImpulseTools

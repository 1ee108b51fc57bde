import ImpulseTools.Asm.Expect
import ImpulseTools.Verify.State

/-! # The four-way comparison

`compare_state` of the differential harness, and what an empty list of differences says.
-/

namespace ImpulseTools

inductive Engine where
  | cppOn | cppOff | java | ocaml
  deriving DecidableEq

namespace Engine

def all : List Engine := [cppOn, cppOff, java, ocaml]

theorem mem_all (e : Engine) : e ∈ all := by cases e <;> decide

end Engine

/-- An entry of `diffs`, with the data its text shows. -/
inductive Diff where
  | status (v : Engine → Text)
  | pc (v : Engine → ℤ)
  | flag (name : Text) (v : Engine → Bool)
  | contextHash (v : Engine → Text)
  | register (reg : Text) (v : Engine → ℤ)
  | expectedStatus (engine : Engine) (got expected : Text)
  | expectedPc (engine : Engine) (got expected : ℤ)
  | expectedFlag (name : Text) (engine : Engine) (got expected : Bool)
  | expectedRegister (reg : Text) (engine : Engine) (got expected : ℤ)

/-- A difference if the four values are not the same, found by three comparisons. -/
def differ {α : Type} [DecidableEq α] (diff : (Engine → α) → Diff) (v : Engine → α) : List Diff :=
  if v .cppOn ≠ v .java ∨ v .cppOn ≠ v .ocaml ∨ v .cppOff ≠ v .java then [diff v] else []

/-- A difference for every engine whose value is not the expected one. -/
def unexpected {α : Type} [DecidableEq α] (diff : Engine → α → α → Diff) (v : Engine → α)
    (expected : α) : List Diff :=
  Engine.all.filterMap fun e => if v e ≠ expected then some (diff e (v e) expected) else none

def unexpectedSome {α : Type} [DecidableEq α] (diff : Engine → α → α → Diff) (v : Engine → α)
    (expected : Option α) : List Diff :=
  match expected with
  | some x => unexpected diff v x
  | none => []

def skipTag (s : EngineState) (reg : Text) : ℤ := getD (s.registerTypes.getD ∅) reg 0

def expectationDiffs (s : Engine → EngineState) (e : Expectations) : List Diff :=
  (if e.status ≠ [] then unexpected .expectedStatus (fun n => (s n).status) (statusOf e.status)
    else []) ++
  unexpectedSome .expectedPc (fun n => (s n).pc) e.pc ++
  unexpectedSome (.expectedFlag (chars "zf"))
    (fun n => getD (s n).flags (chars "zf") false) e.flagZf ++
  unexpectedSome (.expectedFlag (chars "st"))
    (fun n => getD (s n).flags (chars "st") false) e.flagSt ++
  e.registers.entries.flatMap fun r => unexpected (.expectedRegister (regName r.1))
    (fun n => getD (s n).registers (regName r.1) 0) r.2

/-- `compare_state(cpp_on_state, cpp_off_state, java_state, ocaml_state, expectations)` -/
def compareState (s : Engine → EngineState) (expectations : Option Expectations) : List Diff :=
  differ .status (fun n => (s n).status) ++
  differ .pc (fun n => (s n).pc) ++
  ([chars "zf", chars "st"].flatMap fun flag =>
    differ (.flag flag) fun n => getD (s n).flags flag false) ++
  differ .contextHash (fun n => (s n).contextHash.getD []) ++
  ((List.range 64).flatMap fun i : ℕ =>
    if 4 ≤ skipTag (s .cppOn) (regName i) then []
    else differ (.register (regName i)) fun n => getD (s n).registers (regName i) 0) ++
  (match expectations with
    | some e => expectationDiffs s e
    | none => [])

theorem differ_eq_nil {α : Type} [DecidableEq α] {diff : (Engine → α) → Diff} {v : Engine → α} :
    differ diff v = [] ↔ ∀ e e', v e = v e' := by
  unfold differ
  constructor
  · intro h
    split at h
    · cases h
    · rename_i hn
      obtain ⟨h1, hn⟩ := not_or.mp hn
      obtain ⟨h2, h3⟩ := not_or.mp hn
      rw [not_not] at h1 h2 h3
      have : ∀ e, v e = v .java := by
        intro e
        cases e with
        | cppOn => exact h1
        | cppOff => exact h3
        | java => rfl
        | ocaml => exact h2.symm.trans h1
      exact fun e e' => (this e).trans (this e').symm
  · intro h
    rw [if_neg]
    rintro (hn | hn | hn) <;> exact hn (h _ _)

theorem unexpected_eq_nil {α : Type} [DecidableEq α] {diff : Engine → α → α → Diff}
    {v : Engine → α} {x : α} : unexpected diff v x = [] ↔ ∀ e, v e = x := by
  simp only [unexpected, List.filterMap_eq_nil_iff, Engine.mem_all, true_implies]
  refine forall_congr' fun e => ?_
  by_cases h : v e = x <;> simp [h]

theorem unexpectedSome_eq_nil {α : Type} [DecidableEq α] {diff : Engine → α → α → Diff}
    {v : Engine → α} {x : Option α} :
    unexpectedSome diff v x = [] ↔ ∀ y, x = some y → ∀ e, v e = y := by
  cases x with
  | none => exact iff_of_true rfl fun _ h => nomatch h
  | some x => rw [unexpectedSome, unexpected_eq_nil]; simp

structure SameFields (s : Engine → EngineState) : Prop where
  status : ∀ e e', (s e).status = (s e').status
  pc : ∀ e e', (s e).pc = (s e').pc
  zf : ∀ e e', getD (s e).flags (chars "zf") false = getD (s e').flags (chars "zf") false
  st : ∀ e e', getD (s e).flags (chars "st") false = getD (s e').flags (chars "st") false
  contextHash : ∀ e e', (s e).contextHash.getD [] = (s e').contextHash.getD []

def registerValue (s : EngineState) (i : ℕ) : ℤ := getD s.registers (regName i) 0

theorem compareState_none_eq_nil {s : Engine → EngineState} :
    compareState s none = [] ↔ SameFields s ∧
      ∀ i : ℕ, i < 64 → skipTag (s .cppOn) (regName i) < 4 → ∀ e e',
        registerValue (s e) i = registerValue (s e') i := by
  have hregs : ((List.range 64).flatMap fun i : ℕ =>
      if 4 ≤ skipTag (s .cppOn) (regName i) then []
      else differ (.register (regName i)) fun n => getD (s n).registers (regName i) 0) = [] ↔
      ∀ i : ℕ, i < 64 → skipTag (s .cppOn) (regName i) < 4 →
        ∀ e e', registerValue (s e) i = registerValue (s e') i := by
    simp only [List.flatMap_eq_nil_iff, List.mem_range]
    refine forall₂_congr fun i hi => ?_
    by_cases h : 4 ≤ skipTag (s .cppOn) (regName i)
    · rw [if_pos h]
      exact iff_of_true rfl fun h' => absurd h' (not_lt.mpr h)
    · rw [if_neg h, differ_eq_nil]
      exact ⟨fun h _ => h, fun h' => h' (not_le.mp h)⟩
  simp only [compareState, List.append_eq_nil_iff, hregs, differ_eq_nil, List.flatMap_cons,
    List.flatMap_nil, List.append_nil]
  constructor
  · rintro ⟨⟨⟨⟨hs, hp⟩, hz, ht⟩, hh⟩, hr⟩
    exact ⟨⟨hs, hp, hz, ht, hh⟩, hr⟩
  · rintro ⟨h, hr⟩
    exact ⟨⟨⟨⟨h.status, h.pc⟩, h.zf, h.st⟩, h.contextHash⟩, hr⟩

/-- The type tags a state reports; a register left out has the tag of an empty one. -/
abbrev TypeTable := AList fun _ : Text => ℤ

def reportedTag (types : Option TypeTable) (i : ℕ) : Option ℤ :=
  types.map fun m => getD m (regName i) 0

/-- `TYPE_NULL`, `TYPE_INT64`, `TYPE_NODE_ID`, `TYPE_RELATION_ID`, `TYPE_BOOLEAN`, `TYPE_FLOAT`
and `TYPE_DOUBLE`. -/
def scalarTags : List ℤ := [0, 1, 2, 3, 7, 8, 9]

def TagsAgree (types : Engine → Option TypeTable) : Prop :=
  ∀ i : ℕ, i < 64 → ∀ e e' t t', reportedTag (types e) i = some t →
    reportedTag (types e') i = some t' → t = t'

/-- A state reports a scalar for the register, or no state reports anything. -/
def HoldsScalar (types : Engine → Option TypeTable) (i : ℕ) : Prop :=
  (∃ e t, reportedTag (types e) i = some t ∧ t ∈ scalarTags) ∨
    ∀ e, reportedTag (types e) i = none

structure Consensus (s : Engine → EngineState) : Prop extends SameFields s where
  tags : TagsAgree fun e => (s e).registerTypes
  values : ∀ i : ℕ, i < 64 → HoldsScalar (fun e => (s e).registerTypes) i → ∀ e e',
    registerValue (s e) i = registerValue (s e') i

def emptyState (types : Engine → Option TypeTable)
    (registers : Engine → AList fun _ : Text => ℤ) (e : Engine) : EngineState where
  status := []
  pc := 0
  flags := ∅
  contextHash := none
  registers := registers e
  registerTypes := types e

theorem sameFields_emptyState (types : Engine → Option TypeTable)
    (registers : Engine → AList fun _ : Text => ℤ) : SameFields (emptyState types registers) :=
  ⟨fun _ _ => rfl, fun _ _ => rfl, fun _ _ => rfl, fun _ _ => rfl, fun _ _ => rfl⟩

def loneRegister (reg : Text) : Engine → AList fun _ : Text => ℤ
  | .cppOff => (∅ : AList fun _ : Text => ℤ).insert reg 1
  | _ => ∅

theorem getD_loneRegister_ne {reg reg' : Text} (h : reg' ≠ reg) (e : Engine) :
    getD (loneRegister reg e) reg' 0 = 0 := by
  cases e with
  | cppOff => rw [getD, loneRegister, AList.lookup_insert_ne h]; rfl
  | _ => rfl

theorem getD_loneRegister (reg : Text) : getD (loneRegister reg .cppOff) reg 0 = 1 := by
  rw [getD, loneRegister, AList.lookup_insert]
  rfl

/-- The tag the loop looks at is one that is reported, if it is not that of an empty register. -/
theorem reportedTag_of_skipTag {s : EngineState} {i : ℕ} (h : skipTag s (regName i) ≠ 0) :
    reportedTag s.registerTypes i = some (skipTag s (regName i)) := by
  unfold skipTag reportedTag at *
  cases hs : s.registerTypes with
  | none => simp [hs, getD] at h
  | some m => rfl

/-- Whatever else the states hold, no difference means consensus exactly when the reported tags
agree and the loop skips no scalar. -/
theorem consensus_iff (types : Engine → Option TypeTable) :
    (∀ s : Engine → EngineState, (∀ e, (s e).registerTypes = types e) →
        compareState s none = [] → Consensus s) ↔
      TagsAgree types ∧
        ∀ i : ℕ, i < 64 → getD ((types .cppOn).getD ∅) (regName i) 0 ∉ [(7 : ℤ), 8, 9] := by
  constructor
  · intro h
    constructor
    · have hs := h (emptyState types fun _ => ∅) (fun _ => rfl) (compareState_none_eq_nil.mpr
        ⟨sameFields_emptyState _ _, fun _ _ _ _ _ => rfl⟩)
      exact hs.tags
    · intro i hi ht
      have ht : skipTag (emptyState types (loneRegister (regName i)) .cppOn) (regName i) ∈
          [(7 : ℤ), 8, 9] := ht
      have hc := h (emptyState types (loneRegister (regName i))) (fun _ => rfl)
        (compareState_none_eq_nil.mpr ⟨sameFields_emptyState _ _, fun j _ hlt e e' => ?_⟩)
      · have hscalar : HoldsScalar types i := by
          refine .inl ⟨.cppOn, _, reportedTag_of_skipTag (s := emptyState types
            (loneRegister (regName i)) .cppOn) (fun h0 => ?_), ?_⟩
          · rw [h0] at ht
            exact absurd ht (by decide)
          · exact List.mem_of_mem_drop (i := 4) ht
        have hv := hc.values i hi hscalar .java .cppOff
        have h01 : (0 : ℤ) = 1 := hv.trans (getD_loneRegister _)
        exact absurd h01 (by decide)
      · have hji : regName j ≠ regName i := by
          intro hji
          rw [hji] at hlt
          have : ∀ t ∈ [(7 : ℤ), 8, 9], ¬ t < 4 := by decide
          exact this _ ht hlt
        exact (getD_loneRegister_ne hji e).trans (getD_loneRegister_ne hji e').symm
  · rintro ⟨ha, hskip⟩ s hs hnil
    obtain ⟨hf, hv⟩ := compareState_none_eq_nil.mp hnil
    obtain rfl : (fun e => (s e).registerTypes) = types := funext hs
    refine ⟨hf, ha, fun i hi hscalar => hv i hi ?_⟩
    by_cases h0 : skipTag (s .cppOn) (regName i) = 0
    · rw [h0]
      decide
    · have hon := reportedTag_of_skipTag h0
      rcases hscalar with ⟨e, t, ht, hmem⟩ | hnone
      · rw [ha i hi e .cppOn t _ ht hon] at hmem
        have hlt : ∀ t ∈ scalarTags, t ∉ [(7 : ℤ), 8, 9] → t < 4 := by decide
        exact hlt _ hmem (hskip i hi)
      · exact absurd (hnone .cppOn) (by rw [hon]; exact Option.some_ne_none _)

/-- Two floats that differ, in a register of type `TYPE_FLOAT`. -/
theorem consensus_skips_float :
    ∃ s : Engine → EngineState, compareState s none = [] ∧
      (∀ e, reportedTag (s e).registerTypes 0 = some 8) ∧
      registerValue (s .java) 0 = 0 ∧ registerValue (s .cppOff) 0 = 1 ∧ ¬ Consensus s := by
  refine ⟨emptyState (fun _ => some ((∅ : TypeTable).insert (regName 0) 8))
    (loneRegister (regName 0)), ?_, ?_, rfl, rfl, fun h => ?_⟩
  · exact List.isEmpty_iff.mp (by decide +kernel)
  · exact fun e => rfl
  · have hv := h.values 0 (by decide) (.inl ⟨.java, 8, rfl, by decide⟩) .java .cppOff
    exact absurd (show (0 : ℤ) = 1 from hv) (by decide)

end ImpulseTools

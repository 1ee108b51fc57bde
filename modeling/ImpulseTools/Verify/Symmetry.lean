import ImpulseTools.Verify.Compare
import Mathlib.Logic.Equiv.Basic

/-! # The roles of the engines

Every check of the four-way comparison treats the four states alike, except that the tags of
C++ (ON) alone decide which registers are compared.
-/

namespace ImpulseTools

variable {s : Engine → EngineState} {σ : Equiv.Perm Engine}

structure Expected (s : Engine → EngineState) (x : Expectations) : Prop where
  status : x.status ≠ [] → ∀ e, (s e).status = statusOf x.status
  pc : ∀ y, x.pc = some y → ∀ e, (s e).pc = y
  zf : ∀ y, x.flagZf = some y → ∀ e, getD (s e).flags (chars "zf") false = y
  st : ∀ y, x.flagSt = some y → ∀ e, getD (s e).flags (chars "st") false = y
  registers : ∀ r ∈ x.registers.entries, ∀ e, getD (s e).registers (regName r.1) 0 = r.2

/-- The states agree outside the registers, and meet the expectations if there are any. -/
def Matching (s : Engine → EngineState) (expectations : Option Expectations) : Prop :=
  SameFields s ∧ ∀ x, expectations = some x → Expected s x

/-- The states agree in the registers that the tags of the engine do not skip. -/
def RegistersAgree (s : Engine → EngineState) (engine : Engine) : Prop :=
  ∀ i : ℕ, i < 64 → skipTag (s engine) (regName i) < 4 →
    ∀ e e', registerValue (s e) i = registerValue (s e') i

theorem expectationDiffs_eq_nil {x : Expectations} : expectationDiffs s x = [] ↔ Expected s x := by
  have hstatus : (if x.status ≠ [] then
      unexpected .expectedStatus (fun n => (s n).status) (statusOf x.status) else []) = [] ↔
      (x.status ≠ [] → ∀ e, (s e).status = statusOf x.status) := by
    by_cases h : x.status = []
    · rw [if_neg (not_not.mpr h)]
      exact iff_of_true rfl fun h' => absurd h h'
    · rw [if_pos h, unexpected_eq_nil]
      exact ⟨fun hs _ => hs, fun hs => hs h⟩
  simp only [expectationDiffs, List.append_eq_nil_iff, hstatus, unexpectedSome_eq_nil,
    List.flatMap_eq_nil_iff, unexpected_eq_nil]
  constructor
  · rintro ⟨⟨⟨⟨hs, hp⟩, hz⟩, ht⟩, hr⟩
    exact ⟨hs, hp, hz, ht, hr⟩
  · rintro ⟨hs, hp, hz, ht, hr⟩
    exact ⟨⟨⟨⟨hs, hp⟩, hz⟩, ht⟩, hr⟩

theorem compareState_eq_nil {expectations : Option Expectations} :
    compareState s expectations = [] ↔ Matching s expectations ∧ RegistersAgree s .cppOn := by
  cases expectations with
  | none =>
    rw [compareState_none_eq_nil]
    exact and_congr_left' ⟨fun h => ⟨h, fun _ hx => nomatch hx⟩, And.left⟩
  | some x =>
    have hsplit : compareState s (some x) = compareState s none ++ expectationDiffs s x := by
      simp only [compareState, List.append_nil]
    rw [hsplit, List.append_eq_nil_iff, compareState_none_eq_nil, expectationDiffs_eq_nil]
    constructor
    · rintro ⟨⟨hf, hr⟩, hx⟩
      exact ⟨⟨hf, fun _ h => Option.some.inj h ▸ hx⟩, hr⟩
    · rintro ⟨⟨hf, hx⟩, hr⟩
      exact ⟨⟨hf, hr⟩, hx x rfl⟩

theorem SameFields.comp (h : SameFields s) (f : Engine → Engine) : SameFields (s ∘ f) :=
  ⟨fun _ _ => h.status _ _, fun _ _ => h.pc _ _, fun _ _ => h.zf _ _, fun _ _ => h.st _ _,
    fun _ _ => h.contextHash _ _⟩

theorem Expected.comp {x : Expectations} (h : Expected s x) (f : Engine → Engine) :
    Expected (s ∘ f) x :=
  ⟨fun hne _ => h.status hne _, fun y hy _ => h.pc y hy _, fun y hy _ => h.zf y hy _,
    fun y hy _ => h.st y hy _, fun r hr _ => h.registers r hr _⟩

theorem Matching.comp {expectations : Option Expectations} (h : Matching s expectations)
    (f : Engine → Engine) : Matching (s ∘ f) expectations :=
  ⟨h.1.comp f, fun x hx => (h.2 x hx).comp f⟩

theorem matching_comp {expectations : Option Expectations} :
    Matching (s ∘ σ) expectations ↔ Matching s expectations := by
  constructor
  · intro h
    have hs := h.comp σ.symm
    rwa [Function.comp_assoc, Equiv.self_comp_symm, Function.comp_id] at hs
  · exact fun h => h.comp σ

/-- In the new roles the tags of another engine decide. -/
theorem registersAgree_comp : RegistersAgree (s ∘ σ) .cppOn ↔ RegistersAgree s (σ .cppOn) := by
  refine forall₂_congr fun i _ => forall_congr' fun _ => ?_
  constructor
  · intro h e e'
    have := h (σ.symm e) (σ.symm e')
    simpa only [Function.comp_apply, Equiv.apply_symm_apply] using this
  · exact fun h e e' => h (σ e) (σ e')

/-- A permutation of the states changes whether there are differences exactly if the states agree
outside the registers, and agree in those that one of two engines shows but not in those that the
other shows: the engine in the role of C++ (ON) before and the one after. -/
theorem compareState_comp_iff (s : Engine → EngineState) (σ : Equiv.Perm Engine)
    (expectations : Option Expectations) :
    (compareState (s ∘ σ) expectations = [] ↔ compareState s expectations = []) ↔
      (Matching s expectations → (RegistersAgree s (σ .cppOn) ↔ RegistersAgree s .cppOn)) := by
  rw [compareState_eq_nil, compareState_eq_nil, matching_comp, registersAgree_comp]
  by_cases h : Matching s expectations
  · simp only [h, true_and, true_imp_iff]
  · simp only [h, false_and, false_imp_iff]

/-- Only one of the engines tags R0 with a handle, and only another one has a value there. -/
theorem compareState_depends_on_role :
    ∃ (s : Engine → EngineState) (σ : Equiv.Perm Engine),
      compareState s none = [] ∧ compareState (s ∘ σ) none ≠ [] := by
  refine ⟨emptyState (fun e => if e = .cppOn then some ((∅ : TypeTable).insert (regName 0) 4)
    else none) (loneRegister (regName 0)), Equiv.swap .cppOn .java, ?_, ?_⟩
  · exact List.isEmpty_iff.mp (by decide +kernel)
  · exact fun h => absurd (List.isEmpty_iff.mpr h) (by decide +kernel)

end ImpulseTools

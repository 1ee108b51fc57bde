import Mathlib.Data.Set.Basic
import Mathlib.Logic.Function.Basic

/-! # Conjunctions of equality checks

A check compares one coordinate of a state with a value. When the coordinates of a state
vary independently, a set of checks passes on no state that another one fails exactly when
it is contradictory or contains the other.
-/

namespace Checks

variable {S ι V : Type*}

def Holds (read : ι → S → V) (C : Set (ι × V)) (s : S) : Prop := ∀ c ∈ C, read c.1 s = c.2

/-- Every check asks for a possible value, and no two for different values of a coordinate. -/
structure Consistent (range : ι → Set V) (C : Set (ι × V)) : Prop where
  mem_range : ∀ i v, (i, v) ∈ C → v ∈ range i
  unique : ∀ i v v', (i, v) ∈ C → (i, v') ∈ C → v = v'

/-- The coordinates take any combination of their values, and have two values each. -/
structure Independent (read : ι → S → V) (range : ι → Set V) : Prop where
  read_mem : ∀ i s, read i s ∈ range i
  exists_state : ∀ f : ι → V, (∀ i, f i ∈ range i) → ∃ s, ∀ i, read i s = f i
  exists_ne : ∀ i v, ∃ v' ∈ range i, v' ≠ v

variable {read : ι → S → V} {range : ι → Set V} {C D : Set (ι × V)}

theorem Consistent.of_holds (hr : ∀ i s, read i s ∈ range i) {s : S} (h : Holds read C s) :
    Consistent range C where
  mem_range i v hv := by
    obtain rfl : read i s = v := h (i, v) hv
    exact hr i s
  unique i v v' hv hv' := (h (i, v) hv).symm.trans (h (i, v') hv')

theorem Consistent.mono (hD : Consistent range D) (h : C ⊆ D) : Consistent range C where
  mem_range i v hv := hD.mem_range i v (h hv)
  unique i v v' hv hv' := hD.unique i v v' (h hv) (h hv')

theorem Independent.exists_holds (hI : Independent read range) (hC : Consistent range C)
    (i : ι) {v : V} (hv : v ∈ range i) (hi : ∀ w, (i, w) ∈ C → v = w) :
    ∃ s, Holds read C s ∧ read i s = v := by
  classical
  have hf : ∀ j, ∃ w ∈ range j, (∀ u, (j, u) ∈ C → w = u) ∧ (j = i → w = v) := by
    intro j
    by_cases hj : j = i
    · subst hj
      exact ⟨v, hv, hi, fun _ => rfl⟩
    · by_cases hw : ∃ w, (j, w) ∈ C
      · obtain ⟨w, hw⟩ := hw
        exact ⟨w, hC.mem_range j w hw, fun u hu => hC.unique j w u hw hu, fun h => absurd h hj⟩
      · obtain ⟨w, hwr, -⟩ := hI.exists_ne j v
        exact ⟨w, hwr, fun u hu => absurd ⟨u, hu⟩ hw, fun h => absurd h hj⟩
  choose f hmem hcheck hval using hf
  obtain ⟨s, hs⟩ := hI.exists_state f hmem
  refine ⟨s, ?_, (hs i).trans (hval i rfl)⟩
  rintro ⟨j, u⟩ hc
  exact (hs j).trans (hcheck j u hc)

theorem Independent.exists_holds_iff (hI : Independent read range) [Nonempty S] :
    (∃ s, Holds read C s) ↔ Consistent range C := by
  constructor
  · rintro ⟨s, hs⟩
    exact .of_holds hI.read_mem hs
  · intro hC
    rcases C.eq_empty_or_nonempty with rfl | ⟨⟨i, v⟩, hv⟩
    · exact ⟨Classical.arbitrary S, fun c hc => absurd hc (Set.notMem_empty c)⟩
    · obtain ⟨s, hs, -⟩ := hI.exists_holds hC i (hC.mem_range i v hv) (hC.unique i v · hv)
      exact ⟨s, hs⟩

theorem Independent.forall_holds_imp_iff (hI : Independent read range) :
    (∀ s, Holds read C s → Holds read D s) ↔ ¬ Consistent range C ∨ D ⊆ C := by
  constructor
  · intro h
    by_contra hn
    obtain ⟨hC, hD⟩ := not_or.mp hn
    rw [not_not] at hC
    obtain ⟨⟨i, v⟩, hv, hvC⟩ := Set.not_subset.mp hD
    by_cases hw : ∃ w, (i, w) ∈ C
    · obtain ⟨w, hw⟩ := hw
      obtain ⟨s, hs, hr⟩ := hI.exists_holds hC i (hC.mem_range i w hw) (hC.unique i w · hw)
      have : v = w := (h s hs (i, v) hv).symm.trans hr
      exact hvC (this ▸ hw)
    · obtain ⟨w, hwr, hne⟩ := hI.exists_ne i v
      obtain ⟨s, hs, hr⟩ := hI.exists_holds hC i hwr fun u hu => absurd ⟨u, hu⟩ hw
      exact hne (hr.symm.trans (h s hs (i, v) hv))
  · rintro (hC | hD) s hs
    · exact absurd (.of_holds hI.read_mem hs) hC
    · exact fun c hc => hs c (hD hc)

/-- Two sets of checks pass on the same states when both are contradictory or they are equal. -/
theorem Independent.forall_holds_iff_iff (hI : Independent read range) :
    (∀ s, Holds read C s ↔ Holds read D s) ↔
      (¬ Consistent range C ∧ ¬ Consistent range D) ∨ C = D := by
  have h := hI.forall_holds_imp_iff (C := C) (D := D)
  have h' := hI.forall_holds_imp_iff (C := D) (D := C)
  have hsplit : (∀ s, Holds read C s ↔ Holds read D s) ↔
      (∀ s, Holds read C s → Holds read D s) ∧ ∀ s, Holds read D s → Holds read C s :=
    ⟨fun h => ⟨fun s => (h s).mp, fun s => (h s).mpr⟩, fun h s => ⟨h.1 s, h.2 s⟩⟩
  rw [hsplit, h, h']
  constructor
  · rintro ⟨hC | hD, hD' | hC'⟩
    · exact .inl ⟨hC, hD'⟩
    · exact .inl ⟨hC, fun hD => hC (hD.mono hC')⟩
    · exact .inl ⟨fun hC => hD' (hC.mono hD), hD'⟩
    · exact .inr (hC'.antisymm hD)
  · rintro (⟨hC, hD⟩ | rfl)
    · exact ⟨.inl hC, .inl hD⟩
    · exact ⟨.inr subset_rfl, .inr subset_rfl⟩

end Checks

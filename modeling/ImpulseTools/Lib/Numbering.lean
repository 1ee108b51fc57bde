import Mathlib.Data.Finset.Card
import Mathlib.Data.Finset.Lattice.Basic

/-! # Numbers from the size of a table

Names that are numbered by how many are known already. The numbers grow with the table, which a
name it has already does not make larger.
-/

namespace Numbering

variable {α : Type*}

def Distinct (l : List (α × ℕ)) : Prop := ∀ p ∈ l, ∀ q ∈ l, p.1 ≠ q.1 → p.2 ≠ q.2

theorem distinct_cons {p : α × ℕ} {l : List (α × ℕ)} :
    Distinct (p :: l) ↔ Distinct l ∧ ∀ q ∈ l, p.1 ≠ q.1 → p.2 ≠ q.2 := by
  constructor
  · intro h
    exact ⟨fun q hq r hr => h q (List.mem_cons_of_mem _ hq) r (List.mem_cons_of_mem _ hr),
      fun q hq => h p List.mem_cons_self q (List.mem_cons_of_mem _ hq)⟩
  · rintro ⟨hl, hp⟩ q hq r hr hne
    rcases List.mem_cons.mp hq with hq | hq <;> rcases List.mem_cons.mp hr with hr | hr
    · exact absurd (congrArg Prod.fst (hq.trans hr.symm)) hne
    · exact hq ▸ hp r hr (hq ▸ hne)
    · exact (hr ▸ hp q hq (hr ▸ hne.symm)).symm
    · exact hl q hq r hr hne

variable [DecidableEq α]

/-- Each name of a list with the number of names known before it. -/
def number : Finset α → List α → List (α × ℕ)
  | _, [] => []
  | known, a :: l => (a, known.card) :: number (insert a known) l

/-- A name is new if another name follows it. -/
def NewBeforeOther (known : Finset α) (l : List α) : Prop :=
  ∀ pre a b post, l = pre ++ a :: b :: post → a = b ∨ a ∉ known ∧ a ∉ pre

variable {known : Finset α} {a : α} {l : List α}

theorem card_le_number {p : α × ℕ} (h : p ∈ number known l) : known.card ≤ p.2 := by
  induction l generalizing known with
  | nil => cases h
  | cons a l ih =>
    rcases List.mem_cons.mp h with rfl | h
    · exact le_rfl
    · exact (Finset.card_le_card (Finset.subset_insert a known)).trans (ih h)

theorem mem_number_iff {n : ℕ} (hl : l ≠ []) :
    n ∈ (number known l).map Prod.snd ↔
      known.card ≤ n ∧ n ≤ (known ∪ l.dropLast.toFinset).card := by
  induction l generalizing known with
  | nil => exact absurd rfl hl
  | cons a l ih =>
    rw [number, List.map_cons, List.mem_cons]
    cases l with
    | nil => simp [number]; omega
    | cons b l =>
      have hunion : insert a known ∪ (b :: l).dropLast.toFinset =
          known ∪ (a :: b :: l).dropLast.toFinset := by
        ext x
        simp [List.dropLast]
      have hsub : insert a known ⊆ known ∪ (a :: b :: l).dropLast.toFinset := by
        rw [← hunion]
        exact Finset.subset_union_left
      have hle := Finset.card_le_card hsub
      have hstep := Finset.card_insert_le a known
      have hmono := Finset.card_le_card (Finset.subset_insert a known)
      rw [ih (List.cons_ne_nil _ _), hunion]
      dsimp only
      omega

theorem newBeforeOther_cons :
    NewBeforeOther known (a :: l) ↔
      (∀ b ∈ l.head?, a = b ∨ a ∉ known) ∧ NewBeforeOther (insert a known) l := by
  constructor
  · intro h
    refine ⟨fun b hb => ?_, fun pre c b post hl => ?_⟩
    · obtain ⟨l, rfl⟩ := List.head?_eq_some_iff.mp hb
      exact (h [] a b l rfl).imp_right And.left
    · have := h (a :: pre) c b post (by rw [hl, List.cons_append])
      simp only [List.mem_cons, Finset.mem_insert] at *
      tauto
  · rintro ⟨hhead, h⟩ pre c b post hl
    cases pre with
    | nil =>
      cases hl
      exact (hhead b rfl).imp_right fun hc => ⟨hc, List.not_mem_nil⟩
    | cons x pre =>
      obtain ⟨rfl, hl'⟩ := List.cons.inj hl
      have := h pre c b post hl'
      simp only [List.mem_cons, Finset.mem_insert] at *
      tauto

/-- Different names get different numbers exactly if each is new that another one follows. -/
theorem distinct_number_iff : Distinct (number known l) ↔ NewBeforeOther known l := by
  induction l generalizing known with
  | nil => simp [number, Distinct, NewBeforeOther]
  | cons a l ih =>
    rw [number, distinct_cons, newBeforeOther_cons, ih, and_comm]
    refine and_congr_left fun hnew => ?_
    by_cases ha : a ∈ known
    · -- the table does not grow, so that the next name has the same number
      rw [Finset.insert_eq_of_mem ha] at hnew ⊢
      cases l with
      | nil => simp [number]
      | cons b l =>
        constructor
        · intro h c hc
          obtain rfl := Option.some.inj hc
          left
          by_contra hne
          exact h (b, known.card) List.mem_cons_self hne rfl
        · intro h
          obtain rfl := (h b rfl).resolve_right (not_not.mpr ha)
          intro q hq hne
          exact ih.mpr hnew _ List.mem_cons_self q hq hne
    · refine iff_of_true (fun q hq _ => ?_) fun b _ => .inr ha
      have := card_le_number hq
      rw [Finset.card_insert_of_notMem ha] at this
      simp only
      omega

end Numbering

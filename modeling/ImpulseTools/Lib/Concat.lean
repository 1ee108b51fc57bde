import Mathlib.Algebra.BigOperators.Group.List.Lemmas
import Mathlib.Algebra.BigOperators.Ring.List
import Mathlib.Algebra.Order.BigOperators.Group.List
import Mathlib.Algebra.Order.Ring.Nat

/-! # Concatenated blocks

Where the blocks of a concatenation start, and the table of these offsets from which the
blocks are cut out again.
-/

namespace Concat

variable {α : Type*}

/-- Where block `k` starts, or the end of the last block. -/
def offset (l : List (List α)) (k : ℕ) : ℕ := ((l.map List.length).take k).sum

def offsets (l : List (List α)) : List ℕ := (List.range (l.length + 1)).map (offset l)

theorem offset_length (l : List (List α)) : offset l l.length = l.flatten.length := by
  rw [offset, List.take_of_length_le (by simp), List.length_flatten]

theorem offset_append {l : List (List α)} {k : ℕ} (h : k ≤ l.length) (l' : List (List α)) :
    offset (l ++ l') k = offset l k := by
  rw [offset, List.map_append, List.take_append_of_le_length (by simpa using h)]
  rfl

theorem offset_mono (l : List (List α)) : Monotone (offset l) :=
  fun _ _ h => (List.take_sublist_take_left h).sum_le_sum fun _ _ => Nat.zero_le _

theorem dvd_offset {l : List (List α)} {d : ℕ} (h : ∀ b ∈ l, d ∣ b.length) (k : ℕ) :
    d ∣ offset l k := by
  refine List.dvd_sum fun n hn => ?_
  obtain ⟨b, hb, rfl⟩ := List.mem_map.mp (List.mem_of_mem_take hn)
  exact h b hb

@[simp] theorem length_offsets (l : List (List α)) : (offsets l).length = l.length + 1 := by
  simp [offsets]

theorem getElem?_offsets {l : List (List α)} {k : ℕ} (h : k ≤ l.length) :
    (offsets l)[k]? = some (offset l k) := by
  rw [offsets, List.getElem?_map, List.getElem?_range (by omega), Option.map_some]

theorem pairwise_offsets (l : List (List α)) : (offsets l).Pairwise (· ≤ ·) :=
  List.pairwise_map.mpr (List.pairwise_le_range.imp fun h => offset_mono l h)

theorem length_flatten_mem_offsets (l : List (List α)) : l.flatten.length ∈ offsets l :=
  List.mem_map.mpr ⟨l.length, List.mem_range.mpr (Nat.lt_succ_self _), offset_length l⟩

theorem offsets_map {β : Type*} (f : α → β) (l : List (List α)) :
    offsets (l.map (List.map f)) = offsets l := by
  have hl : (l.map (List.map f)).map List.length = l.map List.length := by simp
  have ho : offset (l.map (List.map f)) = offset l := funext fun k => by rw [offset, offset, hl]
  rw [offsets, offsets, ho, List.length_map]

theorem le_of_mem_offsets {l : List (List α)} {n : ℕ} (h : n ∈ offsets l) :
    n ≤ l.flatten.length := by
  obtain ⟨k, hk, rfl⟩ := List.mem_map.mp h
  rw [← offset_length]
  exact offset_mono l (Nat.le_of_lt_succ (List.mem_range.mp hk))

theorem offsets_append_singleton (l : List (List α)) (b : List α) :
    offsets (l ++ [b]) = offsets l ++ [l.flatten.length + b.length] := by
  have hl : (l ++ [b]).length + 1 = l.length + 1 + 1 := by simp
  rw [offsets, hl, List.range_succ, List.map_append, offsets]
  congr 1
  · refine List.map_congr_left fun k hk => offset_append ?_ _
    exact Nat.le_of_lt_succ (List.mem_range.mp hk)
  · have hlen : l.length + 1 = (l ++ [b]).length := by simp
    rw [List.map_singleton, hlen, offset_length, List.flatten_append, List.length_append,
      List.flatten_singleton]

theorem flatten_around {l : List (List α)} {k : ℕ} {b : List α} (h : l[k]? = some b) :
    ∃ pre post, l.flatten = pre ++ b ++ post ∧ pre.length = offset l k := by
  obtain ⟨hk, rfl⟩ := List.getElem?_eq_some_iff.mp h
  refine ⟨(l.take k).flatten, (l.drop (k + 1)).flatten, ?_, ?_⟩
  · have hl : l = l.take k ++ l[k] :: l.drop (k + 1) := by
      rw [← List.drop_eq_getElem_cons hk, List.take_append_drop]
    conv_lhs => rw [hl]
    rw [List.flatten_append, List.flatten_cons, List.append_assoc]
  · rw [List.length_flatten, offset, List.map_take]

theorem slice_flatten {l : List (List α)} {k : ℕ} (h : k < l.length) :
    (l.flatten.take (offset l (k + 1))).drop (offset l k) = l[k] :=
  List.drop_take_succ_flatten_eq_getElem l k h

theorem getElem?_concat_eq_some {l : List α} {a b : α} {k : ℕ} :
    (l ++ [a])[k]? = some b ↔ l[k]? = some b ∨ k = l.length ∧ b = a := by
  rcases Nat.lt_trichotomy k l.length with hk | rfl | hk
  · rw [List.getElem?_append_left hk]
    simp [hk.ne]
  · simp [eq_comm]
  · have hlen : (l ++ [a]).length ≤ k := by simpa using Nat.succ_le_of_lt hk
    simp [List.getElem?_eq_none hlen, List.getElem?_eq_none hk.le, hk.ne']

end Concat

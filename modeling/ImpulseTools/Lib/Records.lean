import ImpulseTools.Lib.Layout
import Mathlib.Order.Nat

/-! # Records of one width

A list of values as one buffer, each value in the same number of bytes.
-/

namespace Layout

universe u

/-- Values that are the byte strings of one length. -/
structure Codec (α : Type u) where
  width : ℕ
  width_pos : 0 < width
  encode : α → List (BitVec 8)
  decode : List (BitVec 8) → α
  length_encode : ∀ a, (encode a).length = width
  decode_encode : ∀ a, decode (encode a) = a
  encode_decode : ∀ bs, bs.length = width → encode (decode bs) = bs

namespace Codec

variable {α : Type u} (c : Codec α)

def encodeAll (l : List α) : List (BitVec 8) := l.flatMap c.encode

def readAt (bs : List (BitVec 8)) (off : ℕ) : Option α :=
  if off + c.width ≤ bs.length then some (c.decode (slice bs off c.width)) else none

/-- All records of a buffer, which must not end inside one. -/
def decodeAll (bs : List (BitVec 8)) : Option (List α) :=
  if c.width ∣ bs.length then
    some ((List.range (bs.length / c.width)).map fun i => c.decode (slice bs (c.width * i) c.width))
  else none

theorem length_encodeAll (l : List α) : (c.encodeAll l).length = c.width * l.length := by
  induction l with
  | nil => rfl
  | cons a l ih =>
    rw [encodeAll, List.flatMap_cons, List.length_append, c.length_encode, ← encodeAll, ih,
      List.length_cons, Nat.mul_succ, Nat.add_comm]

theorem encodeAll_append (l m : List α) :
    c.encodeAll (l ++ m) = c.encodeAll l ++ c.encodeAll m :=
  List.flatMap_append

theorem slice_encodeAll {l : List α} {i : ℕ} {a : α} (h : l[i]? = some a) :
    slice (c.encodeAll l) (c.width * i) c.width = c.encode a := by
  obtain ⟨hi, rfl⟩ := List.getElem?_eq_some_iff.mp h
  have hl : l = l.take i ++ ([l[i]] ++ l.drop (i + 1)) := by
    rw [List.singleton_append, ← List.drop_eq_getElem_cons hi, List.take_append_drop]
  have hpre : (c.encodeAll (l.take i)).length = c.width * i := by
    rw [length_encodeAll, List.length_take, Nat.min_eq_left hi.le]
  have hone : c.encodeAll [l[i]] = c.encode l[i] := List.flatMap_singleton ..
  conv_lhs => rw [hl]
  rw [encodeAll_append, encodeAll_append, hone, ← hpre, ← c.length_encode l[i]]
  exact slice_append _ _ _

theorem readAt_encodeAll (l : List α) (i : ℕ) :
    c.readAt (c.encodeAll l) (c.width * i) = l[i]? := by
  have hlen := c.length_encodeAll l
  rw [readAt]
  rcases Nat.lt_or_ge i l.length with hi | hi
  · have hle : c.width * i + c.width ≤ (c.encodeAll l).length := by
      rw [hlen, ← Nat.mul_succ]
      exact Nat.mul_le_mul_left _ hi
    have hget := List.getElem?_eq_getElem hi
    rw [if_pos hle, c.slice_encodeAll hget, c.decode_encode, hget]
  · have hgt : ¬ c.width * i + c.width ≤ (c.encodeAll l).length := by
      rw [hlen, ← Nat.mul_succ, not_le]
      exact Nat.mul_lt_mul_of_pos_left (Nat.lt_succ_of_le hi) c.width_pos
    rw [if_neg hgt, List.getElem?_eq_none hi]

theorem encodeAll_slices {bs : List (BitVec 8)} {n : ℕ} (h : c.width * n ≤ bs.length) :
    c.encodeAll ((List.range n).map fun i => c.decode (slice bs (c.width * i) c.width)) =
      slice bs 0 (c.width * n) := by
  induction n with
  | zero => rfl
  | succ n ih =>
    rw [Nat.mul_succ] at h
    have hrecord : c.encode (c.decode (slice bs (c.width * n) c.width)) =
        slice bs (c.width * n) c.width := c.encode_decode _ (slice_length h)
    have hone (a : α) : c.encodeAll [a] = c.encode a := List.flatMap_singleton ..
    rw [List.range_succ, List.map_append, List.map_singleton, encodeAll_append, hone,
      ih ((Nat.le_add_right _ _).trans h), hrecord, Nat.mul_succ, slice_add, Nat.zero_add]

/-- A buffer holds the records it is the encoding of, and no others. -/
theorem decodeAll_eq_some {bs : List (BitVec 8)} {l : List α} :
    c.decodeAll bs = some l ↔ bs = c.encodeAll l := by
  constructor
  · intro h
    unfold decodeAll at h
    split at h
    case isTrue hdvd =>
      obtain rfl := Option.some.inj h
      have hmul : c.width * (bs.length / c.width) = bs.length := Nat.mul_div_cancel' hdvd
      rw [c.encodeAll_slices hmul.le, hmul, slice_self]
    case isFalse => cases h
  · rintro rfl
    have hlen := c.length_encodeAll l
    have hdvd : c.width ∣ (c.encodeAll l).length := hlen ▸ Nat.dvd_mul_right _ _
    rw [decodeAll, if_pos hdvd, hlen, Nat.mul_div_cancel_left _ c.width_pos]
    congr 1
    apply List.ext_getElem?
    intro i
    rcases Nat.lt_or_ge i l.length with hi | hi
    · have hget := List.getElem?_eq_getElem hi
      rw [List.getElem?_map, List.getElem?_range hi, Option.map_some, c.slice_encodeAll hget,
        c.decode_encode, hget]
    · rw [List.getElem?_eq_none (by simpa using hi), List.getElem?_eq_none hi]

theorem decodeAll_encodeAll (l : List α) : c.decodeAll (c.encodeAll l) = some l :=
  c.decodeAll_eq_some.mpr rfl

/-- The buffers of whole records are those whose length is a multiple of the width. -/
theorem isSome_decodeAll {bs : List (BitVec 8)} :
    (c.decodeAll bs).isSome ↔ c.width ∣ bs.length := by
  unfold decodeAll
  split_ifs with h
  · exact iff_of_true rfl h
  · exact iff_of_false Bool.false_ne_true h

end Codec

end Layout

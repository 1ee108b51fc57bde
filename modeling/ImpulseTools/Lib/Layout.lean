import Mathlib.Algebra.BigOperators.Group.List.Basic
import Mathlib.Algebra.GroupWithZero.Nat
import Mathlib.Data.List.Forall2

/-! # Byte buffers and packed records

Writing over a part of a buffer, little-endian numbers, padding to a multiple, and fields that
follow one another without gaps.
-/

namespace Layout

universe u v

variable {α : Type u} {ν : Type v}

def slice (buf : List α) (off len : ℕ) : List α := (buf.drop off).take len

/-- The buffer with `bs` in place of what was at `off`. -/
def overwrite (buf : List α) (off : ℕ) (bs : List α) : List α :=
  buf.take off ++ (bs ++ buf.drop (off + bs.length))

theorem slice_append (pre bs post : List α) :
    slice (pre ++ (bs ++ post)) pre.length bs.length = bs := by
  rw [slice, List.drop_left, List.take_left]

theorem slice_length {buf : List α} {off len : ℕ} (h : off + len ≤ buf.length) :
    (slice buf off len).length = len := by
  rw [slice, List.length_take, List.length_drop]
  omega

theorem slice_add (buf : List α) (off m n : ℕ) :
    slice buf off (m + n) = slice buf off m ++ slice buf (off + m) n := by
  rw [slice, slice, slice, List.take_add, List.drop_drop]

theorem slice_self (buf : List α) : slice buf 0 buf.length = buf := by
  rw [slice, List.drop_zero, List.take_length]

/-- The buffer holds the parts from `off` on, and ends behind them. -/
def Parts (buf : List α) (off : ℕ) : List (List α) → Prop
  | [] => buf.length = off
  | p :: ps => slice buf off p.length = p ∧ Parts buf (off + p.length) ps

theorem parts_iff {buf : List α} {off : ℕ} {ps : List (List α)} (h : off ≤ buf.length) :
    Parts buf off ps ↔ ps.flatten = buf.drop off := by
  induction ps generalizing off with
  | nil =>
    rw [Parts, List.flatten_nil, eq_comm (a := []), List.drop_eq_nil_iff]
    omega
  | cons p ps ih =>
    have hdrop : buf.drop (off + p.length) = (buf.drop off).drop p.length := by
      rw [List.drop_drop]
    rw [Parts, List.flatten_cons]
    constructor
    · rintro ⟨hp, hps⟩
      have hle : p.length ≤ buf.length - off := by
        have := congrArg List.length hp
        rw [slice, List.length_take, List.length_drop] at this
        omega
      rw [(ih (by omega)).mp hps, hdrop]
      nth_rewrite 1 [← hp]
      exact List.take_append_drop _ _
    · intro heq
      have hle : off + p.length ≤ buf.length := by
        have := congrArg List.length heq
        rw [List.length_append, List.length_drop] at this
        omega
      refine ⟨?_, (ih hle).mpr ?_⟩
      · rw [slice, ← heq, List.take_left]
      · rw [hdrop, ← heq, List.drop_left]

/-- A write right behind what was written before. -/
theorem overwrite_replicate (pre bs : List α) (z : α) (n : ℕ) :
    overwrite (pre ++ List.replicate n z) pre.length bs =
      pre ++ bs ++ List.replicate (n - bs.length) z := by
  rw [overwrite, List.take_left, ← List.drop_drop, List.drop_left, List.drop_replicate,
    List.append_assoc]

def le : ℕ → ℕ → List (BitVec 8)
  | 0, _ => []
  | k + 1, n => .ofNat 8 n :: le k (n / 256)

def value : List (BitVec 8) → ℕ
  | [] => 0
  | b :: bs => b.toNat + 256 * value bs

@[simp] theorem length_le (k n : ℕ) : (le k n).length = k := by
  induction k generalizing n with
  | zero => rfl
  | succ k ih => rw [le, List.length_cons, ih]

theorem value_le {k n : ℕ} (h : n < 256 ^ k) : value (le k n) = n := by
  induction k generalizing n with
  | zero => exact (Nat.lt_one_iff.mp h).symm
  | succ k ih =>
    have hn : n / 256 < 256 ^ k := Nat.div_lt_of_lt_mul (by rwa [pow_succ'] at h)
    rw [le, value, ih hn, BitVec.toNat_ofNat]
    exact Nat.mod_add_div n 256

theorem le_value (bs : List (BitVec 8)) : le bs.length (value bs) = bs := by
  induction bs with
  | nil => rfl
  | cons b bs ih =>
    have hlow : BitVec.ofNat 8 (b.toNat + 256 * value bs) = b := by
      apply BitVec.eq_of_toNat_eq
      have := b.isLt
      rw [BitVec.toNat_ofNat]
      omega
    have hhigh : (b.toNat + 256 * value bs) / 256 = value bs := by
      have := b.isLt
      omega
    rw [List.length_cons, le, value, hlow, hhigh, ih]

theorem value_lt (bs : List (BitVec 8)) : value bs < 256 ^ bs.length := by
  induction bs with
  | nil => exact Nat.one_pos
  | cons b bs ih =>
    have := b.isLt
    rw [value, List.length_cons, pow_succ]
    omega

theorem le_zero (k : ℕ) : le k 0 = List.replicate k 0 := by
  induction k with
  | zero => rfl
  | succ k ih => rw [le, Nat.zero_div, ih, List.replicate_succ]; rfl

/-- The least multiple of `a` that is not below `n`. -/
def roundUp (a n : ℕ) : ℕ := n + (a - n % a) % a

theorem dvd_roundUp {a : ℕ} (ha : 0 < a) (n : ℕ) : a ∣ roundUp a n := by
  have hlt : n % a < a := Nat.mod_lt n ha
  have hsum : n + (a - n % a) = a * (n / a + 1) := by
    have := Nat.div_add_mod n a
    rw [Nat.mul_succ]
    omega
  apply Nat.dvd_of_mod_eq_zero
  rw [roundUp, Nat.add_mod_mod, hsum, Nat.mul_mod_right]

def align (a : ℕ) (z : α) (buf : List α) : List α :=
  buf ++ List.replicate ((a - buf.length % a) % a) z

@[simp] theorem length_align (a : ℕ) (z : α) (buf : List α) :
    (align a z buf).length = roundUp a buf.length := by
  rw [align, List.length_append, List.length_replicate, roundUp]

theorem le_roundUp (a n : ℕ) : n ≤ roundUp a n := Nat.le_add_right _ _

theorem align_eq (a : ℕ) (z : α) (buf : List α) :
    align a z buf = buf ++ List.replicate (roundUp a buf.length - buf.length) z := by
  rw [align, roundUp, Nat.add_sub_cancel_left]

theorem exists_align (a : ℕ) (z : α) (buf : List α) : ∃ n,
    align a z buf = buf ++ List.replicate n z ∧ buf.length + n = roundUp a buf.length :=
  ⟨_, rfl, rfl⟩

/-- A field of a record and the bytes it takes. -/
structure Slot (ν : Type v) where
  name : ν
  offset : ℕ
  size : ℕ
  deriving DecidableEq

/-- Fields with the given sizes, one after another. -/
def place (start : ℕ) : List (ν × ℕ) → List (Slot ν)
  | [] => []
  | (name, size) :: l => ⟨name, start, size⟩ :: place (start + size) l

def total (l : List (ν × ℕ)) : ℕ := (l.map Prod.snd).sum

theorem map_place (start : ℕ) (l : List (ν × ℕ)) :
    (place start l).map (fun s => (s.name, s.size)) = l := by
  induction l generalizing start with
  | nil => rfl
  | cons p l ih => rw [place, List.map_cons, ih]

theorem place_inj {start : ℕ} {l l' : List (ν × ℕ)} : place start l = place start l' ↔ l = l' := by
  constructor
  · intro h
    rw [← map_place start l, h, map_place]
  · rintro rfl
    rfl

def encode (l : List ((ν × ℕ) × ℕ)) : List (BitVec 8) := l.flatMap fun p => le p.1.2 p.2

def read (slots : List (Slot ν)) (buf : List (BitVec 8)) (base : ℕ) : List (ν × ℕ) :=
  slots.map fun s => (s.name, value (slice buf (base + s.offset) s.size))

theorem length_encode (l : List ((ν × ℕ) × ℕ)) : (encode l).length = total (l.map Prod.fst) := by
  induction l with
  | nil => rfl
  | cons p l ih =>
    rw [encode, List.flatMap_cons, List.length_append, length_le, ← encode, ih]
    rfl

/-- The fields of a record, from any of them on, read back wherever it is. -/
theorem read_place {l : List ((ν × ℕ) × ℕ)} (h : ∀ p ∈ l, p.2 < 256 ^ p.1.2) {base start : ℕ}
    {pre : List (BitVec 8)} (hpre : base + start = pre.length) (post : List (BitVec 8)) :
    read (place start (l.map Prod.fst)) (pre ++ (encode l ++ post)) base =
      l.map fun p => (p.1.1, p.2) := by
  induction l generalizing start pre with
  | nil => rfl
  | cons p l ih =>
    obtain ⟨⟨name, size⟩, n⟩ := p
    obtain ⟨hn, hl⟩ := List.forall_mem_cons.mp h
    have hbuf : pre ++ (encode (((name, size), n) :: l) ++ post) =
        pre ++ (le size n ++ (encode l ++ post)) := by
      rw [encode, List.flatMap_cons, ← encode, List.append_assoc]
    have hslice : slice (pre ++ (le size n ++ (encode l ++ post))) (base + start) size =
        le size n := by
      have := slice_append pre (le size n) (encode l ++ post)
      rwa [length_le, ← hpre] at this
    have hnext : base + (start + size) = (pre ++ le size n).length := by
      rw [List.length_append, length_le, ← hpre, Nat.add_assoc]
    have hrest := ih hl hnext
    rw [List.append_assoc] at hrest
    rw [hbuf, List.map_cons, List.map_cons, ← hrest, place, read, List.map_cons, hslice,
      value_le hn]
    rfl

theorem slice_of_read {l : List ((ν × ℕ) × ℕ)} {buf : List (BitVec 8)} (base start : ℕ)
    (hfit : base + start + total (l.map Prod.fst) ≤ buf.length)
    (h : read (place start (l.map Prod.fst)) buf base = l.map fun p => (p.1.1, p.2)) :
    slice buf (base + start) (total (l.map Prod.fst)) = encode l ∧
      ∀ p ∈ l, p.2 < 256 ^ p.1.2 := by
  induction l generalizing start with
  | nil => exact ⟨rfl, fun _ h => absurd h List.not_mem_nil⟩
  | cons p l ih =>
    obtain ⟨⟨name, size⟩, n⟩ := p
    have htotal : total (((name, size) :: l.map Prod.fst)) = size + total (l.map Prod.fst) :=
      List.sum_cons
    rw [List.map_cons, htotal] at hfit
    rw [List.map_cons, place, read, List.map_cons, List.map_cons, List.cons.injEq] at h
    obtain ⟨hslice, hl⟩ := ih _ (by omega) h.2
    have hlen : (slice buf (base + start) size).length = size := slice_length (by omega)
    have hn : value (slice buf (base + start) size) = n := congrArg Prod.snd h.1
    have hle : le size n = slice buf (base + start) size := by
      have := le_value (slice buf (base + start) size)
      rwa [hlen, hn] at this
    have hlt : n < 256 ^ size := by
      have := value_lt (slice buf (base + start) size)
      rwa [hlen, hn] at this
    refine ⟨?_, List.forall_mem_cons.mpr ⟨hlt, hl⟩⟩
    rw [List.map_cons, htotal, slice_add, Nat.add_assoc base, hslice, ← hle]
    rfl

end Layout

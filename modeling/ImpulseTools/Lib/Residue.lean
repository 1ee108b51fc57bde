import ImpulseTools.Lib.Cyclic
import Mathlib.Algebra.CharP.Two
import Mathlib.GroupTheory.OrderOfElement
import Mathlib.RingTheory.AdjoinRoot

/-! # Residues

Products and powers modulo a generator over the field of two elements, computed in a register
that is multiplied by the variable, and the distance between multiples of the generator.
-/

open Polynomial AdjoinRoot

namespace Cyclic

variable {g : (ZMod 2)[X]} {w : ℕ}

theorem ofNat_injective : Function.Injective ofNat := by
  intro m n h
  refine Nat.eq_of_testBit_eq fun i => coef_injective ?_
  rw [← coeff_ofNat, h, coeff_ofNat]

theorem ofNat_one : ofNat 1 = 1 := by
  rw [← pow_zero 2, ofNat_two_pow, pow_zero]

theorem ofNat_two : ofNat 2 = X := by
  have h := ofNat_two_pow 1
  rwa [pow_one, pow_one] at h

theorem ofNat_div_two (n : ℕ) :
    ofNat n = ofNat (n / 2) * X + if n % 2 = 1 then 1 else 0 := by
  ext i
  rw [coeff_add, coeff_ofNat]
  cases i with
  | zero =>
    rw [Nat.testBit_zero, coef_decide, coeff_mul_X_zero, zero_add]
    split_ifs
    · rw [coeff_one_zero]
    · rw [coeff_zero]
  | succ i =>
    have hzero : (if n % 2 = 1 then 1 else 0 : (ZMod 2)[X]).coeff (i + 1) = 0 := by
      split_ifs
      · rw [coeff_one, if_neg (Nat.succ_ne_zero i)]
      · rw [coeff_zero]
    rw [hzero, Nat.testBit_succ, coeff_mul_X, coeff_ofNat, add_zero]

/-- A step that multiplies registers of `w` bits by the variable. -/
structure Shift (g : (ZMod 2)[X]) (w : ℕ) where
  step : ℕ → ℕ
  degree_eq : g.degree = w
  step_lt : ∀ n, step n < 2 ^ w
  dvd_step : ∀ n < 2 ^ w, g ∣ ofNat (step n) - ofNat n * X

noncomputable def residue (g : (ZMod 2)[X]) (n : ℕ) : AdjoinRoot g := mk g (ofNat n)

theorem residue_zero : residue g 0 = 0 := by
  rw [residue, show ofNat 0 = 0 from Finset.sum_empty, map_zero]

theorem residue_one : residue g 1 = 1 := by rw [residue, ofNat_one, map_one]

theorem residue_two : residue g 2 = root g := by rw [residue, ofNat_two, mk_X]

theorem residue_xor (m n : ℕ) : residue g (m ^^^ n) = residue g m + residue g n := by
  rw [residue, ofNat_xor, map_add]
  rfl

theorem residue_div_two (n : ℕ) :
    residue g n = residue g (n / 2) * root g + if n % 2 = 1 then 1 else 0 := by
  rw [residue, ofNat_div_two, map_add, map_mul, mk_X]
  split_ifs
  · rw [map_one]
    rfl
  · rw [map_zero]
    rfl

theorem residue_inj (hdeg : g.degree = w) {m n : ℕ} (hm : m < 2 ^ w) (hn : n < 2 ^ w)
    (h : residue g m = residue g n) : m = n := by
  have hlt : (ofNat m - ofNat n).degree < g.degree := by
    rw [hdeg]
    exact (degree_sub_le _ _).trans_lt (max_lt (degree_ofNat_lt hm) (degree_ofNat_lt hn))
  exact ofNat_injective (sub_eq_zero.mp (eq_zero_of_dvd_of_degree_lt (mk_eq_mk.mp h) hlt))

namespace Shift
variable (s : Shift g w)

theorem residue_step {n : ℕ} (h : n < 2 ^ w) :
    residue g (s.step n) = residue g n * root g := by
  rw [residue, residue, ← mk_X, ← map_mul, mk_eq_mk]
  exact s.dvd_step n h

/-- The product of `a` and the lowest `k` bits of `b`. -/
def mul (a : ℕ) : ℕ → ℕ → ℕ
  | 0, _ => 0
  | k + 1, b => s.step (mul a k (b / 2)) ^^^ if b % 2 = 1 then a else 0

theorem mul_lt {a : ℕ} (ha : a < 2 ^ w) (k b : ℕ) : s.mul a k b < 2 ^ w := by
  cases k with
  | zero => exact Nat.two_pow_pos w
  | succ k =>
    refine Nat.xor_lt_two_pow (s.step_lt _) ?_
    split_ifs
    · exact ha
    · exact Nat.two_pow_pos w

theorem residue_mul {a k b : ℕ} (ha : a < 2 ^ w) (hb : b < 2 ^ k) :
    residue g (s.mul a k b) = residue g a * residue g b := by
  induction k generalizing b with
  | zero => rw [mul, Nat.lt_one_iff.mp hb, residue_zero, mul_zero]
  | succ k ih =>
    rw [mul, residue_xor, s.residue_step (s.mul_lt ha k _), ih (by omega), residue_div_two b]
    split_ifs
    · ring
    · rw [residue_zero]
      ring

def pow (a : ℕ) : ℕ → ℕ → ℕ
  | 0, _ => 1
  | k + 1, e =>
    let q := s.mul (pow a k (e / 2)) w (pow a k (e / 2))
    if e % 2 = 1 then s.mul q w a else q

theorem pow_lt (hw : 0 < w) {a k : ℕ} (e : ℕ) : s.pow a k e < 2 ^ w := by
  induction k generalizing e with
  | zero => exact Nat.one_lt_two_pow hw.ne'
  | succ k ih =>
    have hq := s.mul_lt (ih (e / 2)) w (s.pow a k (e / 2))
    rw [pow]
    split_ifs
    · exact s.mul_lt hq w a
    · exact hq

theorem residue_pow (hw : 0 < w) {a k e : ℕ} (ha : a < 2 ^ w) (he : e < 2 ^ k) :
    residue g (s.pow a k e) = residue g a ^ e := by
  induction k generalizing e with
  | zero => rw [pow, Nat.lt_one_iff.mp he, residue_one, pow_zero]
  | succ k ih =>
    have hlt := s.pow_lt hw (a := a) (k := k) (e / 2)
    have hq : residue g (s.mul (s.pow a k (e / 2)) w (s.pow a k (e / 2))) =
        residue g a ^ (e / 2 + e / 2) := by
      rw [s.residue_mul hlt hlt, ih (by omega), ← pow_add]
    rw [pow]
    split_ifs
    · rw [s.residue_mul (s.mul_lt hlt w _) ha, hq, ← pow_succ]
      congr 1
      omega
    · rw [hq]
      congr 1
      omega

/-- The order of the variable, from the powers that a register computes. -/
theorem orderOf_root (hw : 1 < w) {k n : ℕ} (hpos : 0 < n) (hn : n < 2 ^ k)
    (hone : s.pow 2 k n = 1) (hne : ∀ p, p.Prime → p ∣ n → s.pow 2 k (n / p) ≠ 1) :
    orderOf (root g) = n := by
  have hw0 : 0 < w := Nat.zero_lt_of_lt hw
  have hpow : ∀ e < 2 ^ k, residue g (s.pow 2 k e) = root g ^ e := by
    intro e he
    rw [s.residue_pow hw0 (lt_self_pow₀ one_lt_two hw) he, residue_two]
  refine orderOf_eq_of_pow_and_pow_div_prime hpos ?_ fun p hp hdvd h => hne p hp hdvd ?_
  · rw [← hpow n hn, hone, residue_one]
  · refine residue_inj s.degree_eq (s.pow_lt hw0 _) (Nat.one_lt_two_pow hw0.ne') ?_
    rw [hpow _ ((Nat.div_le_self n p).trans_lt hn), h, residue_one]

end Shift

def distance (l l' : List Bool) : ℕ := (List.zipWith xor l l').count true

theorem distance_append {l l' m m' : List Bool} (hlen : l.length = l'.length) :
    distance (l ++ m) (l' ++ m') = distance l l' + distance m m' := by
  rw [distance, List.zipWith_append hlen, List.count_append]
  rfl

theorem distance_self (l : List Bool) : distance l l = 0 := by
  induction l with
  | nil => rfl
  | cons a l ih =>
    rw [distance, List.zipWith_cons_cons, Bool.xor_self, List.count_cons_of_ne Bool.false_ne_true]
    exact ih

theorem eq_of_distance_eq_zero {l l' : List Bool} (hlen : l.length = l'.length)
    (h : distance l l' = 0) : l = l' := by
  induction l generalizing l' with
  | nil => exact (List.length_eq_zero_iff.mp hlen.symm).symm
  | cons a l ih =>
    obtain ⟨b, l', rfl⟩ := List.exists_cons_of_length_eq_add_one hlen.symm
    rw [distance, List.zipWith_cons_cons, List.count_cons, Nat.add_eq_zero_iff] at h
    obtain ⟨hl, hab⟩ := h
    have hxor : a = b := by
      cases a <;> cases b <;> first | rfl | exact absurd hab (by decide)
    rw [ih (Nat.succ.inj hlen) hl, hxor]

theorem ofCoeffs_sub {l l' : List Bool} (hlen : l.length = l'.length) :
    ofCoeffs (l.map coef) - ofCoeffs (l'.map coef) =
      ofCoeffs ((List.zipWith xor l l').map coef) := by
  induction l generalizing l' with
  | nil =>
    rw [List.length_eq_zero_iff.mp hlen.symm]
    exact sub_zero _
  | cons a l ih =>
    obtain ⟨b, l', rfl⟩ := List.exists_cons_of_length_eq_add_one hlen.symm
    have hlen : l.length = l'.length := Nat.succ.inj hlen
    rw [List.zipWith_cons_cons, List.map_cons, List.map_cons, List.map_cons, ofCoeffs, ofCoeffs,
      ofCoeffs, ← ih hlen, coef_xor, C_add]
    simp only [List.length_map, List.length_zipWith, hlen, Nat.min_self]
    rw [add_sub_add_comm, ← sub_mul, CharTwo.sub_eq_add (C (coef a))]

theorem exists_support (l : List Bool) : ∃ s : Finset ℕ, (∀ i ∈ s, i < l.length) ∧
    s.card = l.count true ∧ ofCoeffs (l.map coef) = ∑ i ∈ s, X ^ i := by
  induction l with
  | nil => exact ⟨∅, by simp, rfl, rfl⟩
  | cons a l ih =>
    obtain ⟨s, hlt, hcard, hsum⟩ := ih
    have hlt' : ∀ i ∈ s, i < (a :: l).length := fun i hi => (hlt i hi).trans (Nat.lt_succ_self _)
    rw [List.map_cons, ofCoeffs, hsum, List.length_map]
    cases a with
    | false =>
      refine ⟨s, hlt', ?_, ?_⟩
      · rw [hcard, List.count_cons_of_ne Bool.false_ne_true]
      · rw [show coef false = 0 from rfl, C_0, zero_mul, zero_add]
    | true =>
      have hmem : l.length ∉ s := fun h => lt_irrefl _ (hlt _ h)
      refine ⟨insert l.length s, fun i hi => ?_, ?_, ?_⟩
      · rcases Finset.mem_insert.mp hi with rfl | hi
        · exact Nat.lt_succ_self _
        · exact hlt' i hi
      · rw [Finset.card_insert_of_notMem hmem, hcard, List.count_cons_self]
      · rw [Finset.sum_insert hmem, show coef true = 1 from rfl, C_1, one_mul]

theorem orderOf_le_of_dvd (h0 : IsUnit (g.coeff 0)) {i j : ℕ} (hij : i < j)
    (h : g ∣ X ^ i + X ^ j) : orderOf (root g) ≤ j - i := by
  have hsum : (X ^ i + X ^ j : (ZMod 2)[X]) = (X ^ (j - i) - 1) * X ^ i := by
    rw [sub_mul, ← pow_add, Nat.sub_add_cancel hij.le, one_mul, CharTwo.sub_eq_add, add_comm]
  rw [hsum] at h
  have hpow : root g ^ (j - i) = 1 := by
    rw [← mk_X, ← map_pow, ← map_one (mk g), mk_eq_mk]
    exact dvd_of_dvd_mul_X_pow h0 h
  exact orderOf_le_of_pow_eq_one (Nat.sub_pos_of_lt hij) hpow

/-- Multiples of a generator that vanishes at 1 are four places apart, as long as they are not
longer than the order of the variable. -/
theorem eq_of_distance_le (h0 : IsUnit (g.coeff 0)) (h1 : g.IsRoot 1) {l l' : List Bool}
    (hlen : l.length = l'.length) (hord : l.length ≤ orderOf (root g))
    (hdist : distance l l' ≤ 3) (h : g ∣ ofCoeffs (l.map coef) - ofCoeffs (l'.map coef)) :
    l = l' := by
  refine eq_of_distance_eq_zero hlen ?_
  obtain ⟨s, hlt, hcard, hsum⟩ := exists_support (List.zipWith xor l l')
  rw [ofCoeffs_sub hlen, hsum] at h
  rw [distance, ← hcard] at hdist ⊢
  have heven : 2 ∣ s.card := by
    have hroot : (∑ i ∈ s, X ^ i : (ZMod 2)[X]).IsRoot 1 := h1.dvd h
    rw [IsRoot.def, eval_finsetSum] at hroot
    simp only [eval_pow, eval_X, one_pow, Finset.sum_const, nsmul_eq_mul, mul_one] at hroot
    exact (ZMod.natCast_eq_zero_iff _ _).mp hroot
  have htwo : s.card ≠ 2 := by
    intro hs
    obtain ⟨i, j, hne, rfl⟩ := Finset.card_eq_two.mp hs
    rw [Finset.sum_pair hne] at h
    have hi := hlt i (Finset.mem_insert_self _ _)
    have hj := hlt j (Finset.mem_insert_of_mem (Finset.mem_singleton_self j))
    rw [List.length_zipWith, ← hlen, Nat.min_self] at hi hj
    rcases hne.lt_or_gt with hij | hij
    · have := orderOf_le_of_dvd h0 hij h
      omega
    · rw [add_comm] at h
      have := orderOf_le_of_dvd h0 hij h
      omega
  omega

end Cyclic

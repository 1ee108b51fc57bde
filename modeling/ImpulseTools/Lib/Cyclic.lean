import Mathlib.Algebra.Polynomial.Div
import Mathlib.Data.Nat.Size
import Mathlib.Algebra.Field.ZMod
import Mathlib.RingTheory.Coprime.Lemmas

/-! # Cyclic codes

Lists of coefficients and numbers as polynomials, registers that are multiplied by the variable
modulo a generator, and the errors that the remainder of such a division shows.
-/

open Polynomial

namespace Cyclic

section

variable {R : Type*} [CommRing R]

/-- The polynomial with the given coefficients, the leading one first. -/
noncomputable def ofCoeffs : List R → R[X]
  | [] => 0
  | a :: l => C a * X ^ l.length + ofCoeffs l

theorem ofCoeffs_append (l m : List R) :
    ofCoeffs (l ++ m) = ofCoeffs l * X ^ m.length + ofCoeffs m := by
  induction l with
  | nil => rw [List.nil_append, ofCoeffs, zero_mul, zero_add]
  | cons a l ih =>
    rw [List.cons_append, ofCoeffs, ofCoeffs, ih, List.length_append, pow_add]
    ring

theorem degree_ofCoeffs_lt (l : List R) : (ofCoeffs l).degree < l.length := by
  induction l with
  | nil => exact WithBot.bot_lt_coe _
  | cons a l ih =>
    rw [ofCoeffs, List.length_cons]
    refine (degree_add_le _ _).trans_lt (max_lt ?_ ?_)
    · exact (degree_C_mul_X_pow_le _ _).trans_lt (by exact_mod_cast Nat.lt_succ_self _)
    · exact ih.trans (by exact_mod_cast Nat.lt_succ_self _)

theorem coeff_ofCoeffs_cons (a : R) (l : List R) :
    (ofCoeffs (a :: l)).coeff l.length = a := by
  rw [ofCoeffs, coeff_add, coeff_C_mul_X_pow, if_pos rfl,
    coeff_eq_zero_of_degree_lt (degree_ofCoeffs_lt l), add_zero]

theorem ofCoeffs_inj {l m : List R} (hlen : l.length = m.length)
    (h : ofCoeffs l = ofCoeffs m) : l = m := by
  induction l generalizing m with
  | nil => exact (List.length_eq_zero_iff.mp hlen.symm).symm
  | cons a l ih =>
    obtain ⟨b, m, rfl⟩ := List.exists_cons_of_length_eq_add_one hlen.symm
    replace hlen : l.length = m.length := Nat.succ.inj hlen
    have hab : a = b := by
      rw [← coeff_ofCoeffs_cons a l, h, hlen, coeff_ofCoeffs_cons]
    subst hab
    rw [ofCoeffs, ofCoeffs, hlen, add_right_inj] at h
    rw [ih hlen h]

/-- A factor of the variable says nothing about divisibility by a generator that does not
vanish at 0. -/
theorem dvd_of_dvd_mul_X_pow {g p : R[X]} (h0 : IsUnit (g.coeff 0)) {k : ℕ}
    (h : g ∣ p * X ^ k) : g ∣ p := by
  obtain ⟨u, hu⟩ := h0
  have hinv : C ((u⁻¹ : Rˣ) : R) * C (u : R) = 1 := by rw [← C_mul, Units.inv_mul, C_1]
  have hg : g = divX g * X + C (u : R) := by rw [hu, divX_mul_X_add]
  have hcop : IsCoprime g X := by
    refine ⟨C ((u⁻¹ : Rˣ) : R), -(C ((u⁻¹ : Rˣ) : R) * divX g), ?_⟩
    calc C ((u⁻¹ : Rˣ) : R) * g + -(C ((u⁻¹ : Rˣ) : R) * divX g) * X
        = C ((u⁻¹ : Rˣ) : R) * (g - divX g * X) := by ring
      _ = C ((u⁻¹ : Rˣ) : R) * C (u : R) := by rw [sub_eq_of_eq_add' hg]
      _ = 1 := hinv
  exact (hcop.pow_right (n := k)).dvd_of_dvd_mul_right h

/-- Errors in a window that is not wider than the generator's degree are no multiple of it. -/
theorem eq_of_dvd_sub {g : R[X]} (hg : g.Monic) (h0 : IsUnit (g.coeff 0)) {pre w w' post : List R}
    (hlen : w.length = w'.length) (hle : (w.length : WithBot ℕ) ≤ g.degree)
    (h : g ∣ ofCoeffs (pre ++ (w ++ post)) - ofCoeffs (pre ++ (w' ++ post))) : w = w' := by
  have herr : ofCoeffs (pre ++ (w ++ post)) - ofCoeffs (pre ++ (w' ++ post)) =
      (ofCoeffs w - ofCoeffs w') * X ^ post.length := by
    simp only [ofCoeffs_append, List.length_append, hlen]
    ring
  rw [herr] at h
  have hdeg : (ofCoeffs w - ofCoeffs w').degree < g.degree := by
    refine ((degree_sub_le _ _).trans_lt (max_lt (degree_ofCoeffs_lt w) ?_)).trans_le hle
    rw [hlen]
    exact degree_ofCoeffs_lt w'
  by_contra hne
  have hsub : ofCoeffs w - ofCoeffs w' ≠ 0 :=
    fun hz => hne (ofCoeffs_inj hlen (sub_eq_zero.mp hz))
  exact hg.not_dvd_of_degree_lt hsub hdeg (dvd_of_dvd_mul_X_pow h0 h)

theorem exists_window {α : Type*} {l l' : List α} (hlen : l.length = l'.length) {k n : ℕ}
    (h : ∀ i, l[i]? ≠ l'[i]? → k ≤ i ∧ i < k + n) :
    ∃ pre w w' post, l = pre ++ (w ++ post) ∧ l' = pre ++ (w' ++ post) ∧ w.length = w'.length ∧
      w.length ≤ n := by
  have hout : ∀ i, ¬ (k ≤ i ∧ i < k + n) → l[i]? = l'[i]? := fun i hi => not_not.mp (mt (h i) hi)
  have hpre : l.take k = l'.take k := by
    refine List.ext_getElem? fun i => ?_
    rw [List.getElem?_take, List.getElem?_take]
    split_ifs with hi
    · exact hout i fun h => absurd hi (not_lt.mpr h.1)
    · rfl
  have hpost : l.drop (k + n) = l'.drop (k + n) := by
    refine List.ext_getElem? fun i => ?_
    rw [List.getElem?_drop, List.getElem?_drop]
    exact hout _ fun h => absurd h.2 (by omega)
  have hcut (m : List α) : m = m.take k ++ ((m.drop k).take n ++ m.drop (k + n)) := by
    rw [← List.drop_drop, List.take_append_drop, List.take_append_drop]
  refine ⟨l.take k, (l.drop k).take n, (l'.drop k).take n, l.drop (k + n), hcut l, ?_, ?_, ?_⟩
  · rw [hpre, hpost]
    exact hcut l'
  · simp only [List.length_take, List.length_drop, hlen]
  · exact List.length_take_le _ _

/-- A multiple of the generator that differs from another one differs in a wider window. -/
theorem eq_of_burst {g : R[X]} (hg : g.Monic) (h0 : IsUnit (g.coeff 0)) {l l' : List R}
    (hlen : l.length = l'.length) {k n : ℕ} (hn : (n : WithBot ℕ) ≤ g.degree)
    (hwin : ∀ i, l[i]? ≠ l'[i]? → k ≤ i ∧ i < k + n) (h : g ∣ ofCoeffs l - ofCoeffs l') :
    l = l' := by
  obtain ⟨pre, w, w', post, rfl, rfl, hw, hle⟩ := exists_window hlen hwin
  rw [eq_of_dvd_sub hg h0 hw ((Nat.cast_le.mpr hle).trans hn) h]

variable {ρ : Type*} {g : R[X]} {φ : ρ → R[X]} {I : ρ → Prop}

theorem dvd_iterate {f : ρ → ρ} (hI : ∀ r, I r → I (f r))
    (step : ∀ r, I r → g ∣ φ (f r) - φ r * X) (k : ℕ) {r : ρ} (hr : I r) :
    g ∣ φ (f^[k] r) - φ r * X ^ k := by
  induction k generalizing r with
  | zero => rw [Function.iterate_zero_apply, pow_zero, mul_one, sub_self]; exact dvd_zero g
  | succ k ih =>
    rw [Function.iterate_succ_apply]
    have hsum : φ (f^[k] (f r)) - φ r * X ^ (k + 1) =
        (φ (f^[k] (f r)) - φ (f r) * X ^ k) + (φ (f r) - φ r * X) * X ^ k := by ring
    rw [hsum]
    exact dvd_add (ih (hI r hr)) (dvd_mul_of_dvd_left (step r hr) _)

theorem length_flatMap_of_length {α β : Type*} {e : α → List β} {k : ℕ}
    (hk : ∀ a, (e a).length = k) (l : List α) : (l.flatMap e).length = k * l.length := by
  rw [List.length_flatMap, List.map_congr_left fun a _ => hk a, List.map_const',
    List.sum_replicate, smul_eq_mul, Nat.mul_comm]

/-- A register that takes up `k` coefficients in each step, `w` places up, holds the message
behind what it held at the start. -/
theorem dvd_foldl {α : Type*} {f : ρ → α → ρ} {e : α → List R} {k w : ℕ}
    (hk : ∀ a, (e a).length = k) (hI : ∀ r a, I r → I (f r a))
    (step : ∀ r a, I r → g ∣ φ (f r a) - (φ r * X ^ k + ofCoeffs (e a) * X ^ w))
    (l : List α) {r : ρ} (hr : I r) :
    g ∣ φ (l.foldl f r) - (φ r * X ^ (k * l.length) + ofCoeffs (l.flatMap e) * X ^ w) := by
  induction l generalizing r with
  | nil => simp [ofCoeffs]
  | cons a l ih =>
    have hlen : (l.flatMap e).length = k * l.length := length_flatMap_of_length hk l
    have hsum : φ (l.foldl f (f r a)) -
        (φ r * X ^ (k * (a :: l).length) + ofCoeffs ((a :: l).flatMap e) * X ^ w) =
        (φ (l.foldl f (f r a)) -
          (φ (f r a) * X ^ (k * l.length) + ofCoeffs (l.flatMap e) * X ^ w)) +
        (φ (f r a) - (φ r * X ^ k + ofCoeffs (e a) * X ^ w)) * X ^ (k * l.length) := by
      rw [List.flatMap_cons, ofCoeffs_append, hlen, List.length_cons, Nat.mul_succ, pow_add]
      ring
    rw [List.foldl_cons, hsum]
    exact dvd_add (ih (hI r a hr)) (dvd_mul_of_dvd_left (step r a hr) _)

end

theorem testBit_of_lt {n k i : ℕ} (h : n < 2 ^ k) (hi : k ≤ i) : n.testBit i = false :=
  Nat.testBit_lt_two_pow (h.trans_le (Nat.pow_le_pow_right two_pos hi))

def coef (b : Bool) : ZMod 2 := if b then 1 else 0

theorem coef_xor (a b : Bool) : coef (a ^^ b) = coef a + coef b := by
  cases a <;> cases b <;> decide

theorem coef_injective : Function.Injective coef := by
  intro a b
  cases a <;> cases b <;> decide

theorem coef_decide_and (p : Prop) [Decidable p] (b : Bool) :
    coef (decide p && b) = if p then coef b else 0 := by
  by_cases h : p <;> simp [h, coef]

theorem coef_decide (p : Prop) [Decidable p] : coef (decide p) = if p then 1 else 0 := by
  by_cases h : p <;> simp [h, coef]

/-- The polynomial whose coefficients are the bits of a number. -/
noncomputable def ofNat (n : ℕ) : (ZMod 2)[X] :=
  ∑ i ∈ Finset.range n.size, monomial i (coef (n.testBit i))

theorem coeff_ofNat (n i : ℕ) : (ofNat n).coeff i = coef (n.testBit i) := by
  rw [ofNat, finsetSum_coeff]
  simp only [coeff_monomial, Finset.sum_ite_eq', Finset.mem_range]
  split_ifs with h
  · rfl
  · rw [Nat.testBit_lt_two_pow (Nat.size_le.mp (not_lt.mp h))]
    rfl

theorem ofNat_xor (m n : ℕ) : ofNat (m ^^^ n) = ofNat m + ofNat n := by
  ext i
  rw [coeff_add, coeff_ofNat, coeff_ofNat, coeff_ofNat, Nat.testBit_xor, coef_xor]

theorem ofNat_shiftLeft (n k : ℕ) : ofNat (n <<< k) = ofNat n * X ^ k := by
  ext i
  rw [coeff_ofNat, coeff_mul_X_pow', coeff_ofNat, Nat.testBit_shiftLeft]
  exact coef_decide_and _ _

theorem ofNat_two_pow (k : ℕ) : ofNat (2 ^ k) = X ^ k := by
  ext i
  rw [coeff_ofNat, Nat.testBit_two_pow, coeff_X_pow, coef_decide]
  simp only [eq_comm]

theorem ofNat_ones (k : ℕ) : ofNat (2 ^ k - 1) = ∑ i ∈ Finset.range k, X ^ i := by
  ext i
  rw [coeff_ofNat, Nat.testBit_two_pow_sub_one, finsetSum_coeff]
  simp only [coeff_X_pow, Finset.sum_ite_eq, Finset.mem_range, coef_decide]

theorem degree_ofNat_lt {n k : ℕ} (h : n < 2 ^ k) : (ofNat n).degree < k := by
  rw [degree_lt_iff_coeff_zero]
  intro i hi
  rw [coeff_ofNat, testBit_of_lt h hi]
  rfl

def bits : ℕ → ℕ → List Bool
  | 0, _ => []
  | w + 1, n => n.testBit w :: bits w n

theorem length_bits (w n : ℕ) : (bits w n).length = w := by
  induction w with
  | zero => rfl
  | succ w ih => rw [bits, List.length_cons, ih]

theorem bits_inj {w m n : ℕ} (hm : m < 2 ^ w) (hn : n < 2 ^ w) (h : bits w m = bits w n) :
    m = n := by
  have hbits : ∀ w, bits w m = bits w n → ∀ i < w, m.testBit i = n.testBit i := by
    intro w
    induction w with
    | zero => exact fun _ i hi => absurd hi (Nat.not_lt_zero i)
    | succ w ih =>
      intro h i hi
      obtain ⟨hw, h⟩ := List.cons.inj h
      rcases (Nat.lt_succ_iff.mp hi).eq_or_lt with rfl | hi
      · exact hw
      · exact ih h i hi
  refine Nat.eq_of_testBit_eq fun i => ?_
  rcases Nat.lt_or_ge i w with hi | hi
  · exact hbits w h i hi
  · rw [testBit_of_lt hm hi, testBit_of_lt hn hi]

theorem ofCoeffs_bits {w n : ℕ} (h : n < 2 ^ w) :
    ofCoeffs ((bits w n).map coef) = ofNat n := by
  have hcoeff : ∀ w i, (ofCoeffs ((bits w n).map coef)).coeff i =
      if i < w then coef (n.testBit i) else 0 := by
    intro w i
    induction w with
    | zero => simp [bits, ofCoeffs]
    | succ w ih =>
      rw [bits, List.map_cons, ofCoeffs, coeff_add, coeff_C_mul_X_pow, ih, List.length_map,
        length_bits]
      rcases lt_trichotomy i w with hi | rfl | hi
      · rw [if_neg hi.ne, if_pos hi, if_pos (hi.trans (Nat.lt_succ_self w)), zero_add]
      · rw [if_pos rfl, if_neg (lt_irrefl i), if_pos (Nat.lt_succ_self i), add_zero]
      · rw [if_neg hi.ne', if_neg (not_lt.mpr hi.le), if_neg (by omega), add_zero]
  ext i
  rw [hcoeff, coeff_ofNat]
  split_ifs with hi
  · rfl
  · rw [testBit_of_lt h (not_lt.mp hi)]
    rfl

end Cyclic

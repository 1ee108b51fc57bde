import ImpulseTools.Lib.Cyclic
import ImpulseTools.Snapshot.Build
import Mathlib.Tactic.ComputeDegree

/-! # The header checksum

`crc16` is the remainder of a division of polynomials over the field of two elements, and differs
for data that differ in one burst.
-/

open Polynomial

namespace ImpulseTools

open Cyclic (bits coef ofCoeffs)

/-- The bits of the data, the most significant one of the first byte first. -/
def dataBits (data : List Byte) : List Bool := data.flatMap fun b => bits 8 b.toNat

noncomputable def dataPoly (data : List Byte) : (ZMod 2)[X] := ofCoeffs ((dataBits data).map coef)

/-- The generator of CRC-16-CCITT. -/
noncomputable def generator : (ZMod 2)[X] := X ^ 16 + X ^ 12 + X ^ 5 + 1

theorem degree_generator : generator.degree = 16 := by
  unfold generator
  compute_degree!

theorem monic_generator : generator.Monic := by
  unfold generator
  monicity!

theorem ofNat_generator : Cyclic.ofNat 0x11021 = generator := by
  have hxor : 0x11021 = 2 ^ 16 ^^^ 2 ^ 12 ^^^ 2 ^ 5 ^^^ 2 ^ 0 := by decide
  rw [hxor, Cyclic.ofNat_xor, Cyclic.ofNat_xor, Cyclic.ofNat_xor]
  rw [Cyclic.ofNat_two_pow, Cyclic.ofNat_two_pow, Cyclic.ofNat_two_pow, Cyclic.ofNat_two_pow,
    pow_zero, generator]

theorem isUnit_coeff_generator : IsUnit (generator.coeff 0) := by
  have h : generator.coeff 0 = 1 := by
    rw [← ofNat_generator, Cyclic.coeff_ofNat]
    rfl
  rw [h]
  exact isUnit_one

theorem and_high_ne_zero (crc : ℕ) : crc &&& 0x8000 ≠ 0 ↔ crc.testBit 15 := by
  rw [show 0x8000 = 2 ^ 15 from rfl, Nat.and_two_pow]
  cases crc.testBit 15 <;> decide

theorem xor_poly_mod {crc : ℕ} (h : crc < 2 ^ 16) (hb : crc.testBit 15) :
    (crc <<< 1 ^^^ 0x1021) % 2 ^ 16 = crc <<< 1 ^^^ 0x11021 := by
  have hgen : 0x11021 = 2 ^ 16 ^^^ 0x1021 := by decide
  refine Nat.eq_of_testBit_eq fun i => ?_
  rw [Nat.testBit_mod_two_pow, hgen, Nat.testBit_xor, Nat.testBit_xor, Nat.testBit_xor,
    Nat.testBit_shiftLeft, Nat.testBit_two_pow]
  rcases lt_trichotomy i 16 with hi | rfl | hi
  · rw [decide_eq_true hi, decide_eq_false hi.ne', Bool.true_and, Bool.false_xor]
  · rw [show 16 - 1 = 15 from rfl, hb]
    decide
  · have hpoly : Nat.testBit 0x1021 i = false := Cyclic.testBit_of_lt (k := 16) (by decide) hi.le
    have hcrc : crc.testBit (i - 1) = false := Cyclic.testBit_of_lt h (by omega)
    simp [hcrc, hpoly, not_lt.mpr hi.le, hi.ne]

theorem lt_of_not_testBit {crc : ℕ} (h : crc < 2 ^ 16) (hb : ¬ crc.testBit 15) :
    crc < 2 ^ 15 := by
  refine Nat.lt_pow_two_of_testBit crc fun i hi => ?_
  rcases hi.eq_or_lt with rfl | hi
  · exact eq_false_of_ne_true hb
  · exact Cyclic.testBit_of_lt h hi

/-- A shift, and a subtraction of the generator if a bit has left the register. -/
theorem crcBit_eq {crc : ℕ} (h : crc < 2 ^ 16) :
    crcBit crc = if crc.testBit 15 then crc <<< 1 ^^^ 0x11021 else crc <<< 1 := by
  unfold crcBit
  rw [show 0xFFFF = 2 ^ 16 - 1 from rfl, Nat.and_two_pow_sub_one_eq_mod,
    Nat.and_two_pow_sub_one_eq_mod]
  by_cases hb : crc.testBit 15
  · rw [if_pos ((and_high_ne_zero crc).mpr hb), if_pos hb]
    exact xor_poly_mod h hb
  · rw [if_neg (mt (and_high_ne_zero crc).mp hb), if_neg hb]
    have hlt := lt_of_not_testBit h hb
    rw [Nat.shiftLeft_eq]
    omega

theorem dvd_crcBit {crc : ℕ} (h : crc < 2 ^ 16) :
    generator ∣ Cyclic.ofNat (crcBit crc) - Cyclic.ofNat crc * X := by
  have hshift : Cyclic.ofNat (crc <<< 1) = Cyclic.ofNat crc * X := by
    rw [Cyclic.ofNat_shiftLeft, pow_one]
  rw [crcBit_eq h]
  split_ifs
  · rw [Cyclic.ofNat_xor, hshift, ofNat_generator, add_sub_cancel_left]
  · rw [hshift, sub_self]
    exact dvd_zero _

theorem dvd_crcByte {crc : ℕ} (h : crc < 2 ^ 16) (b : Byte) :
    generator ∣ Cyclic.ofNat (crcBit^[8] (crc ^^^ (b.toNat <<< 8))) -
      (Cyclic.ofNat crc * X ^ 8 + ofCoeffs ((bits 8 b.toNat).map coef) * X ^ 16) := by
  have hb : b.toNat <<< 8 < 2 ^ 16 := by
    have := b.isLt
    rw [Nat.shiftLeft_eq]
    omega
  have hsum : Cyclic.ofNat crc * X ^ 8 + ofCoeffs ((bits 8 b.toNat).map coef) * X ^ 16 =
      Cyclic.ofNat (crc ^^^ (b.toNat <<< 8)) * X ^ 8 := by
    rw [Cyclic.ofCoeffs_bits b.isLt, Cyclic.ofNat_xor, Cyclic.ofNat_shiftLeft]
    ring
  rw [hsum]
  exact Cyclic.dvd_iterate (I := (· < 2 ^ 16)) (fun r _ => crcBit_lt r) (fun r hr => dvd_crcBit hr)
    8 (Nat.xor_lt_two_pow h hb)

theorem dvd_crc16 (data : List Byte) :
    generator ∣ Cyclic.ofNat (crc16 data) -
      ((∑ i ∈ Finset.range 16, X ^ i) * X ^ (8 * data.length) + dataPoly data * X ^ 16) := by
  have hI : ∀ (crc : ℕ) (b : Byte), crc < 2 ^ 16 →
      crcBit^[8] (crc ^^^ (b.toNat <<< 8)) < 2 ^ 16 := by
    intro crc b _
    rw [Function.iterate_succ_apply']
    exact crcBit_lt _
  have hfold := Cyclic.dvd_foldl (e := fun b : Byte => (bits 8 b.toNat).map coef)
    (fun b => by rw [List.length_map, Cyclic.length_bits]) hI
    (fun crc b h => dvd_crcByte h b) data (r := 0xFFFF) (by decide)
  rw [← Cyclic.ofNat_ones, dataPoly, dataBits, List.map_flatMap]
  exact hfold

/-- The checksum is the remainder of the data, behind sixteen ones. -/
theorem crc16_eq_modByMonic (data : List Byte) :
    crc16 data < 2 ^ 16 ∧ Cyclic.ofNat (crc16 data) = (dataPoly data * X ^ 16 +
      (∑ i ∈ Finset.range 16, X ^ i) * X ^ (8 * data.length)) %ₘ generator := by
  refine ⟨crc16_lt data, ?_⟩
  obtain ⟨q, hq⟩ := dvd_crc16 data
  have hdeg : (Cyclic.ofNat (crc16 data)).degree < generator.degree := by
    rw [degree_generator]
    exact Cyclic.degree_ofNat_lt (crc16_lt data)
  refine ((div_modByMonic_unique (-q) _ monic_generator ⟨?_, hdeg⟩).2).symm
  rw [mul_neg, ← hq]
  ring

theorem length_dataBits (data : List Byte) : (dataBits data).length = 8 * data.length := by
  rw [dataBits, Cyclic.length_flatMap_of_length fun b => Cyclic.length_bits 8 _]

theorem dataBits_inj {data data' : List Byte} (hlen : data.length = data'.length)
    (h : dataBits data = dataBits data') : data = data' := by
  induction data generalizing data' with
  | nil => exact (List.length_eq_zero_iff.mp hlen.symm).symm
  | cons b data ih =>
    obtain ⟨b', data', rfl⟩ := List.exists_cons_of_length_eq_add_one hlen.symm
    rw [dataBits, dataBits, List.flatMap_cons, List.flatMap_cons] at h
    obtain ⟨hb, hdata⟩ := List.append_inj h (by rw [Cyclic.length_bits, Cyclic.length_bits])
    rw [ih (Nat.succ.inj hlen) hdata, BitVec.eq_of_toNat_eq (Cyclic.bits_inj b.isLt b'.isLt hb)]

/-- Data that differ in a window of sixteen bits have different checksums. -/
theorem crc16_ne_of_burst {data data' : List Byte} (hlen : data.length = data'.length)
    (hne : data ≠ data') {k : ℕ}
    (hwin : ∀ i, (dataBits data)[i]? ≠ (dataBits data')[i]? → k ≤ i ∧ i < k + 16) :
    crc16 data ≠ crc16 data' := by
  intro hcrc
  have hsub : generator ∣ dataPoly data - dataPoly data' := by
    have h := dvd_sub (dvd_crc16 data') (dvd_crc16 data)
    rw [hcrc, hlen] at h
    refine Cyclic.dvd_of_dvd_mul_X_pow isUnit_coeff_generator (k := 16) ?_
    convert h using 1
    ring
  have hlist : (dataBits data).map coef = (dataBits data').map coef := by
    refine Cyclic.eq_of_burst monic_generator isUnit_coeff_generator ?_ (k := k) (n := 16)
      degree_generator.ge (fun i hi => hwin i fun h => hi ?_) hsub
    · rw [List.length_map, List.length_map, length_dataBits, length_dataBits, hlen]
    · rw [List.getElem?_map, List.getElem?_map, h]
  exact hne (dataBits_inj hlen (List.map_injective_iff.mpr Cyclic.coef_injective hlist))

theorem crc16_ne_of_burst_byte : crc16 [0x12, 0x34, 0x56] ≠ crc16 [0x12, 0xFF, 0x56] := by
  have hwin : ∀ i < 24, (dataBits [0x12, 0x34, 0x56])[i]? ≠ (dataBits [0x12, 0xFF, 0x56])[i]? →
      8 ≤ i ∧ i < 8 + 16 := by decide
  refine crc16_ne_of_burst (k := 8) rfl (by decide) fun i hi => ?_
  rcases Nat.lt_or_ge i 24 with h | h
  · exact hwin i h hi
  · refine absurd ?_ hi
    rw [List.getElem?_eq_none (by simpa [length_dataBits] using h),
      List.getElem?_eq_none (by simpa [length_dataBits] using h)]

end ImpulseTools

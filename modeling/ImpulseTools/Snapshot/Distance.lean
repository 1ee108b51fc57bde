import ImpulseTools.Lib.Residue
import ImpulseTools.Snapshot.Checksum

/-! # Flipped bits

Data with their checksum behind them lie four bits apart, up to the length at which the powers of
the variable repeat.
-/

open Polynomial

namespace ImpulseTools

open Cyclic (bits coef ofCoeffs distance residue)
open Layout (le slice value)

def codeword (data : List Byte) : List Bool := dataBits data ++ bits 16 (crc16 data)

theorem length_codeword (data : List Byte) : (codeword data).length = 8 * data.length + 16 := by
  rw [codeword, List.length_append, length_dataBits, Cyclic.length_bits]

theorem dvd_codeword (data : List Byte) :
    generator ∣ ofCoeffs ((codeword data).map coef) -
      (∑ i ∈ Finset.range 16, X ^ i) * X ^ (8 * data.length) := by
  have hsum : ofCoeffs ((codeword data).map coef) =
      dataPoly data * X ^ 16 + Cyclic.ofNat (crc16 data) := by
    rw [codeword, List.map_append, Cyclic.ofCoeffs_append, List.length_map, Cyclic.length_bits,
      Cyclic.ofCoeffs_bits (crc16_lt data), dataPoly]
  have htwo : dataPoly data * X ^ 16 + dataPoly data * X ^ 16 = 0 := CharTwo.add_self_eq_zero _
  convert dvd_crc16 data using 1
  rw [hsum, ← sub_eq_zero]
  linear_combination htwo

noncomputable def crcShift : Cyclic.Shift generator 16 where
  step := crcBit
  degree_eq := degree_generator
  step_lt := crcBit_lt
  dvd_step _ h := dvd_crcBit h

theorem prime_dvd_order {p : ℕ} (hp : p.Prime) (h : p ∣ 32767) : p = 7 ∨ p = 31 ∨ p = 151 := by
  have hfactors : Nat.primeFactorsList 32767 = [7, 31, 151] := by decide +kernel
  have hmem := (Nat.mem_primeFactorsList (by decide : 32767 ≠ 0)).mpr ⟨hp, h⟩
  rw [hfactors] at hmem
  simpa using hmem

theorem orderOf_root_generator : orderOf (AdjoinRoot.root generator) = 32767 := by
  refine crcShift.orderOf_root (k := 15) (by decide) (by decide) (by decide) (by decide +kernel) ?_
  intro p hp hdvd
  rcases prime_dvd_order hp hdvd with rfl | rfl | rfl <;> decide +kernel

theorem isRoot_generator : generator.IsRoot 1 := by
  have hfour : (1 + 1 + 1 + 1 : ZMod 2) = 0 := by decide
  simpa [generator] using hfour

theorem codeword_eq_of_distance {data data' : List Byte} (hlen : data.length = data'.length)
    (hshort : data.length ≤ 4093) (h : distance (codeword data) (codeword data') ≤ 3) :
    codeword data = codeword data' := by
  have hcode : (codeword data).length = (codeword data').length := by
    rw [length_codeword, length_codeword, hlen]
  refine Cyclic.eq_of_distance_le isUnit_coeff_generator isRoot_generator hcode ?_ h ?_
  · rw [orderOf_root_generator, length_codeword]
    omega
  · have hsub := dvd_sub (dvd_codeword data) (dvd_codeword data')
    rwa [hlen, sub_sub_sub_cancel_right] at hsub

theorem eq_of_codeword_eq {data data' : List Byte} (hlen : data.length = data'.length)
    (h : codeword data = codeword data') : data = data' := by
  refine dataBits_inj hlen (List.append_inj h ?_).1
  rw [length_dataBits, length_dataBits, hlen]

theorem distance_bits {m n w : ℕ} :
    distance (bits w m) (bits w n) = (bits w (m ^^^ n)).count true := by
  have hxor : List.zipWith xor (bits w m) (bits w n) = bits w (m ^^^ n) := by
    induction w with
    | zero => rfl
    | succ w ih => rw [bits, bits, bits, List.zipWith_cons_cons, ih, Nat.testBit_xor]
  rw [distance, hxor]

theorem dataBits_append (data data' : List Byte) :
    dataBits (data ++ data') = dataBits data ++ dataBits data' := List.flatMap_append

theorem dataPoly_append (data data' : List Byte) :
    dataPoly (data ++ data') = dataPoly data * X ^ (8 * data'.length) + dataPoly data' := by
  rw [dataPoly, dataBits_append, List.map_append, Cyclic.ofCoeffs_append, List.length_map,
    length_dataBits, dataPoly, dataPoly]

theorem dataPoly_cons (b : Byte) (data : List Byte) :
    dataPoly (b :: data) = Cyclic.ofNat b.toNat * X ^ (8 * data.length) + dataPoly data := by
  have hone : dataPoly [b] = Cyclic.ofNat b.toNat := by
    rw [dataPoly, dataBits, List.flatMap_singleton, Cyclic.ofCoeffs_bits b.isLt]
  rw [← hone, ← dataPoly_append, List.singleton_append]

/-- The power of the variable for a bit that lies an order before the last one is 1 again. -/
theorem crc16_flip (pre : List Byte) {post : List Byte} (hpost : post.length = 4093) :
    crc16 (pre ++ 0x80 :: post) = crc16 (pre ++ 0x00 :: post) ^^^ 1 := by
  have hlen : (pre ++ 0x80 :: post).length = (pre ++ 0x00 :: post).length := by
    rw [List.length_append, List.length_append, List.length_cons, List.length_cons]
  have hpoly : dataPoly (pre ++ 0x80 :: post) = dataPoly (pre ++ 0x00 :: post) +
      X ^ (8 * post.length + 7) := by
    have hzero : Cyclic.ofNat (0x00 : Byte).toNat = 0 := Finset.sum_empty
    have hbit : Cyclic.ofNat (0x80 : Byte).toNat = X ^ 7 := Cyclic.ofNat_two_pow 7
    rw [dataPoly_append, dataPoly_append, dataPoly_cons, dataPoly_cons, hzero, hbit,
      List.length_cons, List.length_cons, zero_mul, ← pow_add]
    ring
  have hdvd : generator ∣ Cyclic.ofNat (crc16 (pre ++ 0x80 :: post)) -
      (Cyclic.ofNat (crc16 (pre ++ 0x00 :: post)) + X ^ (8 * post.length + 23)) := by
    have hsub := dvd_sub (dvd_crc16 (pre ++ 0x80 :: post)) (dvd_crc16 (pre ++ 0x00 :: post))
    rw [hlen, hpoly] at hsub
    convert hsub using 1
    ring
  have hroot : AdjoinRoot.root generator ^ (8 * post.length + 23) = 1 := by
    have horder : 8 * post.length + 23 = orderOf (AdjoinRoot.root generator) := by
      rw [orderOf_root_generator, hpost]
    rw [horder, pow_orderOf_eq_one]
  refine Cyclic.residue_inj degree_generator (crc16_lt _)
    (Nat.xor_lt_two_pow (crc16_lt _) (by decide)) ?_
  rw [Cyclic.residue_xor, Cyclic.residue_one, ← hroot, residue, AdjoinRoot.mk_eq_mk.mpr hdvd,
    map_add, map_pow, AdjoinRoot.mk_X]
  rfl

theorem distance_flip (pre : List Byte) {post : List Byte} (hpost : post.length = 4093) :
    distance (codeword (pre ++ 0x80 :: post)) (codeword (pre ++ 0x00 :: post)) = 2 := by
  have hdata : distance (dataBits (pre ++ 0x80 :: post)) (dataBits (pre ++ 0x00 :: post)) = 1 := by
    have hcons : ∀ b : Byte, dataBits (b :: post) = bits 8 b.toNat ++ dataBits post := fun _ => rfl
    have hbits : (bits 8 (0x80 : Byte).toNat).length = (bits 8 (0x00 : Byte).toNat).length := rfl
    rw [dataBits_append, dataBits_append, Cyclic.distance_append rfl, Cyclic.distance_self, hcons,
      hcons, Cyclic.distance_append hbits, Cyclic.distance_self (dataBits post)]
    decide
  have hcrc (c : ℕ) : distance (bits 16 (c ^^^ 1)) (bits 16 c) = 1 := by
    rw [distance_bits, Nat.xor_comm c, Nat.xor_xor_cancel_right]
    decide
  have hlen : (dataBits (pre ++ 0x80 :: post)).length =
      (dataBits (pre ++ 0x00 :: post)).length := by
    simp [length_dataBits]
  rw [codeword, codeword, Cyclic.distance_append hlen, hdata, crc16_flip pre hpost, hcrc]

/-- Data of one length, together with their checksums, lie at least four bits apart exactly if
they have at most 4093 bytes. -/
theorem crc16_distance_iff (n : ℕ) :
    (∀ data data' : List Byte, data.length = n → data'.length = n →
      distance (codeword data) (codeword data') ≤ 3 → data = data') ↔ n ≤ 4093 := by
  constructor
  · intro h
    by_contra hn
    obtain ⟨m, rfl⟩ := Nat.exists_eq_add_of_le' (not_le.mp hn)
    obtain ⟨post, hpost⟩ : ∃ post : List Byte, post.length = 4093 :=
      ⟨List.replicate 4093 0, List.length_replicate⟩
    obtain ⟨pre, rfl⟩ : ∃ pre : List Byte, pre.length = m :=
      ⟨List.replicate m 0, List.length_replicate⟩
    have heq := h (pre ++ 0x80 :: post) (pre ++ 0x00 :: post) (by simp [hpost]) (by simp [hpost])
      (by rw [distance_flip pre hpost]; decide)
    exact absurd (List.cons.inj (List.append_cancel_left heq)).1 (by decide)
  · rintro hn data data' rfl hlen hdist
    exact eq_of_codeword_eq hlen.symm (codeword_eq_of_distance hlen.symm hn hdist)

theorem bits_add (k w n : ℕ) : bits (k + w) n = bits k (n >>> w) ++ bits w n := by
  induction k with
  | zero => rw [Nat.zero_add, bits, List.nil_append]
  | succ k ih =>
    rw [Nat.succ_add, bits, bits, ih, Nat.testBit_shiftRight, Nat.add_comm w, List.cons_append]

theorem bits_mod {w k n : ℕ} (h : w ≤ k) : bits w (n % 2 ^ k) = bits w n := by
  induction w with
  | zero => rfl
  | succ w ih =>
    rw [bits, bits, ih (Nat.le_of_succ_le h), Nat.testBit_mod_two_pow,
      decide_eq_true (Nat.lt_of_succ_le h), Bool.true_and]

theorem bits_value (lo hi : Byte) :
    bits 16 (value [lo, hi]) = bits 8 hi.toNat ++ bits 8 lo.toNat := by
  have hvalue : value [lo, hi] = lo.toNat + 256 * hi.toNat := rfl
  have hlo := lo.isLt
  have hhigh : value [lo, hi] >>> 8 = hi.toNat := by
    rw [hvalue, Nat.shiftRight_eq_div_pow]
    omega
  have hlow : value [lo, hi] % 2 ^ 8 = lo.toNat := by
    rw [hvalue]
    omega
  rw [bits_add 8 8, hhigh, ← hlow, bits_mod le_rfl]

/-- What a reader of the header checks: the stored checksum is that of the bytes before it. -/
def headerValid (file : List Byte) : Prop := value (slice file 0x3E 2) = crc16 (file.take 0x3E)

theorem headerValid_congr {file file' : List Byte} (h : file.take 64 = file'.take 64) :
    headerValid file ↔ headerValid file' := by
  have hslice : ∀ f : List Byte, slice f 0x3E 2 = (f.take 64).drop 0x3E := by
    intro f
    rw [slice, List.drop_take]
  have htake : ∀ f : List Byte, f.take 0x3E = (f.take 64).take 0x3E := by
    intro f
    rw [List.take_take, Nat.min_eq_left (by decide)]
  rw [headerValid, headerValid, hslice, hslice file', htake, htake file', h]

/-- A header with the right checksum is a codeword, with its last two bytes swapped. -/
theorem exists_codeword {file : List Byte} (hlen : 64 ≤ file.length) (h : headerValid file) :
    ∃ lo hi, file.take 64 = file.take 0x3E ++ [lo, hi] ∧
      codeword (file.take 0x3E) =
        dataBits (file.take 0x3E) ++ (bits 8 hi.toNat ++ bits 8 lo.toNat) := by
  have htwo : (slice file 0x3E 2).length = 2 := by
    rw [slice, List.length_take, List.length_drop]
    omega
  obtain ⟨lo, hi, hs⟩ := List.length_eq_two.mp htwo
  refine ⟨lo, hi, ?_, ?_⟩
  · rw [← hs, slice, ← List.take_add]
  · rw [codeword, ← h, hs, bits_value]

theorem distance_codeword {file file' : List Byte} (hlen : 64 ≤ file.length)
    (hlen' : 64 ≤ file'.length) (h : headerValid file) (h' : headerValid file') :
    distance (codeword (file.take 0x3E)) (codeword (file'.take 0x3E)) =
      distance (dataBits (file.take 64)) (dataBits (file'.take 64)) := by
  obtain ⟨lo, hi, htake, hcode⟩ := exists_codeword hlen h
  obtain ⟨lo', hi', htake', hcode'⟩ := exists_codeword hlen' h'
  have hdata : (dataBits (file.take 0x3E)).length = (dataBits (file'.take 0x3E)).length := by
    simp only [length_dataBits, List.length_take]
    omega
  have hbyte : ∀ b b' : Byte, (bits 8 b.toNat).length = (bits 8 b'.toNat).length := by
    intro b b'
    rw [Cyclic.length_bits, Cyclic.length_bits]
  have htwo : ∀ b b' : Byte, dataBits [b, b'] = bits 8 b.toNat ++ bits 8 b'.toNat := by
    intro b b'
    rw [dataBits, List.flatMap_cons, List.flatMap_singleton]
  rw [htake, htake', dataBits_append, dataBits_append, hcode, hcode',
    Cyclic.distance_append hdata, Cyclic.distance_append hdata, htwo, htwo,
    Cyclic.distance_append (hbyte _ _), Cyclic.distance_append (hbyte _ _)]
  ring

/-- Two headers with the right checksums differ in no bit or in four. -/
theorem take_eq_of_headerValid {file file' : List Byte} (hlen : 64 ≤ file.length)
    (hlen' : 64 ≤ file'.length) (h : headerValid file) (h' : headerValid file')
    (hdist : distance (dataBits (file.take 64)) (dataBits (file'.take 64)) ≤ 3) :
    file.take 64 = file'.take 64 := by
  have htake : (file.take 0x3E).length = (file'.take 0x3E).length := by
    simp only [List.length_take]
    omega
  have hcode : codeword (file.take 0x3E) = codeword (file'.take 0x3E) := by
    refine codeword_eq_of_distance htake ?_ ?_
    · rw [List.length_take]
      omega
    · rwa [distance_codeword hlen hlen' h h']
  refine dataBits_inj ?_ (Cyclic.eq_of_distance_eq_zero ?_ ?_)
  · simp only [List.length_take]
    omega
  · simp only [length_dataBits, List.length_take]
    omega
  · rw [← distance_codeword hlen hlen' h h', hcode, Cyclic.distance_self]

theorem headerValid_snapshot {pool : List Byte} {nameOffsets : List ℤ} {file : List Byte}
    (h : buildV09Snapshot pool nameOffsets = .ok file) : 64 ≤ file.length ∧ headerValid file := by
  obtain ⟨offs, -, -, rfl⟩ := (buildV09Snapshot_eq_ok.mp h).2
  constructor
  · rw [snapshot, List.length_append, length_encode_headerValues]
    omega
  · rw [headerValid, take_snapshot, snapshot, encode_headerValues, List.append_assoc,
      List.append_assoc]
    have hslice := Layout.slice_append (headerStart offs.length)
      (le 2 (crc16 (headerStart offs.length))) (List.replicate 4032 0 ++
        Layout.align 4096 0 (stringTable pool ++ (catalog offs).flatten))
    rw [length_headerStart, Layout.length_le] at hslice
    rw [hslice, Layout.value_le (crc16_lt _)]

/-- Up to three flipped bits in the header of a file that was built are seen in its checksum. -/
theorem buildV09Snapshot_detects {pool : List Byte} {nameOffsets : List ℤ}
    {file file' : List Byte} (hfile : buildV09Snapshot pool nameOffsets = .ok file)
    (hlen : 64 ≤ file'.length)
    (hdist : distance (dataBits (file.take 64)) (dataBits (file'.take 64)) ≤ 3) :
    headerValid file' ↔ file'.take 64 = file.take 64 := by
  obtain ⟨hlen', hvalid⟩ := headerValid_snapshot hfile
  constructor
  · intro h
    exact (take_eq_of_headerValid hlen' hlen hvalid h hdist).symm
  · intro h
    exact (headerValid_congr h).mpr hvalid

theorem buildV09Snapshot_detects_magic : ∃ file, buildV09Snapshot [] [0] = .ok file ∧
    ¬ headerValid (0x50 :: file.drop 1) := by
  have hfile : buildV09Snapshot [] [0] = .ok (snapshot [] [0]) :=
    @buildV09Snapshot_ok [] [0] (by decide) (by decide) (by decide)
  have hlen : 64 ≤ (0x50 :: (snapshot [] [0]).drop 1).length := by
    rw [List.length_cons, List.length_drop]
    have := (headerValid_snapshot hfile).1
    omega
  have hdist : distance (dataBits ((snapshot [] [0]).take 64))
      (dataBits ((0x50 :: (snapshot [] [0]).drop 1).take 64)) ≤ 3 := by decide +kernel
  have hne : (0x50 :: (snapshot [] [0]).drop 1).take 64 ≠ (snapshot [] [0]).take 64 := by
    decide +kernel
  exact ⟨_, hfile, mt (buildV09Snapshot_detects hfile hlen hdist).mp hne⟩

end ImpulseTools

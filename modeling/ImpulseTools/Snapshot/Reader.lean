import ImpulseTools.Snapshot.Build

/-! # Reading a snapshot back

A reader that takes nothing on trust: every field, every length and every byte of padding is
compared with what `build_v09_snapshot` would write. It is the inverse of the builder.
-/

namespace ImpulseTools

open Layout (le slice roundUp)

/-- The number of domains, from a header that is otherwise the one that is written for it. -/
def readHeader (file : List Byte) : Option ℕ := do
  let record ← readStruct snapshotHeader file 0
  let count ← record.lookup (chars "domain_count")
  let expected := headerValues count (crc16 (file.take 0x3E))
  if record = expected.map fun p => (p.1.1, p.2) then some count else none

/-- The name offset of the domain `i`, from a record that is otherwise the one written for it. -/
def readDomain (file : List Byte) (base i : ℕ) : Option ℕ := do
  let record ← readStruct domainCatalogEntry file base
  let nameOff ← record.lookup (chars "name_offset")
  if record = (domainValues i nameOff).map fun p => (p.1.1, p.2) then some nameOff else none

def readDomains (file : List Byte) (start i : ℕ) : ℕ → Option (List ℕ)
  | 0 => some []
  | n + 1 => do
    let nameOff ← readDomain file (start + 16 * i) i
    let nameOffs ← readDomains file start (i + 1) n
    return nameOff :: nameOffs

def readSnapshot (file : List Byte) : Option (List Byte × List ℕ) := do
  let count ← readHeader file
  let size ← readU32 file 4096
  let catalog := roundUp 128 (4 + size)
  let used := catalog + 16 * count
  let nameOffs ← readDomains file (4096 + catalog) 0 count
  if file.length = 4096 + roundUp 4096 used ∧
      slice file (4100 + size) (catalog - (4 + size)) =
        List.replicate (catalog - (4 + size)) 0 ∧
      slice file (4096 + used) (roundUp 4096 used - used) =
        List.replicate (roundUp 4096 used - used) 0 then
    some (slice file 4100 size, nameOffs)
  else none

variable {file : List Byte}

theorem readStruct_eq_some {s : StructDef} {l : List ((Text × ℕ) × ℕ)} {base size : ℕ}
    (hs : layoutsV09.bind (·.lookup s.name) = some (packed (l.map Prod.fst)))
    (hsize : Layout.total (l.map Prod.fst) = size) :
    readStruct s file base = some (l.map fun p => (p.1.1, p.2)) ↔
      base + size ≤ file.length ∧ slice file base size = Layout.encode l ∧
        ∀ p ∈ l, p.2 < 256 ^ p.1.2 := by
  subst hsize
  constructor
  · intro h
    obtain ⟨layouts, hlayouts, hlookup⟩ := Option.bind_eq_some_iff.mp hs
    rw [readStruct, hlayouts] at h
    simp only [Option.bind_eq_bind, Option.bind_some, hlookup] at h
    split at h
    · rename_i hfits
      exact ⟨hfits, Layout.slice_of_read base 0 hfits (Option.some.inj h)⟩
    · cases h
  · rintro ⟨hfits, hslice, hl⟩
    have hfile : file = file.take base ++ (Layout.encode l ++
        file.drop (base + Layout.total (l.map Prod.fst))) := by
      rw [← hslice, slice, ← List.append_assoc, ← List.take_add, List.take_append_drop]
    have hbase : (file.take base).length = base := by
      rw [List.length_take]
      omega
    have hread := readStruct_ok hs hl (file.take base)
      (file.drop (base + Layout.total (l.map Prod.fst)))
    rwa [← hfile, hbase] at hread

theorem readU32_eq_some {off n : ℕ} :
    readU32 file off = some n ↔ off + 4 ≤ file.length ∧ slice file off 4 = le 4 n ∧ n < 2 ^ 32 := by
  rw [readU32]
  constructor
  · intro h
    split at h
    · rename_i hfits
      have hlen : (slice file off 4).length = 4 := Layout.slice_length hfits
      obtain rfl := Option.some.inj h
      have hle := Layout.le_value (slice file off 4)
      have hlt := Layout.value_lt (slice file off 4)
      rw [hlen] at hle hlt
      exact ⟨hfits, hle.symm, hlt⟩
    · cases h
  · rintro ⟨hfits, hslice, hn⟩
    rw [if_pos hfits, hslice, Layout.value_le hn]

/-- A record that is compared with the one expected for a number that is read from it. -/
theorem checked_eq_some {ρ ν : Type} [DecidableEq ρ] {read : Option ρ} {get : ρ → Option ν}
    {expected : ν → ρ} {n : ν} (hget : get (expected n) = some n) :
    (do
      let record ← read
      let m ← get record
      if record = expected m then some m else none) = some n ↔ read = some (expected n) := by
  simp only [Option.bind_eq_bind, Option.bind_eq_some_iff]
  constructor
  · rintro ⟨record, hread, m, -, h⟩
    split at h
    · rename_i hrecord
      obtain rfl := Option.some.inj h
      rw [hread, hrecord]
    · cases h
  · intro hread
    exact ⟨_, hread, n, hget, if_pos rfl⟩

theorem headerValues_fit {n c : ℕ} (hc : c < 2 ^ 16) :
    (∀ p ∈ headerValues n c, p.2 < 256 ^ p.1.2) ↔ n ≤ 65535 := by
  have hzero (k : ℕ) : 0 < 256 ^ k := Nat.pow_pos (by decide)
  simp only [headerValues, List.forall_mem_cons]
  constructor
  · rintro ⟨-, -, -, hn, -⟩
    omega
  · intro hn
    refine ⟨by decide, by decide, by decide, by omega, by decide, by decide, by decide, by decide,
      hzero _, hzero _, hc, hzero _, ?_⟩
    exact fun _ h => absurd h List.not_mem_nil

theorem readHeader_eq_some {n : ℕ} : readHeader file = some n ↔ 4096 ≤ file.length ∧
    slice file 0 4096 = Layout.encode (headerValues n (crc16 (headerStart n))) ∧ n ≤ 65535 := by
  have hlayout (c : ℕ) : layoutsV09.bind (·.lookup snapshotHeader.name) =
      some (packed ((headerValues n c).map Prod.fst)) := layoutsV09_lookup.1
  have hsize (c : ℕ) : Layout.total ((headerValues n c).map Prod.fst) = 4096 := by
    simp [headerValues, Layout.total]
  have hcount : readHeader file = some n ↔ readStruct snapshotHeader file 0 =
      some ((headerValues n (crc16 (file.take 0x3E))).map fun p => (p.1.1, p.2)) :=
    checked_eq_some rfl
  have htake {c : ℕ} (h : slice file 0 4096 = Layout.encode (headerValues n c)) :
      file.take 0x3E = headerStart n := by
    have hpage : file.take 0x3E = (slice file 0 4096).take 0x3E := by
      rw [slice, List.drop_zero, List.take_take, Nat.min_eq_left (by decide)]
    rw [hpage, h, encode_headerValues, List.append_assoc, ← length_headerStart n, List.take_left]
  rw [hcount, readStruct_eq_some (hlayout _) (hsize _), headerValues_fit (crc16_lt _), Nat.zero_add]
  refine and_congr_right fun _ => and_congr_left fun _ => ?_
  constructor
  · intro h
    rw [h, htake h]
  · intro h
    rw [h, htake h]

theorem readDomain_eq_some {base i o : ℕ} : readDomain file base i = some o ↔
    base + 16 ≤ file.length ∧ slice file base 16 = Layout.encode (domainValues i o) ∧
      i < 65536 ∧ o < 2 ^ 32 := by
  have hlayout : layoutsV09.bind (·.lookup domainCatalogEntry.name) =
      some (packed ((domainValues i o).map Prod.fst)) := layoutsV09_lookup.2
  have hsize : Layout.total ((domainValues i o).map Prod.fst) = 16 := rfl
  have hoff : readDomain file base i = some o ↔ readStruct domainCatalogEntry file base =
      some ((domainValues i o).map fun p => (p.1.1, p.2)) := checked_eq_some rfl
  have hfit : (∀ p ∈ domainValues i o, p.2 < 256 ^ p.1.2) ↔ i < 65536 ∧ o < 2 ^ 32 := by
    simp only [domainValues, List.forall_mem_cons]
    constructor
    · rintro ⟨hi, -, -, ho, -⟩
      omega
    · rintro ⟨hi, ho⟩
      refine ⟨by omega, by decide, by decide, by omega, by decide, ?_⟩
      exact fun _ h => absurd h List.not_mem_nil
  rw [hoff, readStruct_eq_some hlayout hsize, hfit]

theorem readDomains_eq_some {start i n : ℕ} {offs : List ℕ}
    (hfits : start + 16 * (i + n) ≤ file.length) (hn : i + n ≤ 65536) :
    readDomains file start i n = some offs ↔ offs.length = n ∧ (∀ o ∈ offs, o < 2 ^ 32) ∧
      slice file (start + 16 * i) (16 * n) =
        (offs.zipIdx i).flatMap fun d => Layout.encode (domainValues d.2 d.1) := by
  induction n generalizing i offs with
  | zero =>
    rw [readDomains, Option.some.injEq]
    constructor
    · rintro rfl
      exact ⟨rfl, fun _ h => absurd h List.not_mem_nil, rfl⟩
    · rintro ⟨hlen, -⟩
      exact (List.length_eq_zero_iff.mp hlen).symm
  | succ n ih =>
    have hlen (o : ℕ) : (Layout.encode (domainValues i o)).length = 16 := by
      simp [Layout.length_encode, domainValues, Layout.total]
    have hnext : start + 16 * i + 16 = start + 16 * (i + 1) := by omega
    have hslice : slice file (start + 16 * i) (16 * (n + 1)) =
        slice file (start + 16 * i) 16 ++ slice file (start + 16 * (i + 1)) (16 * n) := by
      rw [Nat.mul_succ, Nat.add_comm (16 * n), Layout.slice_add, hnext]
    rw [readDomains]
    simp only [Option.bind_eq_bind, Option.bind_eq_some_iff, pure, Option.some.injEq,
      readDomain_eq_some, ih (i := i + 1) (by omega) (by omega)]
    constructor
    · rintro ⟨o, ⟨-, hrecord, -, ho⟩, offs, ⟨rfl, hoffs, hrecords⟩, rfl⟩
      refine ⟨rfl, List.forall_mem_cons.mpr ⟨ho, hoffs⟩, ?_⟩
      rw [hslice, hrecord, hrecords, List.zipIdx_cons, List.flatMap_cons]
    · rintro ⟨hcount, hoffs, hrecords⟩
      cases offs with
      | nil => cases hcount
      | cons o offs =>
        obtain ⟨ho, hoffs⟩ := List.forall_mem_cons.mp hoffs
        rw [hslice, List.zipIdx_cons, List.flatMap_cons] at hrecords
        obtain ⟨hrecord, hrest⟩ := List.append_inj hrecords (by
          rw [hlen, Layout.slice_length (by omega)])
        exact ⟨o, ⟨by omega, hrecord, by omega, ho⟩, offs,
          ⟨Nat.succ.inj hcount, hoffs, hrest⟩, rfl⟩

variable {pool : List Byte} {offs : List ℕ}

def used (pool : List Byte) (offs : List ℕ) : ℕ := roundUp 128 (4 + pool.length) + 16 * offs.length

/-- The header, the string table and the catalog, each of the last two with its padding. -/
def parts (pool : List Byte) (offs : List ℕ) : List (List Byte) := [
  Layout.encode (headerValues offs.length (crc16 (headerStart offs.length))),
  le 4 pool.length,
  pool,
  List.replicate (roundUp 128 (4 + pool.length) - (4 + pool.length)) 0,
  (catalog offs).flatten,
  List.replicate (roundUp 4096 (used pool offs) - used pool offs) 0]

theorem flatten_parts (pool : List Byte) (offs : List ℕ) :
    (parts pool offs).flatten = snapshot pool offs := by
  have hpool : (le 4 pool.length ++ pool).length = 4 + pool.length := by
    rw [List.length_append, Layout.length_le]
  have htable : (stringTable pool ++ (catalog offs).flatten).length = used pool offs := by
    rw [List.length_append, stringTable, Layout.length_align, hpool, length_catalog_flatten, used]
  rw [snapshot, Layout.align_eq, htable, stringTable, Layout.align_eq, hpool]
  simp [parts]

theorem snapshot_eq_iff : snapshot pool offs = file ↔
    slice file 0 4096 =
        Layout.encode (headerValues offs.length (crc16 (headerStart offs.length))) ∧
      slice file 4096 4 = le 4 pool.length ∧
      slice file 4100 pool.length = pool ∧
      slice file (4100 + pool.length) (roundUp 128 (4 + pool.length) - (4 + pool.length)) =
        List.replicate (roundUp 128 (4 + pool.length) - (4 + pool.length)) 0 ∧
      slice file (4096 + roundUp 128 (4 + pool.length)) (16 * offs.length) =
        (catalog offs).flatten ∧
      slice file (4096 + used pool offs) (roundUp 4096 (used pool offs) - used pool offs) =
        List.replicate (roundUp 4096 (used pool offs) - used pool offs) 0 ∧
      file.length = 4096 + roundUp 4096 (used pool offs) := by
  have h128 := Layout.le_roundUp 128 (4 + pool.length)
  have hcatalog : 4096 + 4 + pool.length +
      (roundUp 128 (4 + pool.length) - (4 + pool.length)) =
        4096 + roundUp 128 (4 + pool.length) := by omega
  have hused : 4096 + roundUp 128 (4 + pool.length) + 16 * offs.length =
      4096 + used pool offs := by
    rw [used, Nat.add_assoc]
  have hend : 4096 + used pool offs + (roundUp 4096 (used pool offs) - used pool offs) =
      4096 + roundUp 4096 (used pool offs) := by
    have := Layout.le_roundUp 4096 (used pool offs)
    omega
  have hparts : Layout.Parts file 0 (parts pool offs) ↔ snapshot pool offs = file := by
    rw [Layout.parts_iff (Nat.zero_le _), flatten_parts, List.drop_zero]
  rw [← hparts]
  simp only [parts, Layout.Parts, length_encode_headerValues, Layout.length_le,
    List.length_replicate, length_catalog_flatten, Nat.zero_add, hcatalog, hused, hend]

theorem readSnapshot_eq_some : readSnapshot file = some (pool, offs) ↔ pool.length < 2 ^ 32 ∧
    (offs.length ≤ 65535 ∧ ∀ o ∈ offs, o < 2 ^ 32) ∧ snapshot pool offs = file := by
  have h4096 (n : ℕ) := Layout.le_roundUp 4096 n
  rw [snapshot_eq_iff, readSnapshot]
  simp only [Option.bind_eq_bind, Option.bind_eq_some_iff]
  constructor
  · rintro ⟨n, hcount, size, hsize, offs', hoffs, h⟩
    split at h
    · rename_i hcond
      obtain ⟨hlen, hpad, hrest⟩ := hcond
      obtain ⟨hpool, rfl⟩ := Prod.mk.inj (Option.some.inj h)
      obtain ⟨-, hheader, hn⟩ := readHeader_eq_some.mp hcount
      obtain ⟨-, hword, hlt⟩ := readU32_eq_some.mp hsize
      have hstop := h4096 (roundUp 128 (4 + size) + 16 * n)
      obtain rfl : pool.length = size := by
        have := Layout.le_roundUp 128 (4 + size)
        rw [← hpool, Layout.slice_length (by omega)]
      obtain ⟨rfl, hrange, hrecords⟩ := (readDomains_eq_some (by omega) (by omega)).mp hoffs
      exact ⟨hlt, ⟨hn, hrange⟩, hheader, hword, hpool, hpad, hrecords, hrest, hlen⟩
    · cases h
  · rintro ⟨hlt, ⟨hn, hrange⟩, hheader, hword, hpool, hpad, hrecords, hrest, hlen⟩
    have hstop := h4096 (used pool offs)
    have h128 := Layout.le_roundUp 128 (4 + pool.length)
    have hused : used pool offs = roundUp 128 (4 + pool.length) + 16 * offs.length := rfl
    refine ⟨offs.length, readHeader_eq_some.mpr ⟨by omega, hheader, hn⟩, pool.length,
      readU32_eq_some.mpr ⟨by omega, hword, hlt⟩, offs, ?_, ?_⟩
    · exact (readDomains_eq_some (by omega) (by omega)).mpr ⟨rfl, hrange, hrecords⟩
    · rw [if_pos ⟨hlen, hpad, hrest⟩, hpool]

/-- The builder and the reader are inverse to each other. -/
theorem buildV09Snapshot_eq_ok_iff (pool : List Byte) (nameOffsets : List ℤ) (file : List Byte) :
    buildV09Snapshot pool nameOffsets = .ok file ↔
      ∃ offs : List ℕ, offs.map Nat.cast = nameOffsets ∧ readSnapshot file = some (pool, offs) := by
  rw [buildV09Snapshot_eq_ok]
  simp only [readSnapshot_eq_some]
  constructor
  · rintro ⟨hpool, offs, hrange, hoffs, hfile⟩
    exact ⟨offs, hoffs, hpool, hrange, hfile⟩
  · rintro ⟨offs, hoffs, hpool, hrange, hfile⟩
    exact ⟨hpool, offs, hrange, hoffs, hfile⟩

end ImpulseTools

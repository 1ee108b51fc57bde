import ImpulseTools.Lib.Concat
import ImpulseTools.Snapshot.Schema

/-! # Snapshot files

`generate_string_fuzz_vectors.py`: the file `build_v09_snapshot` writes, and what is read from it
with the packed structs of the schema.
-/

namespace ImpulseTools

open Layout (le slice)

/-- One turn of the inner loop of `crc16`. -/
def crcBit (crc : ℕ) : ℕ :=
  if crc &&& 0x8000 ≠ 0 then ((crc <<< 1) ^^^ 0x1021) &&& 0xFFFF else (crc <<< 1) &&& 0xFFFF

def crc16 (data : List Byte) : ℕ :=
  data.foldl (fun crc b => crcBit^[8] (crc ^^^ (b.toNat <<< 8))) 0xFFFF

def alignBuffer (buf : List Byte) (align : ℕ) : List Byte :=
  let rem := buf.length % align
  if rem ≠ 0 then buf ++ List.replicate (align - rem) 0 else buf

/-- `struct.pack` of an unsigned little-endian number of `k` bytes. -/
def packUInt (k : ℕ) (v : ℤ) : Except PyErr (List Byte) :=
  if 0 ≤ v ∧ v < 256 ^ k then .ok (le k v.toNat) else .error .packRange

/-- `struct.pack_into`, with the size in place of the format. -/
def packInto (buf : List Byte) (k off : ℕ) (v : ℤ) : Except PyErr (List Byte) := do
  return Layout.overwrite buf off (← packUInt k v)

/-- The header: a page of zeros with the fields written into it. -/
def buildHeader (domainCount : ℕ) : Except PyErr (List Byte) := do
  let hdr := List.replicate 4096 0
  let hdr ← packInto hdr 4 0 0x494D5053
  let hdr ← packInto hdr 2 4 9
  let hdr ← packInto hdr 4 6 4096
  let hdr ← packInto hdr 2 10 domainCount
  let hdr ← packInto hdr 2 12 0
  let hdr ← packInto hdr 8 14 1700000000000
  let hdr ← packInto hdr 8 22 1
  let checksum := crc16 (hdr.take 0x3E)
  packInto hdr 2 0x3E checksum

def packFields (fields : List (ℕ × ℤ)) : Except PyErr (List Byte) :=
  List.flatten <$> fields.mapM fun f => packUInt f.1 f.2

def buildDomain (i : ℕ) (nameOff : ℤ) : Except PyErr (List Byte) := do
  -- `dom_bytes`, which is not used
  let _ ← packFields [(2, i), (1, 3), (1, 0), (4, nameOff), (4, 0)]
  packFields [(2, i), (1, 3), (1, 0), (4, nameOff), (8, 0)]

/-- The string table and the domain catalog, up to the end of the page. -/
def buildDirectory (pool : List Byte) (nameOffsets : List ℤ) : Except PyErr (List Byte) := do
  let strBytesLen ← packUInt 4 pool.length
  let table := alignBuffer (strBytesLen ++ pool) 128
  let domains ← nameOffsets.zipIdx.mapM fun d => buildDomain d.2 d.1
  return alignBuffer (table ++ domains.flatten) 4096

/-- The bytes `build_v09_snapshot` writes to `snapshot.imps`. -/
def buildV09Snapshot (pool : List Byte) (nameOffsets : List ℤ) : Except PyErr (List Byte) := do
  let hdr ← buildHeader nameOffsets.length
  let dirTable ← buildDirectory pool nameOffsets
  return hdr ++ dirTable

/-- The packed structs that `render_cpp_header` writes for version 0.9. -/
def layoutsV09 : Option (List (Text × StructLayout)) :=
  (renderCppHeader schemaV09).toOption.bind cLayouts

def readStruct (s : StructDef) (file : List Byte) (base : ℕ) : Option (List (Text × ℕ)) := do
  let layout ← (← layoutsV09).lookup s.name
  if base + layout.size ≤ file.length then some (Layout.read layout.slots file base) else none

def readU32 (file : List Byte) (off : ℕ) : Option ℕ :=
  if off + 4 ≤ file.length then some (Layout.value (slice file off 4)) else none

theorem crcBit_lt (crc : ℕ) : crcBit crc < 2 ^ 16 := by
  unfold crcBit
  split
  · exact Nat.and_lt_two_pow _ (by decide)
  · exact Nat.and_lt_two_pow _ (by decide)

theorem crc16_lt (data : List Byte) : crc16 data < 2 ^ 16 := by
  rw [crc16]
  rcases List.eq_nil_or_concat data with rfl | ⟨data, b, rfl⟩
  · decide
  · rw [List.concat_eq_append, List.foldl_append, List.foldl_cons, List.foldl_nil,
      Function.iterate_succ_apply']
    exact crcBit_lt _

theorem alignBuffer_eq (buf : List Byte) {a : ℕ} (ha : 0 < a) :
    alignBuffer buf a = Layout.align a 0 buf := by
  have hlt : buf.length % a < a := Nat.mod_lt _ ha
  unfold alignBuffer Layout.align
  dsimp only
  split
  · rw [Nat.mod_eq_of_lt (show a - buf.length % a < a by omega)]
  · rename_i h
    rw [not_not.mp h, Nat.sub_zero, Nat.mod_self, List.replicate_zero, List.append_nil]

theorem packUInt_ok {k n : ℕ} (h : n < 256 ^ k) : packUInt k n = .ok (le k n) := by
  have hn : (0 : ℤ) ≤ n ∧ (n : ℤ) < 256 ^ k := ⟨Int.natCast_nonneg n, by exact_mod_cast h⟩
  rw [packUInt, if_pos hn, Int.toNat_natCast]

theorem packInto_ok {pre : List Byte} {k off m m' n : ℕ} (hoff : pre.length = off)
    (hm : m - k = m') (hn : n < 256 ^ k) : packInto (pre ++ List.replicate m 0) k off n =
      .ok (pre ++ le k n ++ List.replicate m' 0) := by
  have hw := Layout.overwrite_replicate pre (le k n) 0 m
  rw [Layout.length_le, hoff, hm] at hw
  rw [packInto, packUInt_ok hn, ← hw]
  rfl

def headerValues (domainCount checksum : ℕ) : List ((Text × ℕ) × ℕ) := [
  ((chars "magic", 4), 0x494D5053),
  ((chars "version", 2), 9),
  ((chars "data_offset", 4), 4096),
  ((chars "domain_count", 2), domainCount),
  ((chars "relation_count", 2), 0),
  ((chars "timestamp_ms", 8), 1700000000000),
  ((chars "required_features", 8), 1),
  ((chars "footer_directory_offset", 8), 0),
  ((chars "footer_directory_bytes", 8), 0),
  ((chars "snapshot_uuid", 16), 0),
  ((chars "header_checksum", 2), checksum),
  ((chars "header_padding", 4032), 0)]

def headerStart (domainCount : ℕ) : List Byte :=
  Layout.encode ((headerValues domainCount 0).take 10)

theorem encode_headerValues (n c : ℕ) : Layout.encode (headerValues n c) =
    headerStart n ++ le 2 c ++ List.replicate 4032 0 := by
  rw [← Layout.le_zero]
  simp [headerStart, headerValues, Layout.encode]

theorem length_headerStart (n : ℕ) : (headerStart n).length = 62 := by
  rw [headerStart, Layout.length_encode]
  rfl

theorem buildHeader_ok {n : ℕ} (hn : n ≤ 65535) :
    buildHeader n = .ok (Layout.encode (headerValues n (crc16 (headerStart n)))) := by
  have h₁ : packInto (List.replicate 4096 0) 4 0 0x494D5053 =
      .ok (le 4 0x494D5053 ++ List.replicate 4092 0) := by
    have h : packInto ([] ++ List.replicate 4096 0) 4 0 0x494D5053 =
        .ok ([] ++ le 4 0x494D5053 ++ List.replicate 4092 0) :=
      packInto_ok (n := 0x494D5053) rfl rfl (by decide)
    rwa [List.nil_append, List.nil_append] at h
  have h₂ : packInto (le 4 0x494D5053 ++ List.replicate 4092 0) 2 4 9 =
      .ok (le 4 0x494D5053 ++ le 2 9 ++ List.replicate 4090 0) :=
    packInto_ok (n := 9) rfl rfl (by decide)
  have h₃ : packInto (le 4 0x494D5053 ++ le 2 9 ++ List.replicate 4090 0) 4 6 4096 =
      .ok (le 4 0x494D5053 ++ le 2 9 ++ le 4 4096 ++ List.replicate 4086 0) :=
    packInto_ok (n := 4096) rfl rfl (by decide)
  have h₄ : packInto (le 4 0x494D5053 ++ le 2 9 ++ le 4 4096 ++ List.replicate 4086 0) 2 10 n =
      .ok (le 4 0x494D5053 ++ le 2 9 ++ le 4 4096 ++ le 2 n ++ List.replicate 4084 0) :=
    packInto_ok rfl rfl (by omega)
  generalize hpre : le 4 0x494D5053 ++ le 2 9 ++ le 4 4096 ++ le 2 n = pre at h₄
  have hlen : pre.length = 12 := by
    rw [← hpre]
    rfl
  have h₅ : packInto (pre ++ List.replicate 4084 0) 2 12 0 =
      .ok (pre ++ le 2 0 ++ List.replicate 4082 0) :=
    packInto_ok (n := 0) hlen rfl (by decide)
  have h₆ : packInto (pre ++ le 2 0 ++ List.replicate 4082 0) 8 14 1700000000000 =
      .ok (pre ++ le 2 0 ++ le 8 1700000000000 ++ List.replicate 4074 0) :=
    packInto_ok (n := 1700000000000) (by rw [List.length_append, hlen]; rfl) rfl (by decide)
  have h₇ : packInto (pre ++ le 2 0 ++ le 8 1700000000000 ++ List.replicate 4074 0) 8 22 1 =
      .ok (pre ++ le 2 0 ++ le 8 1700000000000 ++ le 8 1 ++ List.replicate 4066 0) :=
    packInto_ok (n := 1)
      (by rw [List.length_append, List.length_append, hlen]; rfl) rfl (by decide)
  have hstart : pre ++ le 2 0 ++ le 8 1700000000000 ++ le 8 1 ++ List.replicate 4066 0 =
      headerStart n ++ List.replicate 4034 0 := by
    have hzeros : List.replicate 4066 (0 : Byte) =
        le 8 0 ++ (le 8 0 ++ le 16 0) ++ List.replicate 4034 0 := by
      rw [Layout.le_zero, Layout.le_zero, List.replicate_append_replicate,
        List.replicate_append_replicate, List.replicate_append_replicate]
    have hfields : pre ++ le 2 0 ++ le 8 1700000000000 ++ le 8 1 ++
        (le 8 0 ++ (le 8 0 ++ le 16 0)) = headerStart n := by
      rw [← hpre]
      simp [headerStart, headerValues, Layout.encode]
    rw [hzeros, ← hfields, List.append_assoc (pre ++ le 2 0 ++ le 8 1700000000000 ++ le 8 1)]
  rw [hstart] at h₇
  have htake : (headerStart n ++ List.replicate 4034 0).take 0x3E = headerStart n := by
    rw [← length_headerStart n, List.take_left]
  have hcrc : crc16 (headerStart n) < 256 ^ 2 := crc16_lt _
  have h₈ : packInto (headerStart n ++ List.replicate 4034 0) 2 0x3E
      (crc16 ((headerStart n ++ List.replicate 4034 0).take 0x3E)) =
      .ok (headerStart n ++ le 2 (crc16 (headerStart n)) ++ List.replicate 4032 0) := by
    rw [htake]
    exact packInto_ok (length_headerStart n) rfl hcrc
  rw [buildHeader, encode_headerValues]
  simp only [ExceptFold.bind_eq_ok]
  exact ⟨_, h₁, _, h₂, _, h₃, _, h₄, _, h₅, _, h₆, _, h₇, h₈⟩

def domainValues (i nameOff : ℕ) : List ((Text × ℕ) × ℕ) := [
  ((chars "domain_id", 2), i),
  ((chars "key_type", 1), 3),
  ((chars "reserved", 1), 0),
  ((chars "name_offset", 4), nameOff),
  ((chars "node_count", 8), 0)]

theorem packFields_ok {fields : List (ℕ × ℕ)} (h : ∀ f ∈ fields, f.2 < 256 ^ f.1) :
    packFields (fields.map fun f => (f.1, (f.2 : ℤ))) =
      .ok (fields.flatMap fun f => le f.1 f.2) := by
  rw [packFields, List.mapM_map, ExceptFold.mapM_ok (g := fun f => le f.1 f.2)]
  · rfl
  · intro f hf
    exact packUInt_ok (h f hf)

theorem buildDomain_ok {i nameOff : ℕ} (hi : i < 65536) (hoff : nameOff < 2 ^ 32) :
    buildDomain i nameOff = .ok (Layout.encode (domainValues i nameOff)) := by
  have hfields (k : ℕ) : ∀ f ∈ [(2, i), (1, 3), (1, 0), (4, nameOff), (k, 0)],
      f.2 < 256 ^ f.1 := by
    simp only [List.forall_mem_cons]
    refine ⟨by omega, by decide, by decide, by omega, Nat.pow_pos (by decide), ?_⟩
    exact fun _ h => absurd h List.not_mem_nil
  have h₁ := packFields_ok (hfields 4)
  have h₂ := packFields_ok (hfields 8)
  rw [buildDomain, ExceptFold.bind_eq_ok]
  exact ⟨_, h₁, h₂⟩

def stringTable (pool : List Byte) : List Byte := Layout.align 128 0 (le 4 pool.length ++ pool)

def catalog (nameOffsets : List ℕ) : List (List Byte) :=
  nameOffsets.zipIdx.map fun d => Layout.encode (domainValues d.2 d.1)

theorem buildDirectory_ok {pool : List Byte} {offs : List ℕ} (hpool : pool.length < 2 ^ 32)
    (hlen : offs.length ≤ 65535) (hoffs : ∀ o ∈ offs, o < 2 ^ 32) :
    buildDirectory pool (offs.map Nat.cast) =
      .ok (Layout.align 4096 0 (stringTable pool ++ (catalog offs).flatten)) := by
  have hdomains : (offs.map (Nat.cast : ℕ → ℤ)).zipIdx.mapM (fun d => buildDomain d.2 d.1) =
      .ok (catalog offs) := by
    rw [List.zipIdx_map, List.mapM_map]
    apply ExceptFold.mapM_ok
    rintro ⟨o, i⟩ hd
    have ho : offs[i]? = some o := List.mk_mem_zipIdx_iff_getElem?.mp hd
    have hi : i < offs.length := (List.getElem?_eq_some_iff.mp ho).1
    rw [Function.comp_apply, Prod.map_apply]
    exact buildDomain_ok (i := i) (by omega) (hoffs o (List.mem_of_getElem? ho))
  have hdir : buildDirectory pool (offs.map Nat.cast) =
      .ok (alignBuffer (alignBuffer (le 4 pool.length ++ pool) 128 ++ (catalog offs).flatten)
        4096) := by
    rw [buildDirectory]
    simp only [ExceptFold.bind_eq_ok]
    exact ⟨_, packUInt_ok (by omega), _, hdomains, rfl⟩
  rw [hdir, alignBuffer_eq _ (by decide), alignBuffer_eq _ (by decide), stringTable]

theorem layoutsV09_lookup :
    layoutsV09.bind (·.lookup snapshotHeader.name) =
        some (packed ((headerValues 0 0).map Prod.fst)) ∧
      layoutsV09.bind (·.lookup domainCatalogEntry.name) =
        some (packed ((domainValues 0 0).map Prod.fst)) := by
  decide +kernel

theorem readStruct_ok {s : StructDef} {l : List ((Text × ℕ) × ℕ)}
    (hs : layoutsV09.bind (·.lookup s.name) = some (packed (l.map Prod.fst)))
    (hl : ∀ p ∈ l, p.2 < 256 ^ p.1.2) (pre post : List Byte) :
    readStruct s (pre ++ (Layout.encode l ++ post)) pre.length =
      some (l.map fun p => (p.1.1, p.2)) := by
  obtain ⟨layouts, hlayouts, hlookup⟩ := Option.bind_eq_some_iff.mp hs
  have hfits : pre.length + (packed (l.map Prod.fst)).size ≤
      (pre ++ (Layout.encode l ++ post)).length := by
    simp only [packed, List.length_append, Layout.length_encode]
    omega
  rw [readStruct, hlayouts]
  simp only [Option.bind_eq_bind, Option.bind_some, hlookup, if_pos hfits]
  exact congrArg some (Layout.read_place hl (Nat.add_zero _) post)

theorem readU32_append (pre post : List Byte) {n : ℕ} (h : n < 2 ^ 32) :
    readU32 (pre ++ (le 4 n ++ post)) pre.length = some n := by
  have hfits : pre.length + 4 ≤ (pre ++ (le 4 n ++ post)).length := by
    simp only [List.length_append, Layout.length_le]
    omega
  have hslice := Layout.slice_append pre (le 4 n) post
  rw [Layout.length_le] at hslice
  rw [readU32, if_pos hfits, hslice, Layout.value_le h]

def snapshot (pool : List Byte) (offs : List ℕ) : List Byte :=
  Layout.encode (headerValues offs.length (crc16 (headerStart offs.length))) ++
    Layout.align 4096 0 (stringTable pool ++ (catalog offs).flatten)

def catalogStart (pool : List Byte) : ℕ := 4096 + Layout.roundUp 128 (4 + pool.length)

variable {pool : List Byte} {offs : List ℕ}

theorem buildV09Snapshot_ok (hpool : pool.length < 2 ^ 32) (hlen : offs.length ≤ 65535)
    (hoffs : ∀ o ∈ offs, o < 2 ^ 32) :
    buildV09Snapshot pool (offs.map Nat.cast) = .ok (snapshot pool offs) := by
  rw [buildV09Snapshot, ExceptFold.bind_eq_ok, List.length_map]
  refine ⟨_, buildHeader_ok hlen, ?_⟩
  rw [ExceptFold.bind_eq_ok]
  exact ⟨_, buildDirectory_ok hpool hlen hoffs, rfl⟩

theorem packUInt_eq_ok {k : ℕ} {v : ℤ} {bs : List Byte} :
    packUInt k v = .ok bs ↔ (0 ≤ v ∧ v < 256 ^ k) ∧ le k v.toNat = bs := by
  rw [packUInt]
  split
  · rename_i h
    rw [Except.ok.injEq, and_iff_right h]
  · rename_i h
    exact iff_of_false nofun fun hv => h hv.1

theorem le_of_buildHeader {n : ℕ} {hdr : List Byte} (h : buildHeader n = .ok hdr) : n ≤ 65535 := by
  obtain ⟨_, -, h⟩ := (ExceptFold.bind_eq_ok ..).mp h
  obtain ⟨_, -, h⟩ := (ExceptFold.bind_eq_ok ..).mp h
  obtain ⟨_, -, h⟩ := (ExceptFold.bind_eq_ok ..).mp h
  obtain ⟨_, hcount, -⟩ := (ExceptFold.bind_eq_ok ..).mp h
  obtain ⟨_, hpack, -⟩ := (ExceptFold.bind_eq_ok ..).mp hcount
  have := (packUInt_eq_ok.mp hpack).1.2
  omega

theorem range_of_buildDomain {i : ℕ} {v : ℤ} {bs : List Byte} (h : buildDomain i v = .ok bs) :
    0 ≤ v ∧ v < 256 ^ 4 := by
  obtain ⟨_, hpack, -⟩ := (ExceptFold.bind_eq_ok ..).mp h
  obtain ⟨_, hpack, -⟩ := ExceptFold.map_eq_ok.mp hpack
  have hmem : ((4 : ℕ), v) ∈ [(2, (i : ℤ)), (1, 3), (1, 0), (4, v), (4, 0)] := by simp
  obtain ⟨_, -, hv⟩ := ExceptFold.exists_of_mem_left (ExceptFold.mapM_eq_ok.mp hpack) hmem
  exact (packUInt_eq_ok.mp hv).1

theorem buildV09Snapshot_eq_ok {nameOffsets : List ℤ} {file : List Byte} :
    buildV09Snapshot pool nameOffsets = .ok file ↔ pool.length < 2 ^ 32 ∧
      ∃ offs : List ℕ, (offs.length ≤ 65535 ∧ ∀ o ∈ offs, o < 2 ^ 32) ∧
        offs.map Nat.cast = nameOffsets ∧ snapshot pool offs = file := by
  constructor
  · intro h
    have h' := h
    obtain ⟨hdr, hhdr, h⟩ := (ExceptFold.bind_eq_ok ..).mp h
    obtain ⟨dir, hdir, -⟩ := (ExceptFold.bind_eq_ok ..).mp h
    obtain ⟨_, hsize, hdir⟩ := (ExceptFold.bind_eq_ok ..).mp hdir
    obtain ⟨_, hdomains, -⟩ := (ExceptFold.bind_eq_ok ..).mp hdir
    have hpool : pool.length < 2 ^ 32 := by
      have := (packUInt_eq_ok.mp hsize).1.2
      omega
    have hlen : nameOffsets.length ≤ 65535 := le_of_buildHeader hhdr
    have hrange : ∀ v ∈ nameOffsets, 0 ≤ v ∧ v < 256 ^ 4 := by
      intro v hv
      obtain ⟨i, hi⟩ := List.mem_iff_getElem?.mp hv
      obtain ⟨_, -, hd⟩ := ExceptFold.exists_of_mem_left (ExceptFold.mapM_eq_ok.mp hdomains)
        (List.mk_mem_zipIdx_iff_getElem?.mpr hi)
      exact range_of_buildDomain hd
    obtain ⟨offs, rfl⟩ : ∃ offs : List ℕ, offs.map Nat.cast = nameOffsets := by
      refine ⟨nameOffsets.map Int.toNat, ?_⟩
      have hcast : ∀ v ∈ nameOffsets, (Nat.cast ∘ Int.toNat) v = id v :=
        fun v hv => Int.toNat_of_nonneg (hrange v hv).1
      rw [List.map_map, List.map_congr_left hcast, List.map_id]
    rw [List.length_map] at hlen
    have hoffs : ∀ o ∈ offs, o < 2 ^ 32 := by
      intro o ho
      have := (hrange o (List.mem_map_of_mem ho)).2
      omega
    rw [buildV09Snapshot_ok hpool hlen hoffs] at h'
    exact ⟨hpool, offs, ⟨hlen, hoffs⟩, rfl, Except.ok.inj h'⟩
  · rintro ⟨hpool, offs, ⟨hlen, hoffs⟩, rfl, rfl⟩
    exact buildV09Snapshot_ok hpool hlen hoffs

theorem length_encode_headerValues (n c : ℕ) :
    (Layout.encode (headerValues n c)).length = 4096 := by
  simp [Layout.length_encode, headerValues, Layout.total]

theorem length_mem_catalog : ∀ b ∈ catalog offs, b.length = 16 := by
  intro b hb
  obtain ⟨d, -, rfl⟩ := List.mem_map.mp hb
  simp [Layout.length_encode, domainValues, Layout.total]

theorem length_catalog : (catalog offs).length = offs.length := by
  rw [catalog, List.length_map, List.length_zipIdx]

theorem offset_catalog {i : ℕ} (hi : i ≤ offs.length) :
    Concat.offset (catalog offs) i = 16 * i := by
  have hsizes : (catalog offs).map List.length = List.replicate offs.length 16 := by
    rw [List.eq_replicate_iff, List.length_map, length_catalog]
    refine ⟨rfl, ?_⟩
    rintro n hn
    obtain ⟨b, hb, rfl⟩ := List.mem_map.mp hn
    exact length_mem_catalog b hb
  rw [Concat.offset, hsizes, List.take_replicate, Nat.min_eq_left hi, List.sum_replicate_nat,
    Nat.mul_comm]

theorem length_catalog_flatten : (catalog offs).flatten.length = 16 * offs.length := by
  rw [← Concat.offset_length, length_catalog, offset_catalog le_rfl]

theorem take_snapshot : (snapshot pool offs).take 62 = headerStart offs.length := by
  rw [snapshot, encode_headerValues, List.append_assoc, List.append_assoc,
    ← length_headerStart offs.length, List.take_left]

theorem readHeader_snapshot (hlen : offs.length ≤ 65535) :
    readStruct snapshotHeader (snapshot pool offs) 0 =
      some ((headerValues offs.length (crc16 ((snapshot pool offs).take 62))).map
        fun p => (p.1.1, p.2)) := by
  have hcrc : crc16 (headerStart offs.length) < 256 ^ 2 := crc16_lt _
  have hzero (k : ℕ) : 0 < 256 ^ k := Nat.pow_pos (by decide)
  have hfit : ∀ p ∈ headerValues offs.length (crc16 (headerStart offs.length)),
      p.2 < 256 ^ p.1.2 := by
    simp only [headerValues, List.forall_mem_cons]
    refine ⟨by decide, by decide, by decide, by omega, by decide, by decide, by decide, by decide,
      hzero _, hzero _, hcrc, hzero _, ?_⟩
    exact fun _ h => absurd h List.not_mem_nil
  have hlayout : layoutsV09.bind (·.lookup snapshotHeader.name) = some (packed
      ((headerValues offs.length (crc16 (headerStart offs.length))).map Prod.fst)) :=
    layoutsV09_lookup.1
  have hread := readStruct_ok hlayout hfit []
    (Layout.align 4096 0 (stringTable pool ++ (catalog offs).flatten))
  rw [take_snapshot, snapshot]
  rwa [List.nil_append, List.length_nil] at hread

/-- The parts of the file: the header, the string table, zeros, the catalog, and zeros. -/
theorem exists_snapshot_eq (pool : List Byte) (offs : List ℕ) : ∃ page a b,
    snapshot pool offs = page ++ (le 4 pool.length ++ (pool ++ (List.replicate a 0 ++
      ((catalog offs).flatten ++ List.replicate b 0)))) ∧
    page = Layout.encode (headerValues offs.length (crc16 (headerStart offs.length))) ∧
    page.length = 4096 ∧ 4096 + (4 + (pool.length + a)) = catalogStart pool := by
  obtain ⟨a, ha, hlen⟩ := Layout.exists_align 128 0 (le 4 pool.length ++ pool)
  obtain ⟨b, hb, -⟩ := Layout.exists_align 4096 0 (stringTable pool ++ (catalog offs).flatten)
  refine ⟨_, a, b, ?_, rfl, length_encode_headerValues _ _, ?_⟩
  · rw [snapshot, hb, stringTable, ha]
    simp only [List.append_assoc]
  · rw [List.length_append, Layout.length_le] at hlen
    rw [catalogStart, ← hlen, Nat.add_assoc 4]

theorem readU32_snapshot (hpool : pool.length < 2 ^ 32) :
    readU32 (snapshot pool offs) 4096 = some pool.length := by
  obtain ⟨page, a, b, hfile, -, hpage, -⟩ := exists_snapshot_eq pool offs
  rw [hfile, ← hpage]
  exact readU32_append page _ hpool

theorem slice_snapshot : slice (snapshot pool offs) 4100 pool.length = pool := by
  obtain ⟨page, a, b, hfile, -, hpage, -⟩ := exists_snapshot_eq pool offs
  have hstart : (page ++ le 4 pool.length).length = 4100 := by
    rw [List.length_append, hpage, Layout.length_le]
  rw [hfile, ← List.append_assoc, ← hstart]
  exact Layout.slice_append _ pool _

theorem readDomain_snapshot (hlen : offs.length ≤ 65535) (hoffs : ∀ o ∈ offs, o < 2 ^ 32)
    {i o : ℕ} (hi : offs[i]? = some o) :
    readStruct domainCatalogEntry (snapshot pool offs) (catalogStart pool + 16 * i) =
      some ((domainValues i o).map fun p => (p.1.1, p.2)) := by
  obtain ⟨page, a, b, hfile, -, hpage, hstart⟩ := exists_snapshot_eq pool offs
  have hlt : i < offs.length := (List.getElem?_eq_some_iff.mp hi).1
  have hentry : (catalog offs)[i]? = some (Layout.encode (domainValues i o)) := by
    rw [catalog, List.getElem?_map, List.getElem?_zipIdx, hi]
    simp
  obtain ⟨pre, post, hflat, hpre⟩ := Concat.flatten_around hentry
  rw [offset_catalog hlt.le] at hpre
  have hfit : ∀ p ∈ domainValues i o, p.2 < 256 ^ p.1.2 := by
    have ho := hoffs o (List.mem_of_getElem? hi)
    simp only [domainValues, List.forall_mem_cons]
    refine ⟨by omega, by decide, by decide, by omega, by decide, ?_⟩
    exact fun _ h => absurd h List.not_mem_nil
  have hlayout : layoutsV09.bind (·.lookup domainCatalogEntry.name) =
      some (packed ((domainValues i o).map Prod.fst)) := layoutsV09_lookup.2
  have hbefore : (page ++ (le 4 pool.length ++ (pool ++ (List.replicate a 0 ++ pre)))).length =
      catalogStart pool + 16 * i := by
    simp only [List.length_append, Layout.length_le, List.length_replicate, hpage, hpre, ← hstart]
    omega
  have hread := readStruct_ok hlayout hfit
    (page ++ (le 4 pool.length ++ (pool ++ (List.replicate a 0 ++ pre))))
    (post ++ List.replicate b 0)
  rw [hbefore] at hread
  rw [hfile, hflat]
  simpa only [List.append_assoc] using hread

theorem dvd_length_snapshot : 4096 ∣ (snapshot pool offs).length := by
  rw [snapshot, List.length_append, length_encode_headerValues, Layout.length_align]
  exact Nat.dvd_add (Nat.dvd_refl _) (Layout.dvd_roundUp (by decide) _)

theorem zero_or_append {l l' : List Byte} {P : ℕ → Prop}
    (h : ∀ k b, l[k]? = some b → b = 0 ∨ P k)
    (h' : ∀ k b, l'[k]? = some b → b = 0 ∨ P (l.length + k)) :
    ∀ k b, (l ++ l')[k]? = some b → b = 0 ∨ P k := by
  intro k b hk
  rcases Nat.lt_or_ge k l.length with hlt | hge
  · rw [List.getElem?_append_left hlt] at hk
    exact h k b hk
  · rw [List.getElem?_append_right hge] at hk
    have := h' _ b hk
    rwa [Nat.add_sub_cancel' hge] at this

theorem zero_of_replicate {n k : ℕ} {b : Byte} (h : (List.replicate n 0)[k]? = some b) : b = 0 :=
  List.eq_of_mem_replicate (List.mem_of_getElem? h)

theorem zero_or_mem_snapshot : ∀ k b, (snapshot pool offs)[k]? = some b →
    b = 0 ∨ (k < 64 ∨ 4096 ≤ k ∧ k < 4100 + pool.length ∨
      catalogStart pool ≤ k ∧ k < catalogStart pool + 16 * offs.length) := by
  obtain ⟨page, a, b, hfile, hpage, hlen, hstart⟩ := exists_snapshot_eq pool offs
  have hlt {l : List Byte} {k : ℕ} {b : Byte} (h : l[k]? = some b) : k < l.length :=
    (List.getElem?_eq_some_iff.mp h).1
  rw [hfile]
  apply zero_or_append
  · rw [hpage, encode_headerValues]
    apply zero_or_append
    · intro k b hk
      have := hlt hk
      rw [List.length_append, length_headerStart, Layout.length_le] at this
      exact .inr (.inl this)
    · intro k b hk
      exact .inl (zero_of_replicate hk)
  rw [hlen]
  apply zero_or_append
  · intro k b hk
    have := hlt hk
    rw [Layout.length_le] at this
    exact .inr (.inr (.inl (by omega)))
  rw [Layout.length_le]
  apply zero_or_append
  · intro k b hk
    have := hlt hk
    exact .inr (.inr (.inl (by omega)))
  apply zero_or_append
  · intro k b hk
    exact .inl (zero_of_replicate hk)
  rw [List.length_replicate]
  apply zero_or_append
  · intro k b hk
    have := hlt hk
    rw [length_catalog_flatten] at this
    exact .inr (.inr (.inr (by omega)))
  · intro k b hk
    exact .inl (zero_of_replicate hk)

/-- What is read from a file with the packed structs of the schema is what it was built from, and
all bytes that nothing is read from are zero. -/
theorem buildV09Snapshot_reads {pool : List Byte} {nameOffsets : List ℤ}
    (hpool : pool.length < 2 ^ 32) (hlen : nameOffsets.length ≤ 65535)
    (hoffs : ∀ o ∈ nameOffsets, 0 ≤ o ∧ o < 2 ^ 32) :
    ∃ file, buildV09Snapshot pool nameOffsets = .ok file ∧
      readStruct snapshotHeader file 0 = some [
        (chars "magic", 0x494D5053),
        (chars "version", 9),
        (chars "data_offset", 4096),
        (chars "domain_count", nameOffsets.length),
        (chars "relation_count", 0),
        (chars "timestamp_ms", 1700000000000),
        (chars "required_features", 1),
        (chars "footer_directory_offset", 0),
        (chars "footer_directory_bytes", 0),
        (chars "snapshot_uuid", 0),
        (chars "header_checksum", crc16 (file.take 62)),
        (chars "header_padding", 0)] ∧
      readU32 file 4096 = some pool.length ∧
      slice file 4100 pool.length = pool ∧
      (∀ i o, nameOffsets[i]? = some o →
        readStruct domainCatalogEntry file
            (4096 + Layout.roundUp 128 (4 + pool.length) + 16 * i) = some [
          (chars "domain_id", i),
          (chars "key_type", 3),
          (chars "reserved", 0),
          (chars "name_offset", o.toNat),
          (chars "node_count", 0)]) ∧
      (∀ k b, 64 ≤ k → file[k]? = some b → b = 0 ∨ 4096 ≤ k ∧ k < 4100 + pool.length ∨
        4096 + Layout.roundUp 128 (4 + pool.length) ≤ k ∧
          k < 4096 + Layout.roundUp 128 (4 + pool.length) + 16 * nameOffsets.length) ∧
      4096 ∣ file.length := by
  obtain ⟨offs, rfl⟩ : ∃ offs : List ℕ, offs.map Nat.cast = nameOffsets := by
    refine ⟨nameOffsets.map Int.toNat, ?_⟩
    have hcast : ∀ o ∈ nameOffsets, (Nat.cast ∘ Int.toNat) o = id o :=
      fun o ho => Int.toNat_of_nonneg (hoffs o ho).1
    rw [List.map_map, List.map_congr_left hcast, List.map_id]
  rw [List.length_map] at hlen ⊢
  have hnat : ∀ o ∈ offs, o < 2 ^ 32 := by
    intro o ho
    have := (hoffs o (List.mem_map_of_mem ho)).2
    omega
  refine ⟨snapshot pool offs, buildV09Snapshot_ok hpool hlen hnat, readHeader_snapshot hlen,
    readU32_snapshot hpool, slice_snapshot, ?_, ?_, dvd_length_snapshot⟩
  · intro i o ho
    rw [List.getElem?_map] at ho
    obtain ⟨n, hn, rfl⟩ := Option.map_eq_some_iff.mp ho
    rw [Int.toNat_natCast]
    exact readDomain_snapshot hlen hnat hn
  · intro k b hk hb
    rcases zero_or_mem_snapshot k b hb with hzero | hlt | hplace
    · exact .inl hzero
    · omega
    · exact .inr hplace

theorem buildV09Snapshot_reads_user : ∃ file,
    buildV09Snapshot [0x00, 0x55, 0x73, 0x65, 0x72, 0x00] [0xFFFFFFFF] = .ok file ∧
      readU32 file 4096 = some 6 ∧
      slice file 4100 6 = [0x00, 0x55, 0x73, 0x65, 0x72, 0x00] ∧
      readStruct domainCatalogEntry file 4224 = some [
        (chars "domain_id", 0),
        (chars "key_type", 3),
        (chars "reserved", 0),
        (chars "name_offset", 0xFFFFFFFF),
        (chars "node_count", 0)] := by
  have hsize : ([0x00, 0x55, 0x73, 0x65, 0x72, 0x00] : List Byte).length < 2 ^ 32 := by decide
  have hlen : [(0xFFFFFFFF : ℤ)].length ≤ 65535 := by decide
  obtain ⟨file, hfile, -, hpool, hslice, hdomains, -⟩ :=
    buildV09Snapshot_reads hsize hlen (by decide)
  exact ⟨file, hfile, hpool, hslice, hdomains 0 _ rfl⟩

end ImpulseTools

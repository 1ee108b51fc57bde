import ImpulseTools.Asm.Format
import ImpulseTools.Lib.Layout
import Mathlib.Data.List.DropRight

/-! # The snapshot schema

`codegen.py`: the packed C structs and the Java layouts written for a schema, and the bytes each
of them gives to a field.
-/

namespace ImpulseTools

structure FieldDef where
  name : Text
  type : Text
  deriving DecidableEq

structure StructDef where
  name : Text
  fields : List FieldDef
  deriving DecidableEq

def structDef (name : Text) (fields : List (Text × Text)) : StructDef :=
  ⟨name, fields.map fun f => ⟨f.1, f.2⟩⟩

def snapshotHeader : StructDef := structDef (chars "impulse_snapshot_header_v0_9_t") [
  (chars "magic", chars "uint32"),
  (chars "version", chars "uint16"),
  (chars "data_offset", chars "uint32"),
  (chars "domain_count", chars "uint16"),
  (chars "relation_count", chars "uint16"),
  (chars "timestamp_ms", chars "uint64"),
  (chars "required_features", chars "uint64"),
  (chars "footer_directory_offset", chars "uint64"),
  (chars "footer_directory_bytes", chars "uint64"),
  (chars "snapshot_uuid", chars "uint8[16]"),
  (chars "header_checksum", chars "uint16"),
  (chars "header_padding", chars "uint8[4032]")]

def domainCatalogEntry : StructDef := structDef (chars "impulse_domain_catalog_entry_v0_9_t") [
  (chars "domain_id", chars "uint16"),
  (chars "key_type", chars "uint8"),
  (chars "reserved", chars "uint8"),
  (chars "name_offset", chars "uint32"),
  (chars "node_count", chars "uint64")]

def relationDirectoryEntry : StructDef :=
  structDef (chars "impulse_relation_directory_entry_v0_9_t") [
  (chars "relation_id", chars "uint16"),
  (chars "src_domain_id", chars "uint16"),
  (chars "tgt_domain_id", chars "uint16"),
  (chars "encoding_id", chars "uint8"),
  (chars "node_id_width", chars "uint8"),
  (chars "edge_index_width", chars "uint8"),
  (chars "reserved1", chars "uint8[3]"),
  (chars "name_offset", chars "uint32"),
  (chars "node_count", chars "uint64"),
  (chars "edge_count", chars "uint64"),
  (chars "section_features", chars "uint64"),
  (chars "csr_row_off_offset", chars "uint64"),
  (chars "csr_row_off_bytes", chars "uint64"),
  (chars "csr_col_idx_offset", chars "uint64"),
  (chars "csr_col_idx_bytes", chars "uint64"),
  (chars "csc_row_off_offset", chars "uint64"),
  (chars "csc_row_off_bytes", chars "uint64"),
  (chars "csc_col_idx_offset", chars "uint64"),
  (chars "csc_col_idx_bytes", chars "uint64"),
  (chars "attr_count", chars "uint16"),
  (chars "reserved2", chars "uint8[22]")]

def attributeDescriptor : StructDef := structDef (chars "impulse_attribute_descriptor_v0_9_t") [
  (chars "name_offset", chars "uint32"),
  (chars "type_code", chars "uint8"),
  (chars "reserved1", chars "uint8"),
  (chars "reserved2", chars "uint16"),
  (chars "dimension", chars "uint32"),
  (chars "data_offset", chars "uint64"),
  (chars "data_bytes", chars "uint64"),
  (chars "offsets_offset", chars "uint64"),
  (chars "offsets_bytes", chars "uint64")]

def footerTrailer : StructDef := structDef (chars "impulse_footer_trailer_v0_9_t") [
  (chars "footer_length", chars "uint64"),
  (chars "spec_version", chars "uint32"),
  (chars "footer_magic", chars "uint32")]

/-- The structs of `get_v0_9_schema`. -/
def schemaV09 : List StructDef :=
  [snapshotHeader, domainCatalogEntry, relationDirectoryEntry, attributeDescriptor, footerTrailer]

/-- `base_type, arr_spec = ftype.split("[")` and `arr_spec.rstrip("]")` -/
def splitArray (ftype : Text) : Except PyErr (Text × Text) :=
  match ftype.splitOn '[' with
  | [base, spec] => .ok (base, spec.rdropWhile (· == ']'))
  | parts => .error (.unpack parts.length)

/-- `"[" in ftype and "]" in ftype` -/
def isArrayType (ftype : Text) : Bool := ftype.contains '[' && ftype.contains ']'

/-- The types that are written with `_t`. -/
def fixedTypes : List Text :=
  [chars "uint8", chars "uint16", chars "uint32", chars "uint64", chars "int8", chars "int16",
    chars "int32", chars "int64"]

def cType (type : Text) : Text := if type ∈ fixedTypes then type ++ chars "_t" else type

inductive CMember where
  /-- `{type} {name};` -/
  | scalar (type name : Text)
  /-- `{type} {name}[{len}];` -/
  | array (type name len : Text)
  deriving DecidableEq

def cppMember (f : FieldDef) : Except PyErr CMember :=
  if isArrayType f.type then do
    let (base, len) ← splitArray f.type
    return .array (cType base) f.name len
  else return .scalar (cType f.type) f.name

/-- The structs of `render_cpp_header`, between `#pragma pack(push, 1)` and `pack(pop)`. -/
def renderCppHeader (schema : List StructDef) : Except PyErr (List (Text × List CMember)) :=
  schema.mapM fun s => do return (s.name, ← s.fields.mapM cppMember)

/-- The constants of `ValueLayout` that are written. -/
inductive ValueLayout where
  | byte | short | int | long
  deriving DecidableEq

inductive JavaMember where
  /-- `ValueLayout.{layout}.withName("{name}")` -/
  | value (layout : ValueLayout) (name : Text)
  /-- `MemoryLayout.sequenceLayout({len}, ValueLayout.{elem}).withName("{name}")` -/
  | sequence (len : ℤ) (elem : ValueLayout) (name : Text)
  deriving DecidableEq

namespace Runtime

variable (py : Runtime)

def javaMember (f : FieldDef) : Except PyErr JavaMember :=
  if isArrayType f.type then do
    -- the element type is split off and not used
    let (_, len) ← splitArray f.type
    let len ← py.int len
    return .sequence len .byte f.name
  else if f.type ∈ [chars "uint8", chars "int8"] then return .value .byte f.name
  else if f.type ∈ [chars "uint16", chars "int16"] then return .value .short f.name
  else if f.type ∈ [chars "uint32", chars "int32"] then return .value .int f.name
  else if f.type ∈ [chars "uint64", chars "int64"] then return .value .long f.name
  else return .value .byte f.name

def renderJavaFfm (schema : List StructDef) : Except PyErr (List (Text × List JavaMember)) :=
  schema.mapM fun s => do return (s.name, ← s.fields.mapM py.javaMember)

end Runtime

structure StructLayout where
  slots : List (Layout.Slot Text)
  size : ℕ
  deriving DecidableEq

/-- Members one after another, without gaps. -/
def packed (members : List (Text × ℕ)) : StructLayout :=
  ⟨Layout.place 0 members, Layout.total members⟩

/-- `sizeof` of the types of `<stdint.h>` -/
def cSizeof (type : Text) : Option ℕ :=
  [(chars "uint8_t", 1), (chars "uint16_t", 2), (chars "uint32_t", 4), (chars "uint64_t", 8),
    (chars "int8_t", 1), (chars "int16_t", 2), (chars "int32_t", 4),
    (chars "int64_t", 8)].lookup type

/-- A decimal constant of C; a leading zero would make it octal. -/
def cConstant (t : Text) : Option ℕ :=
  if t ≠ [] ∧ (∀ c ∈ t, c.isDigit) ∧ (t.head? = some '0' → t = ['0']) then
    some (Nat.ofDigitChars 10 t 0)
  else none

def CMember.size : CMember → Option (Text × ℕ)
  | .scalar type name => do return (name, ← cSizeof type)
  | .array type name len => do return (name, (← cSizeof type) * (← cConstant len))

def ValueLayout.size : ValueLayout → ℕ
  | .byte => 1
  | .short => 2
  | .int => 4
  | .long => 8

def JavaMember.size : JavaMember → Option (Text × ℕ)
  | .value layout name => some (name, layout.size)
  | .sequence len elem name => if 0 ≤ len then some (name, len.toNat * elem.size) else none

def cLayouts (structs : List (Text × List CMember)) : Option (List (Text × StructLayout)) :=
  structs.mapM fun s => do return (s.1, packed (← s.2.mapM CMember.size))

def javaLayouts (structs : List (Text × List JavaMember)) : Option (List (Text × StructLayout)) :=
  structs.mapM fun s => do return (s.1, packed (← s.2.mapM JavaMember.size))

/-- Both generators write the schema, and place every field at the same bytes. -/
def Runtime.SameBytes (py : Runtime) (schema : List StructDef) : Prop :=
  ∃ c j layouts, renderCppHeader schema = .ok c ∧ py.renderJavaFfm schema = .ok j ∧
    cLayouts c = some layouts ∧ javaLayouts j = some layouts

inductive IntType where
  | uint8 | uint16 | uint32 | uint64 | int8 | int16 | int32 | int64
  deriving DecidableEq

namespace IntType

def text : IntType → Text
  | uint8 => chars "uint8"
  | uint16 => chars "uint16"
  | uint32 => chars "uint32"
  | uint64 => chars "uint64"
  | int8 => chars "int8"
  | int16 => chars "int16"
  | int32 => chars "int32"
  | int64 => chars "int64"

def bytes : IntType → ℕ
  | uint8 | int8 => 1
  | uint16 | int16 => 2
  | uint32 | int32 => 4
  | uint64 | int64 => 8

end IntType

/-- An integer, or an array of `n` of them. -/
inductive FieldType where
  | scalar (t : IntType)
  | array (t : IntType) (n : ℕ)
  deriving DecidableEq

namespace FieldType

def text : FieldType → Text
  | scalar t => t.text
  | array t n => t.text ++ '[' :: (decimalText n ++ [']'])

def bytes : FieldType → ℕ
  | scalar t => t.bytes
  | array t n => t.bytes * n

/-- The elements take a byte each, if there are any, and the length can be converted. -/
def Bytewise : FieldType → Prop
  | scalar _ => True
  | array t n => (t.bytes = 1 ∨ n = 0) ∧ (decimalText n).length ≤ maxStrDigits

end FieldType

theorem splitArray_array (t : IntType) (n : ℕ) :
    splitArray (FieldType.array t n).text = .ok (t.text, decimalText n) := by
  have hdigit (c : Char) (hc : c.isDigit = false) : c ∉ decimalText n := by
    intro h
    rw [isDigit_of_mem_decimalText h] at hc
    cases hc
  have hsplit : (FieldType.array t n).text.splitOn '[' = [t.text, decimalText n ++ [']']] := by
    have hnone : ∀ l ∈ [t.text, decimalText n ++ [']']], '[' ∉ l := by
      simp only [List.forall_mem_cons]
      refine ⟨by cases t <;> decide, ?_, fun _ h => absurd h List.not_mem_nil⟩
      rw [List.mem_append, not_or]
      exact ⟨hdigit '[' (by decide), by decide⟩
    have htext : (FieldType.array t n).text =
        ['['].intercalate [t.text, decimalText n ++ [']']] := by
      simp [FieldType.text, List.intercalate_cons_cons]
    rw [htext, List.splitOn_intercalate '[' hnone (List.cons_ne_nil _ _)]
  have hstrip : (decimalText n ++ [']']).rdropWhile (· == ']') = decimalText n := by
    rw [List.rdropWhile_concat_pos (· == ']') _ _ (by decide), List.rdropWhile_eq_self_iff]
    intro hne h
    rw [beq_iff_eq] at h
    exact hdigit ']' (by decide) (h ▸ List.getLast_mem hne)
  rw [splitArray, hsplit]
  simp only [hstrip]

theorem isArrayType_array (t : IntType) (n : ℕ) :
    isArrayType (FieldType.array t n).text := by
  simp [isArrayType, FieldType.text]

theorem eq_zero_of_head?_decimalText {n : ℕ} (h : (decimalText n).head? = some '0') : n = 0 := by
  induction n using Nat.strong_induction_on with
  | _ n ih =>
    rw [decimalText, Nat.toDigits_eq_if (by decide)] at h
    split at h
    · rename_i hn
      have hdigit : ∀ d < 10, Nat.digitChar d = '0' → d = 0 := by decide
      exact hdigit n hn (Option.some.inj h)
    · rename_i hn
      rw [List.head?_append_of_ne_nil _ Nat.toDigits_ne_nil] at h
      have := ih (n / 10) (Nat.div_lt_self (by omega) (by decide)) h
      omega

theorem cConstant_decimalText (n : ℕ) : cConstant (decimalText n) = some n := by
  have hzero : (decimalText n).head? = some '0' → decimalText n = ['0'] := by
    intro h
    rw [eq_zero_of_head?_decimalText h]
    rfl
  rw [cConstant, if_pos ⟨Nat.toDigits_ne_nil, fun c hc => isDigit_of_mem_decimalText hc, hzero⟩]
  exact congrArg some Nat.ofDigitChars_ten_toDigits

theorem cppMember_typed (name : Text) (t : FieldType) :
    ∃ m, cppMember ⟨name, t.text⟩ = .ok m ∧ m.size = some (name, t.bytes) := by
  have hsize (t : IntType) : t.text ∈ fixedTypes ∧ isArrayType t.text = false ∧
      cSizeof (t.text ++ chars "_t") = some t.bytes := by
    cases t <;> decide
  cases t with
  | scalar t =>
    obtain ⟨hmem, harr, hsz⟩ := hsize t
    refine ⟨.scalar (cType t.text) name, ?_, ?_⟩
    · rw [cppMember, FieldType.text, harr]
      rfl
    · rw [CMember.size, cType, if_pos hmem, hsz]
      rfl
  | array t n =>
    obtain ⟨hmem, -, hsz⟩ := hsize t
    refine ⟨.array (cType t.text) name (decimalText n), ?_, ?_⟩
    · rw [cppMember, if_pos (isArrayType_array t n), splitArray_array]
      rfl
    · rw [CMember.size, cType, if_pos hmem, hsz, cConstant_decimalText]
      rfl

namespace Runtime

variable {py : Runtime}

theorem javaMember_scalar (name : Text) (t : IntType) :
    ∃ m, py.javaMember ⟨name, t.text⟩ = .ok m ∧ m.size = some (name, t.bytes) := by
  cases t
  case uint8 | int8 => exact ⟨.value .byte name, rfl, rfl⟩
  case uint16 | int16 => exact ⟨.value .short name, rfl, rfl⟩
  case uint32 | int32 => exact ⟨.value .int name, rfl, rfl⟩
  case uint64 | int64 => exact ⟨.value .long name, rfl, rfl⟩

theorem javaMember_array (name : Text) (t : IntType) (n : ℕ) :
    (∃ m, py.javaMember ⟨name, (FieldType.array t n).text⟩ = .ok m ∧
        m.size = some (name, t.bytes * n)) ↔ (FieldType.array t n).Bytewise := by
  have hmember : py.javaMember ⟨name, (FieldType.array t n).text⟩ =
      (do return .sequence (← py.int (decimalText n)) .byte name) := by
    rw [javaMember, if_pos (isArrayType_array t n), splitArray_array]
    rfl
  rw [hmember, int_decimalText_eq, FieldType.Bytewise]
  split
  · rename_i hlong
    apply iff_of_false
    · rintro ⟨m, hm, -⟩
      cases hm
    · rintro ⟨-, hle⟩
      omega
  · rename_i hle
    have hsize : (JavaMember.sequence n .byte name).size = some (name, n * 1) := by
      rw [JavaMember.size, if_pos (Int.natCast_nonneg n)]
      rfl
    constructor
    · rintro ⟨m, hm, hs⟩
      obtain rfl := Except.ok.inj hm
      rw [hsize, Option.some.injEq, Prod.mk.injEq] at hs
      refine ⟨?_, Nat.not_lt.mp hle⟩
      rcases Nat.eq_zero_or_pos n with hn | hn
      · exact .inr hn
      · refine .inl (Nat.eq_of_mul_eq_mul_right hn ?_)
        rw [← hs.2, Nat.mul_comm]
    · rintro ⟨h, -⟩
      refine ⟨_, rfl, ?_⟩
      rw [hsize]
      rcases h with h | rfl
      · rw [h, Nat.mul_comm]
      · rw [Nat.mul_zero, Nat.zero_mul]

end Runtime

/-- Every field is an integer or a fixed array of integers. -/
def IntFields (schema : List StructDef) : Prop :=
  ∀ s ∈ schema, ∀ f ∈ s.fields, ∃ t : FieldType, f.type = t.text

namespace Runtime

variable {py : Runtime}

theorem field_agrees_iff (name : Text) (t : FieldType) :
    (∃ c j m, cppMember ⟨name, t.text⟩ = .ok c ∧ py.javaMember ⟨name, t.text⟩ = .ok j ∧
        c.size = some m ∧ j.size = some m) ↔ t.Bytewise := by
  obtain ⟨c, hc, hcs⟩ := cppMember_typed name t
  have hj : (∃ j, py.javaMember ⟨name, t.text⟩ = .ok j ∧ j.size = some (name, t.bytes)) ↔
      t.Bytewise := by
    cases t with
    | scalar t => exact iff_of_true (javaMember_scalar name t) trivial
    | array t n => exact javaMember_array name t n
  rw [← hj]
  constructor
  · rintro ⟨c', j, m, hc', hj, hm, hjm⟩
    obtain rfl := Except.ok.inj (hc.symm.trans hc')
    obtain rfl := Option.some.inj (hcs.symm.trans hm)
    exact ⟨j, hj, hjm⟩
  · rintro ⟨j, hj, hjs⟩
    exact ⟨c, j, _, hc, hj, hcs, hjs⟩

theorem packed_inj {l l' : List (Text × ℕ)} : packed l = packed l' ↔ l = l' := by
  constructor
  · intro h
    exact Layout.place_inj.mp (congrArg StructLayout.slots h)
  · rintro rfl
    rfl

/-- The generators agree on a struct exactly if they do on each of its fields. -/
theorem struct_agrees_iff (s : StructDef) :
    (∃ c j layout, (do return (s.name, ← s.fields.mapM cppMember)) = .ok c ∧
        (do return (s.name, ← s.fields.mapM py.javaMember)) = .ok j ∧
        (do return (c.1, packed (← c.2.mapM CMember.size))) = some layout ∧
        (do return (j.1, packed (← j.2.mapM JavaMember.size))) = some layout) ↔
      ∀ f ∈ s.fields, ∃ c j m, cppMember f = .ok c ∧ py.javaMember f = .ok j ∧
        c.size = some m ∧ j.size = some m := by
  rw [← ExceptFold.mapM_agree]
  simp only [ExceptFold.bind_eq_ok, pure, Except.pure, Except.ok.injEq, Option.bind_eq_bind,
    Option.bind_eq_some_iff, Option.some.injEq]
  constructor
  · rintro ⟨_, _, _, ⟨cs, hcs, rfl⟩, ⟨js, hjs, rfl⟩, ⟨l, hl, rfl⟩, l', hl', he⟩
    rw [Prod.mk.injEq, packed_inj] at he
    exact ⟨cs, js, l, hcs, hjs, hl, he.2 ▸ hl'⟩
  · rintro ⟨cs, js, l, hcs, hjs, hl, hl'⟩
    exact ⟨_, _, _, ⟨cs, hcs, rfl⟩, ⟨js, hjs, rfl⟩, ⟨l, hl, rfl⟩, l, hl', rfl⟩

/-- The two generators describe the same bytes exactly if all arrays are of one-byte integers, or
empty, and have a length that Python converts. -/
theorem sameBytes_iff {schema : List StructDef} (hint : IntFields schema) :
    py.SameBytes schema ↔ ∀ s ∈ schema, ∀ f ∈ s.fields, ∀ t n,
      f.type = (FieldType.array t n).text → (FieldType.array t n).Bytewise := by
  have hschema : py.SameBytes schema ↔ ∀ s ∈ schema, ∀ f ∈ s.fields,
      ∃ c j m, cppMember f = .ok c ∧ py.javaMember f = .ok j ∧ c.size = some m ∧
        j.size = some m := by
    unfold SameBytes renderCppHeader renderJavaFfm cLayouts javaLayouts
    rw [ExceptFold.mapM_agree]
    exact forall₂_congr fun s _ => struct_agrees_iff s
  rw [hschema]
  refine forall₂_congr fun s hs => forall₂_congr fun f hf => ?_
  obtain ⟨name, type⟩ := f
  constructor
  · rintro h t n (rfl : type = _)
    exact (field_agrees_iff name _).mp h
  · intro h
    obtain ⟨t, rfl : type = t.text⟩ := hint s hs _ hf
    rw [field_agrees_iff]
    cases t with
    | scalar t => trivial
    | array t n => exact h t n rfl

end Runtime

def typesV09 : List FieldType :=
  [.scalar .uint8, .scalar .uint16, .scalar .uint32, .scalar .uint64, .array .uint8 3,
    .array .uint8 16, .array .uint8 22, .array .uint8 4032]

theorem intFields_schemaV09 : IntFields schemaV09 := by
  have h : ∀ s ∈ schemaV09, ∀ f ∈ s.fields, ∃ t ∈ typesV09, f.type = t.text := by decide +kernel
  intro s hs f hf
  obtain ⟨t, -, ht⟩ := h s hs f hf
  exact ⟨t, ht⟩

theorem sameBytes_schemaV09 : Runtime.ascii.SameBytes schemaV09 := by
  have h : ∀ s ∈ schemaV09, ∀ f ∈ s.fields, (splitArray f.type).toOption.all fun p =>
      p.1 = chars "uint8" && decide (p.2.length ≤ maxStrDigits) := by decide +kernel
  rw [Runtime.sameBytes_iff intFields_schemaV09]
  intro s hs f hf t n ht
  have := h s hs f hf
  rw [ht, splitArray_array] at this
  simp only [Except.toOption, Option.all_some, Bool.and_eq_true, decide_eq_true_eq] at this
  refine ⟨.inl ?_, this.2⟩
  have hbyte : ∀ t : IntType, t.text = chars "uint8" → t.bytes = 1 := by
    intro t
    cases t <;> decide
  exact hbyte t this.1

/-- A struct with an array of 16-bit numbers before a byte. -/
def wordArray : StructDef :=
  structDef (chars "impulse_lane_t")
    [(chars "ids", chars "uint16[4]"), (chars "tag", chars "uint8")]

/-- The C struct gives the array 8 bytes and the byte after it the offset 8; the Java layout gives
it 4 bytes, and puts the next field in the middle of it. -/
theorem layouts_differ : IntFields [wordArray] ∧ ¬ Runtime.ascii.SameBytes [wordArray] ∧
    ∃ c j, renderCppHeader [wordArray] = .ok c ∧ Runtime.ascii.renderJavaFfm [wordArray] = .ok j ∧
      cLayouts c = some [(wordArray.name, ⟨[⟨chars "ids", 0, 8⟩, ⟨chars "tag", 8, 1⟩], 9⟩)] ∧
      javaLayouts j = some [(wordArray.name, ⟨[⟨chars "ids", 0, 4⟩, ⟨chars "tag", 4, 1⟩], 5⟩)] := by
  have hc : (renderCppHeader [wordArray]).toOption.bind cLayouts =
      some [(wordArray.name, ⟨[⟨chars "ids", 0, 8⟩, ⟨chars "tag", 8, 1⟩], 9⟩)] := by
    decide +kernel
  have hj : (Runtime.ascii.renderJavaFfm [wordArray]).toOption.bind javaLayouts =
      some [(wordArray.name, ⟨[⟨chars "ids", 0, 4⟩, ⟨chars "tag", 4, 1⟩], 5⟩)] := by
    decide +kernel
  obtain ⟨c, hc, hcl⟩ := Option.bind_eq_some_iff.mp hc
  obtain ⟨j, hj, hjl⟩ := Option.bind_eq_some_iff.mp hj
  rw [ExceptFold.toOption_eq_some] at hc hj
  refine ⟨?_, ?_, c, j, hc, hj, hcl, hjl⟩
  · have h : ∀ s ∈ [wordArray], ∀ f ∈ s.fields,
        ∃ t ∈ [FieldType.array .uint16 4, .scalar .uint8], f.type = t.text := by decide +kernel
    intro s hs f hf
    obtain ⟨t, -, ht⟩ := h s hs f hf
    exact ⟨t, ht⟩
  · rintro ⟨c', j', layouts, hc', hj', hcl', hjl'⟩
    obtain rfl := Except.ok.inj (hc.symm.trans hc')
    obtain rfl := Except.ok.inj (hj.symm.trans hj')
    have heq := hcl.symm.trans (hcl'.trans (hjl'.symm.trans hjl))
    revert heq
    decide

end ImpulseTools

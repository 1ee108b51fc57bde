import ImpulseTools.Snapshot.Schema

/-! # Alignment of the Java layouts

The C structs are packed. A Java layout is laid out in the same way, but its members have
alignments, and `MemoryLayout.structLayout` refuses a member that is not aligned.
-/

namespace ImpulseTools

/-- `JAVA_SHORT`, `JAVA_INT` and `JAVA_LONG` are aligned to their sizes. -/
def ValueLayout.alignment (layout : ValueLayout) : ℕ := layout.size

def JavaMember.alignment : JavaMember → ℕ
  | .value layout _ => layout.alignment
  | .sequence _ elem _ => elem.alignment

/-- Every member has a size, and lies at a multiple of its alignment from `start` on. -/
def ConstructibleFrom (start : ℕ) (members : List JavaMember) : Prop :=
  ∃ sizes, members.mapM JavaMember.size = some sizes ∧
    ∀ p ∈ members.zip (Layout.place start sizes), p.1.alignment ∣ p.2.offset

/-- `MemoryLayout.structLayout` returns. -/
def Constructible (members : List JavaMember) : Prop := ConstructibleFrom 0 members

/-- The size of a scalar; a type that is no integer becomes a byte. -/
def scalarSize (type : Text) : ℕ :=
  if type ∈ [chars "uint16", chars "int16"] then 2
  else if type ∈ [chars "uint32", chars "int32"] then 4
  else if type ∈ [chars "uint64", chars "int64"] then 8
  else 1

namespace Runtime

variable {py : Runtime}

def arrayLength (py : Runtime) (type : Text) : Option ℤ :=
  if isArrayType type then
    ((splitArray type).bind fun p => py.int p.2).toOption
  else none

/-- From `start` on, no array has a negative length, and every scalar comes at a multiple of its
size. -/
def alignedFrom (py : Runtime) : ℕ → List FieldDef → Bool
  | _, [] => true
  | start, f :: fs =>
    match py.arrayLength f.type with
    | some n => decide (0 ≤ n) && alignedFrom py (start + n.toNat) fs
    | none => decide (scalarSize f.type ∣ start) && alignedFrom py (start + scalarSize f.type) fs

theorem javaMember_cases {f : FieldDef} {m : JavaMember} (h : py.javaMember f = .ok m) :
    (∃ n, py.arrayLength f.type = some n ∧ m = .sequence n .byte f.name) ∨
      py.arrayLength f.type = none ∧ ∃ l : ValueLayout, l.size = scalarSize f.type ∧
        m = .value l f.name := by
  unfold javaMember at h
  unfold arrayLength
  split at h
  · rename_i harr
    obtain ⟨p, hp, h⟩ := ExceptFold.bind_eq_ok.mp h
    obtain ⟨n, hn, h⟩ := ExceptFold.bind_eq_ok.mp h
    refine .inl ⟨n, ?_, (Except.ok.inj h).symm⟩
    rw [if_pos harr, ExceptFold.toOption_eq_some, hp]
    exact hn
  · rename_i harr
    refine .inr ⟨if_neg harr, ?_⟩
    split at h
    · rename_i h8
      have hsize : ∀ t ∈ [chars "uint8", chars "int8"], scalarSize t = 1 := by decide
      exact ⟨.byte, (hsize _ h8).symm, (Except.ok.inj h).symm⟩
    unfold scalarSize
    split at h
    · rename_i h16
      exact ⟨.short, (if_pos h16).symm, (Except.ok.inj h).symm⟩
    rename_i h16
    rw [if_neg h16]
    split at h
    · rename_i h32
      exact ⟨.int, (if_pos h32).symm, (Except.ok.inj h).symm⟩
    rename_i h32
    rw [if_neg h32]
    split at h
    · rename_i h64
      exact ⟨.long, (if_pos h64).symm, (Except.ok.inj h).symm⟩
    · rename_i h64
      exact ⟨.byte, (if_neg h64).symm, (Except.ok.inj h).symm⟩

theorem constructibleFrom_nil (start : ℕ) : ConstructibleFrom start [] :=
  ⟨[], rfl, fun _ h => absurd h List.not_mem_nil⟩

theorem constructibleFrom_cons {start : ℕ} {m : JavaMember} {ms : List JavaMember} :
    ConstructibleFrom start (m :: ms) ↔
      m.alignment ∣ start ∧ ∃ p, m.size = some p ∧ ConstructibleFrom (start + p.2) ms := by
  unfold ConstructibleFrom
  simp only [List.mapM_cons, Option.bind_eq_bind, Option.bind_eq_some_iff, pure,
    Option.some.injEq]
  constructor
  · rintro ⟨_, ⟨p, hp, sizes, hsizes, rfl⟩, h⟩
    rw [Layout.place, List.zip_cons_cons, List.forall_mem_cons] at h
    exact ⟨h.1, p, hp, sizes, hsizes, h.2⟩
  · rintro ⟨hm, p, hp, sizes, hsizes, h⟩
    refine ⟨_, ⟨p, hp, sizes, hsizes, rfl⟩, ?_⟩
    rw [Layout.place, List.zip_cons_cons, List.forall_mem_cons]
    exact ⟨hm, h⟩

theorem constructibleFrom_iff {fields : List FieldDef} {members : List JavaMember}
    (h : List.Forall₂ (fun f m => py.javaMember f = .ok m) fields members) (start : ℕ) :
    ConstructibleFrom start members ↔ py.alignedFrom start fields := by
  induction h generalizing start with
  | nil => exact iff_of_true (constructibleFrom_nil start) rfl
  | @cons f m fs ms hm _ ih =>
    rw [constructibleFrom_cons, alignedFrom]
    obtain ⟨n, hn, rfl⟩ | ⟨hn, l, hl, rfl⟩ := javaMember_cases hm
    · rw [hn]
      dsimp only
      rw [Bool.and_eq_true, decide_eq_true_eq, ← ih]
      constructor
      · rintro ⟨-, p, hp, h⟩
        rw [JavaMember.size] at hp
        split at hp
        · rename_i h0
          obtain rfl := Option.some.inj hp
          rw [ValueLayout.size, Nat.mul_one] at h
          exact ⟨h0, h⟩
        · cases hp
      · rintro ⟨h0, h⟩
        refine ⟨one_dvd start, (f.name, n.toNat * 1), ?_, ?_⟩
        · rw [JavaMember.size, if_pos h0]
          rfl
        · rwa [Nat.mul_one]
    · rw [hn]
      dsimp only
      rw [Bool.and_eq_true, decide_eq_true_eq, ← ih, ← hl]
      constructor
      · rintro ⟨hdvd, p, hp, h⟩
        obtain rfl := Option.some.inj hp
        exact ⟨hdvd, h⟩
      · rintro ⟨hdvd, h⟩
        exact ⟨hdvd, _, rfl, h⟩

/-- The layouts written for a schema can be constructed exactly if the fields are aligned. -/
theorem constructible_iff {schema : List StructDef} {structs : List (Text × List JavaMember)}
    (h : py.renderJavaFfm schema = .ok structs) :
    (∀ s ∈ structs, Constructible s.2) ↔ ∀ s ∈ schema, py.alignedFrom 0 s.fields := by
  have hstructs : List.Forall₂ (fun (s : StructDef) (t : Text × List JavaMember) =>
      Constructible t.2 ↔ py.alignedFrom 0 s.fields) schema structs := by
    refine (ExceptFold.mapM_eq_ok.mp h).imp fun s t hst => ?_
    obtain ⟨ms, hms, hst⟩ := ExceptFold.bind_eq_ok.mp hst
    cases hst
    exact constructibleFrom_iff (ExceptFold.mapM_eq_ok.mp hms) 0
  constructor
  · intro hall s hs
    obtain ⟨t, ht, hiff⟩ := ExceptFold.exists_of_mem_left hstructs hs
    exact hiff.mp (hall t ht)
  · intro hall t ht
    obtain ⟨s, hs, hiff⟩ := ExceptFold.exists_of_mem_right hstructs ht
    exact hiff.mpr (hall s hs)

theorem constructible_footerTrailer :
    ∃ structs, Runtime.ascii.renderJavaFfm [footerTrailer] = .ok structs ∧
      ∀ s ∈ structs, Constructible s.2 := by
  obtain ⟨structs, h⟩ := ExceptFold.exists_of_isOk
    (show (Runtime.ascii.renderJavaFfm [footerTrailer]).isOk by decide +kernel)
  refine ⟨structs, h, (constructible_iff h).mpr ?_⟩
  decide +kernel

/-- The field `data_offset` of the header lies at offset 6. -/
theorem header_not_constructible :
    ∃ structs, Runtime.ascii.renderJavaFfm schemaV09 = .ok structs ∧
      ∃ s ∈ structs, s.1 = snapshotHeader.name ∧ ¬ Constructible s.2 := by
  obtain ⟨structs, h⟩ := ExceptFold.exists_of_isOk
    (show (Runtime.ascii.renderJavaFfm schemaV09).isOk by decide +kernel)
  obtain ⟨s, hs, hrender⟩ := ExceptFold.exists_of_mem_left (ExceptFold.mapM_eq_ok.mp h)
    (show snapshotHeader ∈ schemaV09 from List.mem_cons_self)
  obtain ⟨ms, hms, hrender⟩ := ExceptFold.bind_eq_ok.mp hrender
  cases hrender
  refine ⟨structs, h, _, hs, rfl, ?_⟩
  rw [Constructible, constructibleFrom_iff (ExceptFold.mapM_eq_ok.mp hms)]
  decide +kernel

end Runtime

end ImpulseTools

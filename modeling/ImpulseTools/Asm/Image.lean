import ImpulseTools.Asm.Framing
import ImpulseTools.Lib.Concat
import ImpulseTools.Lib.Records

/-! # Bytecode files

`bytes(c_instrs)`, which the harnesses write to a `.impb` file, and how the virtual machine takes
units from it (`VM_SPECIFICATION.md`, section 3.2).
-/

namespace ImpulseTools

open Layout (le value slice)

/-- The bytes of a word. Each field lies at a multiple of its size, so there is no padding. -/
def Instruction.bytes (w : Instruction) : List Byte :=
  le 1 w.opcode.toNat ++ (le 1 w.flags.toNat ++ (le 2 w.dstReg.toNat ++ le 4 w.payload.toNat))

def Instruction.ofBytes (bs : List Byte) : Instruction where
  opcode := .ofNat 8 (value (slice bs 0 1))
  flags := .ofNat 8 (value (slice bs 1 1))
  dstReg := .ofNat 16 (value (slice bs 2 2))
  payload := .ofNat 32 (value (slice bs 4 4))

theorem Instruction.length_bytes (w : Instruction) : w.bytes.length = 8 := by
  simp only [bytes, List.length_append, Layout.length_le]

theorem Instruction.ofBytes_bytes (w : Instruction) : ofBytes w.bytes = w := by
  have hop : slice w.bytes 0 1 = le 1 w.opcode.toNat := rfl
  have hflags : slice w.bytes 1 1 = le 1 w.flags.toNat := rfl
  have hdst : slice w.bytes 2 2 = le 2 w.dstReg.toNat := rfl
  have hpayload : slice w.bytes 4 4 = le 4 w.payload.toNat := rfl
  rw [ofBytes, hop, hflags, hdst, hpayload, Layout.value_le w.opcode.isLt,
    Layout.value_le w.flags.isLt, Layout.value_le w.dstReg.isLt, Layout.value_le w.payload.isLt]
  simp only [BitVec.ofNat_toNat, BitVec.setWidth_eq]

theorem Instruction.bytes_ofBytes {bs : List Byte} (h : bs.length = 8) :
    (ofBytes bs).bytes = bs := by
  have hpart {off k w : ℕ} (hw : 256 ^ k = 2 ^ w) (hle : off + k ≤ 8) :
      le k (BitVec.ofNat w (value (slice bs off k))).toNat = slice bs off k := by
    have hlen := Layout.slice_length (h.symm ▸ hle : off + k ≤ bs.length)
    have hlt := Layout.value_lt (slice bs off k)
    rw [hlen, hw] at hlt
    have hback := Layout.le_value (slice bs off k)
    rw [hlen] at hback
    rw [BitVec.toNat_ofNat, Nat.mod_eq_of_lt hlt, hback]
  have hparts : slice bs 0 (1 + (1 + (2 + 4))) =
      slice bs 0 1 ++ (slice bs 1 1 ++ (slice bs 2 2 ++ slice bs 4 4)) := by
    rw [Layout.slice_add, Layout.slice_add, Layout.slice_add]
  have hall : slice bs 0 (1 + (1 + (2 + 4))) = bs := by
    have := Layout.slice_self bs
    rwa [h] at this
  unfold bytes ofBytes
  dsimp only
  rw [hpart (by decide) (by decide), hpart (by decide) (by decide), hpart (by decide) (by decide),
    hpart (by decide) (by decide), ← hparts, hall]

def instructionCodec : Layout.Codec Instruction where
  width := 8
  width_pos := by decide
  encode := Instruction.bytes
  decode := Instruction.ofBytes
  length_encode := Instruction.length_bytes
  decode_encode := Instruction.ofBytes_bytes
  encode_decode _ := Instruction.bytes_ofBytes

/-- `bytes(c_instrs)` -/
def impb (words : List Instruction) : List Byte := instructionCodec.encodeAll words

theorem length_impb (words : List Instruction) : (impb words).length = 8 * words.length :=
  instructionCodec.length_encodeAll words

/-- The unit at the address `pc` of a file, counted in words, and the address behind it. -/
def fetch (file : List Byte) (pc : ℕ) : Option (List Instruction × ℕ) := do
  let w ← instructionCodec.readAt file (8 * pc)
  if w.extended then
    let e ← instructionCodec.readAt file (8 * (pc + 1))
    return ([w, e], pc + 2)
  else return ([w], pc + 1)

inductive Fetches (file : List Byte) : ℕ → List (List Instruction) → Prop
  | done {pc : ℕ} (h : 8 * pc = file.length) : Fetches file pc []
  | step {pc pc' : ℕ} {u : List Instruction} {us : List (List Instruction)}
      (hu : fetch file pc = some (u, pc')) (hs : Fetches file pc' us) : Fetches file pc (u :: us)

theorem readAt_impb (words : List Instruction) (i : ℕ) :
    instructionCodec.readAt (impb words) (8 * i) = words[i]? :=
  instructionCodec.readAt_encodeAll words i

theorem fetch_impb_eq_some {words : List Instruction} {pc pc' : ℕ} {u : List Instruction} :
    fetch (impb words) pc = some (u, pc') ↔
      (∃ w, words[pc]? = some w ∧ ¬ w.extended ∧ u = [w] ∧ pc' = pc + 1) ∨
        ∃ w e, words[pc]? = some w ∧ w.extended ∧ words[pc + 1]? = some e ∧ u = [w, e] ∧
          pc' = pc + 2 := by
  constructor
  · intro h
    obtain ⟨w, hw, h⟩ := Option.bind_eq_some_iff.mp h
    rw [readAt_impb] at hw
    split at h
    case isTrue hx =>
      obtain ⟨e, he, h⟩ := Option.bind_eq_some_iff.mp h
      rw [readAt_impb] at he
      cases h
      exact .inr ⟨w, e, hw, hx, he, rfl, rfl⟩
    case isFalse hx =>
      cases h
      exact .inl ⟨w, hw, hx, rfl, rfl⟩
  · rintro (⟨w, hw, hx, rfl, rfl⟩ | ⟨w, e, hw, hx, he, rfl, rfl⟩)
    · rw [fetch, readAt_impb, hw]
      exact if_neg hx
    · rw [fetch, readAt_impb, readAt_impb, hw, he]
      exact if_pos hx

theorem drop_eq_cons {words : List Instruction} {pc : ℕ} {w : Instruction}
    (h : words[pc]? = some w) : words.drop pc = w :: words.drop (pc + 1) := by
  obtain ⟨hlt, rfl⟩ := List.getElem?_eq_some_iff.mp h
  exact List.drop_eq_getElem_cons hlt

/-- From any address, fetching to the end of the file is framing the words behind it. -/
theorem fetches_impb_iff {words : List Instruction} {pc : ℕ} (hpc : pc ≤ words.length)
    {us : List (List Instruction)} :
    Fetches (impb words) pc us ↔ frame (words.drop pc) = some us := by
  constructor
  · intro h
    induction h with
    | done h =>
      rw [length_impb] at h
      rw [List.drop_eq_nil_of_le (by omega)]
      rfl
    | step hu _ ih =>
      rcases fetch_impb_eq_some.mp hu with ⟨w, hw, hx, rfl, rfl⟩ | ⟨w, e, hw, hx, he, rfl, rfl⟩
      · have hlt := (List.getElem?_eq_some_iff.mp hw).1
        rw [drop_eq_cons hw, frame.eq_def]
        simp only [if_neg hx, ih hlt, Option.map_eq_map, Option.map_some]
      · have hlt := (List.getElem?_eq_some_iff.mp he).1
        rw [drop_eq_cons hw, drop_eq_cons he, frame.eq_def]
        simp only [if_pos hx, ih hlt, Option.map_eq_map, Option.map_some]
  · intro h
    induction us generalizing pc with
    | nil =>
      apply Fetches.done
      rw [length_impb]
      rcases hpc.eq_or_lt with rfl | hlt
      · rfl
      · rw [List.drop_eq_getElem_cons hlt, frame.eq_def] at h
        dsimp only at h
        split_ifs at h
        · split at h
          · cases h
          · obtain ⟨_, -, hcons⟩ := Option.map_eq_some_iff.mp h
            cases hcons
        · obtain ⟨_, -, hcons⟩ := Option.map_eq_some_iff.mp h
          cases hcons
    | cons u us ih =>
      rcases hpc.eq_or_lt with rfl | hlt
      · rw [List.drop_length] at h
        cases h
      have hw : words[pc]? = some words[pc] := List.getElem?_eq_getElem hlt
      rw [drop_eq_cons hw, frame.eq_def] at h
      dsimp only at h
      split_ifs at h with hx
      · cases he : words[pc + 1]? with
        | none =>
          rw [List.drop_eq_nil_of_le (List.getElem?_eq_none_iff.mp he)] at h
          cases h
        | some e =>
          rw [drop_eq_cons he] at h
          obtain ⟨us', hus, hcons⟩ := Option.map_eq_some_iff.mp h
          obtain ⟨rfl, rfl⟩ := List.cons.inj hcons
          have hlt' := (List.getElem?_eq_some_iff.mp he).1
          exact .step (fetch_impb_eq_some.mpr (.inr ⟨_, e, hw, hx, he, rfl, rfl⟩)) (ih hlt' hus)
      · obtain ⟨us', hus, hcons⟩ := Option.map_eq_some_iff.mp h
        obtain ⟨rfl, rfl⟩ := List.cons.inj hcons
        exact .step (fetch_impb_eq_some.mpr (.inl ⟨_, hw, hx, rfl, rfl⟩)) (ih hlt hus)

theorem frame_eq_some {words : List Instruction} {us : List (List Instruction)}
    (h : frame words = some us) : us.flatten = words := by
  induction words using frame.induct generalizing us with
  | case1 =>
    cases h
    rfl
  | case2 w hx =>
    rw [frame.eq_def] at h
    simp only [if_pos hx] at h
    cases h
  | case3 w hx e ws ih =>
    rw [frame.eq_def] at h
    simp only [if_pos hx] at h
    obtain ⟨us', hus, rfl⟩ := Option.map_eq_some_iff.mp h
    rw [List.flatten_cons, ih hus]
    rfl
  | case4 w ws hx ih =>
    rw [frame.eq_def] at h
    simp only [if_neg hx] at h
    obtain ⟨us', hus, rfl⟩ := Option.map_eq_some_iff.mp h
    rw [List.flatten_cons, ih hus]
    rfl

theorem Fetches.dvd_length {file : List Byte} {pc : ℕ} {us : List (List Instruction)}
    (h : Fetches file pc us) : 8 ∣ file.length := by
  induction h with
  | done h => exact h ▸ Nat.dvd_mul_right 8 _
  | step _ _ ih => exact ih

/-- The files that can be fetched to the end are the images of the programs that have a frame, and
the units are those of the frame. -/
theorem fetches_iff {file : List Byte} {us : List (List Instruction)} :
    Fetches file 0 us ↔ file = impb us.flatten ∧ frame us.flatten = some us := by
  constructor
  · intro h
    obtain ⟨words, hw⟩ := Option.isSome_iff_exists.mp
      (instructionCodec.isSome_decodeAll.mpr h.dvd_length)
    obtain rfl := instructionCodec.decodeAll_eq_some.mp hw
    have hframe := (fetches_impb_iff (Nat.zero_le words.length)).mp h
    rw [List.drop_zero] at hframe
    rw [frame_eq_some hframe]
    exact ⟨rfl, hframe⟩
  · rintro ⟨rfl, hframe⟩
    exact (fetches_impb_iff (Nat.zero_le _)).mpr hframe

/-- Any unit is fetched at the address where it starts, wherever the machine jumps there from. -/
theorem fetch_offset {us : List (List Instruction)} (h : ∀ u ∈ us, Framed u) {j : ℕ}
    {u : List Instruction} (hj : us[j]? = some u) :
    fetch (impb us.flatten) (Concat.offset us j) = some (u, Concat.offset us (j + 1)) := by
  obtain ⟨pre, post, hflat, hpre⟩ := Concat.flatten_around hj
  have hnext : Concat.offset us (j + 1) = pre.length + u.length := by
    have hlen : (us.map List.length)[j]? = some u.length := by rw [List.getElem?_map, hj]; rfl
    rw [hpre, Concat.offset, Concat.offset, List.take_add_one, hlen, List.sum_append]
    rfl
  have hget (i : ℕ) : us.flatten[pre.length + i]? = (u ++ post)[i]? := by
    rw [hflat, List.append_assoc, List.getElem?_append_right (Nat.le_add_right _ _),
      Nat.add_sub_cancel_left]
  rw [fetch_impb_eq_some, ← hpre, hnext]
  cases h u (List.mem_of_getElem? hj) with
  | word hw => exact .inl ⟨_, hget 0, hw, rfl, rfl⟩
  | extended hw => exact .inr ⟨_, _, hget 0, hw, hget 1, rfl, rfl⟩

namespace Runtime

variable {py : Runtime} {K K' : Constants} {text : Text} {p : Program}

/-- From the image of an accepted file the machine fetches the units of its instruction lines, in
their order and to the end, and each of them where it starts. -/
theorem parseImpasFile_fetches (h : py.parseImpasFile K text = (.ok p, K'))
    (hf : ∀ l ∈ py.instructionLines text, ∀ op ∈ Op.ofName? l.1, ∀ i ∈ flagsToken op l.2,
      ∀ v, py.HasValue K' l.2 i v → 0 ≤ v ∧ v < 128) :
    ∃ env units, env.constants = K' ∧ py.TablesOf K text env ∧
      Fetches (impb p.instructions) 0 units ∧
      List.Forall₂ (fun l u => ∃ op o, Op.ofName? l.1 = some op ∧
        py.operands env op l.2 = .ok o ∧ readUnit u =
          some ⟨op.code, o.flags.toNat, (mask 16 o.dst).toNat, (mask 32 o.payload).toNat⟩)
        (py.instructionLines text) units ∧
      ∀ j u, units[j]? = some u → fetch (impb p.instructions) (Concat.offset units j) =
        some (u, Concat.offset units (j + 1)) := by
  obtain ⟨env, units, data, rfl, ht, ha⟩ := exists_units_of_tables h
  have hread : List.Forall₂ (fun l u => ∃ op o, Op.ofName? l.1 = some op ∧
      py.operands env op l.2 = .ok o ∧ u = emit op o ∧ 0 ≤ o.flags ∧ o.flags < 128)
      (py.instructionLines text) units := by
    refine (ExceptFold.forall₂_with_mem ha.encodes).imp ?_
    rintro l u ⟨hl, op, hop, he⟩
    obtain ⟨o, ho, rfl⟩ := encode_eq_ok.mp he
    exact ⟨op, o, hop, ho, rfl, flags_mem ho (hf l hl op hop)⟩
  have hframed : ∀ u ∈ units, Framed u := by
    intro u hu
    obtain ⟨l, -, op, o, -, -, rfl, h0, h1⟩ := ExceptFold.exists_of_mem_right hread hu
    exact framed_emit op h0 h1
  rw [ha.instructions_eq]
  refine ⟨env, units, rfl, ht, fetches_iff.mpr ⟨rfl, frame_flatten hframed⟩, hread.imp ?_,
    fun j u hj => fetch_offset hframed hj⟩
  rintro l u ⟨op, o, hop, ho, rfl, h0, h1⟩
  exact ⟨op, o, hop, ho, readUnit_emit op o h0 h1⟩

theorem parseImpasFile_fetches_gather :
    ∃ p K', Runtime.ascii.parseImpasFile constants
        (chars "OP_GATHER_NODE_ATTR R1, R2, R3, 300\nOP_MOV R4, R1") = (.ok p, K') ∧
      ∃ units, Fetches (impb p.instructions) 0 units ∧ units.length = 2 := by
  obtain ⟨p, hp⟩ := exists_program Runtime.ascii constants
    (chars "OP_GATHER_NODE_ATTR R1, R2, R3, 300\nOP_MOV R4, R1") (by decide +kernel)
  have hf : ∀ l ∈ Runtime.ascii.instructionLines
        (chars "OP_GATHER_NODE_ATTR R1, R2, R3, 300\nOP_MOV R4, R1"),
      ∀ op ∈ Op.ofName? l.1, ∀ i ∈ flagsToken op l.2,
        0 ≤ Runtime.ascii.valueAt constants l.2 i ∧
          Runtime.ascii.valueAt constants l.2 i < 128 := by
    decide +kernel
  obtain ⟨env, units, -, -, hfetch, hlines, -⟩ := parseImpasFile_fetches hp
    fun l hl op hop i hi v hv => hv.valueAt_eq ▸ hf l hl op hop i hi
  exact ⟨p, _, hp, units, hfetch, hlines.length_eq.symm.trans (by decide +kernel)⟩

end Runtime

end ImpulseTools

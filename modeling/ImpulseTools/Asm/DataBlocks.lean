import ImpulseTools.Asm.Run
import ImpulseTools.Lib.Concat

/-! # The data buffer

The buffer is one block for each data directive, without gaps, and every block reads back
as what its directive lists.
-/

namespace ImpulseTools

/-- A little-endian reading of the buffer, four bytes at a time. -/
def readWords : List Byte → List ℕ
  | a :: b :: c :: d :: t =>
    (a.toNat + 2 ^ 8 * b.toNat + 2 ^ 16 * c.toNat + 2 ^ 24 * d.toNat) :: readWords t
  | _ => []

def wordBytes (ws : List (BitVec 32)) : List Byte := ws.flatMap fun w => le32 w.toNat

theorem readWords_le32 (w : BitVec 32) (t : List Byte) :
    readWords (le32 w.toNat ++ t) = w.toNat :: readWords t := by
  have := w.isLt
  simp only [le32, List.cons_append, List.nil_append, readWords, BitVec.toNat_ofNat,
    Nat.shiftRight_eq_div_pow]
  congr 1
  omega

theorem readWords_wordBytes (ws : List (BitVec 32)) :
    readWords (wordBytes ws) = ws.map BitVec.toNat := by
  induction ws with
  | nil => rfl
  | cons w ws ih =>
    rw [wordBytes, List.flatMap_cons, readWords_le32, ← wordBytes, ih, List.map_cons]

theorem length_wordBytes (ws : List (BitVec 32)) : (wordBytes ws).length = 4 * ws.length := by
  induction ws with
  | nil => rfl
  | cons w ws ih =>
    rw [wordBytes, List.flatMap_cons, List.length_append, ← wordBytes, ih, List.length_cons]
    simp only [le32, List.length_cons, List.length_nil]
    omega

theorem wordBytes_append (a b : List (BitVec 32)) :
    wordBytes (a ++ b) = wordBytes a ++ wordBytes b :=
  List.flatMap_append

def wordInt (w : BitVec 32) : ℤ := w.toNat

theorem packU32_eq_ok {v : ℤ} {b : List Byte} :
    packU32 v = .ok b ↔ ∃ w : BitVec 32, wordInt w = v ∧ le32 w.toNat = b := by
  unfold packU32
  constructor
  · intro h
    split at h
    · rename_i hv
      obtain ⟨n, rfl⟩ := Int.eq_ofNat_of_zero_le hv.1
      have hn : (BitVec.ofNat 32 n).toNat = n := Nat.mod_eq_of_lt (by omega)
      refine ⟨BitVec.ofNat 32 n, by rw [wordInt, hn], ?_⟩
      rw [hn]
      exact Except.ok.inj h
    · cases h
  · rintro ⟨w, rfl, rfl⟩
    have hw : 0 ≤ wordInt w ∧ wordInt w < 2 ^ 32 :=
      ⟨Int.natCast_nonneg _, Int.ofNat_lt.mpr w.isLt⟩
    rw [if_pos hw, wordInt, Int.toNat_natCast]

theorem packAll_eq_ok {vs : List ℤ} {b : List Byte} (h : Runtime.packAll vs = .ok b) :
    ∃ ws, ws.map wordInt = vs ∧ wordBytes ws = b := by
  obtain ⟨bs, hbs, rfl⟩ := ExceptFold.map_eq_ok.mp h
  rw [ExceptFold.mapM_eq_ok] at hbs
  clear h
  induction hbs with
  | nil => exact ⟨[], rfl, rfl⟩
  | cons hv _ ih =>
    obtain ⟨w, rfl, rfl⟩ := packU32_eq_ok.mp hv
    obtain ⟨ws, rfl, hws⟩ := ih
    exact ⟨w :: ws, rfl, by rw [wordBytes, List.flatMap_cons, ← wordBytes, hws, List.flatten_cons]⟩

theorem exists_rows {rows : List (List ℤ)} {ws : List (BitVec 32)}
    (h : ws.map wordInt = rows.flatten) :
    ∃ rows' : List (List (BitVec 32)), rows'.map (List.map wordInt) = rows ∧
      rows'.flatten = ws := by
  induction rows generalizing ws with
  | nil => exact ⟨[], rfl, (List.map_eq_nil_iff.mp h).symm⟩
  | cons row rows ih =>
    rw [List.flatten_cons] at h
    obtain ⟨a, b, rfl, rfl, hb⟩ := List.map_eq_append_iff.mp h
    obtain ⟨rows', rfl, rfl⟩ := ih hb
    exact ⟨a :: rows', rfl, rfl⟩

/-- What a block of the buffer holds: the rows of a graph, or the elements of an array. -/
inductive Content where
  | csr (rows : List (List (BitVec 32))) (fits : rows.flatten.length < 2 ^ 32)
  | array (elems : List (BitVec 32))

namespace Content

def words : Content → List (BitVec 32)
  | csr rows _ => (Concat.offsets rows).map (BitVec.ofNat 32) ++ rows.flatten
  | array elems => elems

def bytes (c : Content) : List Byte := wordBytes c.words

def count : Content → ℕ
  | csr rows _ => rows.length
  | array elems => elems.length

/-- Row offsets and targets from which the rows are cut out again. -/
structure ReadsRows (rows : List (List (BitVec 32))) (offs tgts : List ℕ) : Prop where
  length_eq : offs.length = rows.length + 1
  first : offs[0]? = some 0
  sorted : offs.Pairwise (· ≤ ·)
  last : offs[rows.length]? = some tgts.length
  slice : ∀ k row, rows[k]? = some row → ∃ a b, offs[k]? = some a ∧ offs[k + 1]? = some b ∧
    (tgts.take b).drop a = row.map BitVec.toNat

/-- The words of the block, read without knowing how they were written. -/
def ReadsBack (c : Content) : Prop :=
  match c with
  | csr rows _ => ReadsRows rows ((readWords c.bytes).take (rows.length + 1))
      ((readWords c.bytes).drop (rows.length + 1))
  | array elems => readWords c.bytes = elems.map BitVec.toNat

theorem readsRows (rows : List (List (BitVec 32))) :
    ReadsRows rows (Concat.offsets rows) (rows.flatten.map BitVec.toNat) where
  length_eq := Concat.length_offsets rows
  first := by
    rw [Concat.getElem?_offsets (Nat.zero_le _)]
    rfl
  sorted := Concat.pairwise_offsets rows
  last := by rw [Concat.getElem?_offsets le_rfl, Concat.offset_length, List.length_map]
  slice k row hk := by
    obtain ⟨hlt, rfl⟩ := List.getElem?_eq_some_iff.mp hk
    refine ⟨_, _, Concat.getElem?_offsets hlt.le, Concat.getElem?_offsets hlt, ?_⟩
    rw [← List.map_take, ← List.map_drop, Concat.slice_flatten hlt]

theorem map_words_csr {rows : List (List (BitVec 32))} (fits : rows.flatten.length < 2 ^ 32) :
    (csr rows fits).words.map BitVec.toNat =
      Concat.offsets rows ++ rows.flatten.map BitVec.toNat := by
  have hoffs : ((Concat.offsets rows).map (BitVec.ofNat 32)).map BitVec.toNat =
      Concat.offsets rows := by
    rw [List.map_map]
    refine (List.map_congr_left fun n hn => ?_).trans (List.map_id _)
    exact Nat.mod_eq_of_lt ((Concat.le_of_mem_offsets hn).trans_lt fits)
  rw [words, List.map_append, hoffs]

theorem readsBack (c : Content) : c.ReadsBack := by
  cases c with
  | csr rows fits =>
    rw [ReadsBack, bytes, readWords_wordBytes, map_words_csr, ← Concat.length_offsets rows,
      List.take_left, List.drop_left]
    exact readsRows rows
  | array elems => exact readWords_wordBytes elems

theorem dvd_length_bytes (c : Content) : 4 ∣ c.bytes.length :=
  ⟨_, length_wordBytes c.words⟩

end Content

structure Block where
  name : Text
  content : Content

inductive Directive where
  | csrInline (name body : Text)
  | arrayFloat (name body : Text)
  | arrayInt (name body : Text)

def rowTexts (lines : List Text) : List Text := lines.filterMap fun l => (Scan.cut ':' l.strip).2

namespace Runtime

variable (py : Runtime)

/-- The directives in the order of the passes. -/
def directives (text : Text) : List Directive :=
  (Scan.findIter py.csrInlineAt text).map (fun m => .csrInline m.1 m.2) ++
    (Scan.findIter py.arrayFloatAt text).map (fun m => .arrayFloat m.1 m.2) ++
    (Scan.findIter py.arrayIntAt text).map fun m => .arrayInt m.1 m.2

inductive Describes : Directive → Block → Prop
  | csrInline {name body rows fits} (h : List.Forall₂
      (fun t row => py.rowTargets t = .ok (row.map wordInt)) (rowTexts body.splitlines) rows) :
      Describes (.csrInline name body) ⟨name, .csr rows fits⟩
  | arrayFloat {name body bits} (h : List.Forall₂
      (fun t b => ∃ x, py.floatLiteral t = .ok x ∧ py.packFloat x = some b) (listItems body) bits) :
      Describes (.arrayFloat name body) ⟨name, .array bits⟩
  | arrayInt {name body ws} (h : List.Forall₂
      (fun t w => py.int t = .ok (wordInt w)) (listItems body) ws) :
      Describes (.arrayInt name body) ⟨name, .array ws⟩

variable {py}

structure Appends (b : Block) (d d' : DataSection) : Prop where
  bytes_eq : d'.bytes = d.bytes ++ b.content.bytes
  symbols_eq : d'.symbols = d.symbols.insert b.name ⟨d.bytes.length, .num b.content.count⟩

theorem csrRows_eq_ok {body : Text} {acc : CsrRows} (h : py.csrRows body = .ok acc) :
    ∃ rows : List (List ℤ),
      List.Forall₂ (fun t row => py.rowTargets t = .ok row) (rowTexts body.splitlines) rows ∧
        acc.targets = rows.flatten ∧ acc.offsets = (Concat.offsets rows).map (↑) ∧
        acc.nodeCount = rows.length := by
  refine ExceptFold.foldlM_induction (P := fun lines (acc : CsrRows) => ∃ rows : List (List ℤ),
      List.Forall₂ (fun t row => py.rowTargets t = .ok row) (rowTexts lines) rows ∧
        acc.targets = rows.flatten ∧ acc.offsets = (Concat.offsets rows).map (↑) ∧
        acc.nodeCount = rows.length) ⟨[], .nil, rfl, rfl, rfl⟩ ?_ h
  rintro lines line acc acc' ⟨rows, hrows, ht, ho, hn⟩ hstep
  have hsplit : rowTexts (lines ++ [line]) =
      rowTexts lines ++ rowTexts [line] := List.filterMap_append
  unfold csrLine at hstep
  dsimp only at hstep
  split at hstep
  · rename_i hcut
    cases hstep
    have : rowTexts [line] = [] := by simp [rowTexts, hcut]
    exact ⟨rows, by rwa [hsplit, this, List.append_nil], ht, ho, hn⟩
  · rename_i tgt hcut
    simp only [ExceptFold.bind_eq_ok, pure, Except.pure, Except.ok.injEq] at hstep
    obtain ⟨row, hrow, rfl⟩ := hstep
    have : rowTexts [line] = [tgt] := by simp [rowTexts, hcut]
    refine ⟨rows ++ [row], ?_, ?_, ?_, ?_⟩
    · rw [hsplit, this]
      exact List.rel_append hrows (.cons hrow .nil)
    · rw [ht, List.flatten_append, List.flatten_singleton]
    · simp only [ho, ht, Concat.offsets_append_singleton, List.map_append, List.length_append,
        List.map_singleton]
    · simp [hn]

theorem offsets_words {ws : List (BitVec 32)} {ns : List ℕ}
    (h : ws.map wordInt = ns.map (fun n : ℕ => (n : ℤ))) :
    ws = ns.map (BitVec.ofNat 32) ∧ ∀ n ∈ ns, n < 2 ^ 32 := by
  induction ws generalizing ns with
  | nil =>
    obtain rfl := List.map_eq_nil_iff.mp h.symm
    exact ⟨rfl, by simp⟩
  | cons w ws ih =>
    cases ns with
    | nil => cases h
    | cons n ns =>
      rw [List.map_cons, List.map_cons, List.cons.injEq] at h
      obtain ⟨rfl, hlt⟩ := ih h.2
      have hn : w.toNat = n := Int.ofNat_inj.mp h.1
      refine ⟨?_, List.forall_mem_cons.mpr ⟨hn ▸ w.isLt, hlt⟩⟩
      rw [List.map_cons, ← hn, BitVec.ofNat_toNat, BitVec.setWidth_eq]

theorem csrInline_appends {d d' : DataSection} {m : Text × Text}
    (h : py.csrInline d m = .ok d') :
    ∃ b, py.Describes (.csrInline m.1 m.2) b ∧ Appends b d d' := by
  simp only [csrInline, ExceptFold.bind_eq_ok, pure, Except.pure, Except.ok.injEq] at h
  obtain ⟨acc, hacc, offs, hoffs, tgts, htgts, rfl⟩ := h
  obtain ⟨rows, hrows, ht, ho, hn⟩ := csrRows_eq_ok hacc
  rw [ho] at hoffs
  rw [ht] at htgts
  obtain ⟨ws, hws, rfl⟩ := packAll_eq_ok hoffs
  obtain ⟨ts, hts, rfl⟩ := packAll_eq_ok htgts
  obtain ⟨rows', rfl, rfl⟩ := exists_rows hts
  rw [Concat.offsets_map] at hws
  obtain ⟨rfl, hlt⟩ := offsets_words hws
  have fits := hlt _ (Concat.length_flatten_mem_offsets rows')
  refine ⟨⟨m.1, .csr rows' fits⟩, .csrInline ?_, ?_, ?_⟩
  · simpa only [List.forall₂_map_right_iff] using hrows
  · simp only [Content.bytes, Content.words, wordBytes_append, List.append_assoc]
  · rw [hn, List.length_map]
    rfl

theorem pad4_of_dvd {bytes : List Byte} (h : 4 ∣ bytes.length) : pad4 bytes = bytes := by
  rw [pad4, Nat.mod_eq_zero_of_dvd h]
  exact List.append_nil _

theorem floatBits_eq_ok {x : BitVec 64} {b : BitVec 32} :
    py.floatBits x = .ok b ↔ py.packFloat x = some b := by
  unfold floatBits
  cases py.packFloat x <;> simp

theorem arrayFloat_appends {d d' : DataSection} {m : Text × Text} (hd : 4 ∣ d.bytes.length)
    (h : py.arrayFloat d m = .ok d') :
    ∃ b, py.Describes (.arrayFloat m.1 m.2) b ∧ Appends b d d' := by
  simp only [arrayFloat, ExceptFold.bind_eq_ok, pure, Except.pure, Except.ok.injEq,
    ExceptFold.mapM_eq_ok, pad4_of_dvd hd] at h
  obtain ⟨xs, hxs, bits, hbits, rfl⟩ := h
  refine ⟨⟨m.1, .array bits⟩, .arrayFloat ?_, rfl, ?_⟩
  · refine (ExceptFold.forall₂_comp hxs hbits).imp ?_
    rintro t b ⟨x, hx, hb⟩
    exact ⟨x, hx, floatBits_eq_ok.mp hb⟩
  · rw [hbits.length_eq]
    rfl

theorem arrayInt_appends {d d' : DataSection} {m : Text × Text} (hd : 4 ∣ d.bytes.length)
    (h : py.arrayInt d m = .ok d') :
    ∃ b, py.Describes (.arrayInt m.1 m.2) b ∧ Appends b d d' := by
  simp only [arrayInt, ExceptFold.bind_eq_ok, pure, Except.pure, Except.ok.injEq,
    intList, ExceptFold.mapM_eq_ok, pad4_of_dvd hd] at h
  obtain ⟨vs, hvs, packed, hp, rfl⟩ := h
  obtain ⟨ws, rfl, rfl⟩ := packAll_eq_ok hp
  refine ⟨⟨m.1, .array ws⟩, .arrayInt ?_, rfl, ?_⟩
  · simpa only [List.forall₂_map_right_iff] using hvs
  · rw [List.length_map]
    rfl

structure Tiled (py : Runtime) (dirs : List Directive) (blocks : List Block) (d : DataSection) :
    Prop where
  describes : List.Forall₂ py.Describes dirs blocks
  bytes_eq : d.bytes = (blocks.map (·.content.bytes)).flatten
  lookup_iff : ∀ name s, d.symbols.lookup name = some s ↔
    ∃ k b, blocks[k]? = some b ∧ b.name = name ∧
      (∀ j b', k < j → blocks[j]? = some b' → b'.name ≠ name) ∧
      s = ⟨Concat.offset (blocks.map (·.content.bytes)) k, .num b.content.count⟩

theorem dvd_offset_blocks (blocks : List Block) (k : ℕ) :
    4 ∣ Concat.offset (blocks.map (·.content.bytes)) k := by
  refine Concat.dvd_offset (fun bs hbs => ?_) k
  obtain ⟨b, -, rfl⟩ := List.mem_map.mp hbs
  exact b.content.dvd_length_bytes

variable {dirs : List Directive} {blocks : List Block} {d d' : DataSection}

theorem Tiled.length_bytes (h : Tiled py dirs blocks d) :
    d.bytes.length = Concat.offset (blocks.map (·.content.bytes)) blocks.length := by
  rw [h.bytes_eq, ← Concat.offset_length, List.length_map]

theorem Tiled.append (h : Tiled py dirs blocks d) {m : Directive} {b : Block}
    (hm : py.Describes m b) (ha : Appends b d d') :
    Tiled py (dirs ++ [m]) (blocks ++ [b]) d' where
  describes := List.rel_append h.describes (.cons hm .nil)
  bytes_eq := by
    rw [ha.bytes_eq, h.bytes_eq, List.map_append, List.flatten_append, List.map_singleton,
      List.flatten_singleton]
  lookup_iff name s := by
    have hconcat {k : ℕ} {c : Block} : (blocks ++ [b])[k]? = some c ↔
        blocks[k]? = some c ∨ k = blocks.length ∧ c = b := Concat.getElem?_concat_eq_some
    have hlt {k : ℕ} {c : Block} (hk : blocks[k]? = some c) : k < blocks.length :=
      (List.getElem?_eq_some_iff.mp hk).1
    have hoffset {k : ℕ} (hk : k ≤ blocks.length) :
        Concat.offset ((blocks ++ [b]).map (·.content.bytes)) k =
          Concat.offset (blocks.map (·.content.bytes)) k := by
      rw [List.map_append, Concat.offset_append (by simpa using hk)]
    rw [ha.symbols_eq]
    by_cases hn : name = b.name
    · subst hn
      rw [AList.lookup_insert, h.length_bytes, Option.some.injEq]
      constructor
      · rintro rfl
        refine ⟨blocks.length, b, hconcat.mpr (.inr ⟨rfl, rfl⟩), rfl, fun j c hj hc => ?_,
          by rw [hoffset le_rfl]⟩
        rcases hconcat.mp hc with hc | ⟨rfl, -⟩
        · exact absurd (hlt hc) hj.not_gt
        · exact absurd hj (lt_irrefl _)
      · rintro ⟨k, c, hk, hname, hlater, rfl⟩
        rcases hconcat.mp hk with hk | ⟨rfl, rfl⟩
        · exact absurd rfl (hlater _ b (hlt hk) (hconcat.mpr (.inr ⟨rfl, rfl⟩)))
        · rw [hoffset le_rfl]
    · rw [AList.lookup_insert_ne hn, h.lookup_iff]
      constructor
      · rintro ⟨k, c, hk, hname, hlater, rfl⟩
        refine ⟨k, c, hconcat.mpr (.inl hk), hname, fun j c hj hc => ?_,
          by rw [hoffset (hlt hk).le]⟩
        rcases hconcat.mp hc with hc | ⟨-, rfl⟩
        · exact hlater j c hj hc
        · exact Ne.symm hn
      · rintro ⟨k, c, hk, hname, hlater, rfl⟩
        rcases hconcat.mp hk with hk | ⟨-, rfl⟩
        · refine ⟨k, c, hk, hname, fun j c hj hc => ?_, by rw [hoffset (hlt hk).le]⟩
          exact hlater j c hj (hconcat.mpr (.inl hc))
        · exact absurd hname.symm hn

theorem tiled_foldlM {f : DataSection → Text × Text → Except PyErr DataSection}
    (kind : Text × Text → Directive)
    (hf : ∀ d d' m, 4 ∣ d.bytes.length → f d m = .ok d' →
      ∃ b, py.Describes (kind m) b ∧ Appends b d d')
    (h : Tiled py dirs blocks d) {ms : List (Text × Text)} (hms : ms.foldlM f d = .ok d') :
    ∃ blocks, Tiled py (dirs ++ ms.map kind) blocks d' := by
  refine ExceptFold.foldlM_induction
    (P := fun ms d' => ∃ blocks, Tiled py (dirs ++ ms.map kind) blocks d') ⟨blocks, ?_⟩ ?_ hms
  · rwa [List.map_nil, List.append_nil]
  · rintro ms m d d' ⟨blocks, ht⟩ hm
    obtain ⟨b, hb, ha⟩ := hf d d' m (ht.length_bytes ▸ dvd_offset_blocks _ _) hm
    refine ⟨blocks ++ [b], ?_⟩
    rw [List.map_append, List.map_singleton, ← List.append_assoc]
    exact ht.append hb ha

theorem tiled_dataSection {text : Text} (h : py.dataSection text = .ok d) :
    ∃ blocks, Tiled py (py.directives text) blocks d := by
  simp only [dataSection, ExceptFold.bind_eq_ok] at h
  obtain ⟨d₁, h₁, d₂, h₂, h₃⟩ := h
  have h₀ : Tiled py [] [] {} := ⟨.nil, rfl, by simp⟩
  obtain ⟨_, h₁⟩ := tiled_foldlM (fun m => .csrInline m.1 m.2)
    (fun _ _ _ _ h => csrInline_appends h) h₀ h₁
  obtain ⟨_, h₂⟩ := tiled_foldlM (fun m => .arrayFloat m.1 m.2)
    (fun _ _ _ => arrayFloat_appends) h₁ h₂
  obtain ⟨blocks, h₃⟩ := tiled_foldlM (fun m => .arrayInt m.1 m.2)
    (fun _ _ _ => arrayInt_appends) h₂ h₃
  exact ⟨blocks, h₃⟩

/-- The buffer is the blocks of the directives, which are aligned and read back as listed, and a
name stands for the place of the last block that has it. -/
theorem dataSection_blocks {text : Text} (h : py.dataSection text.universalNewlines = .ok d) :
    ∃ blocks, List.Forall₂ py.Describes (py.directives text.universalNewlines) blocks ∧
      d.bytes = (blocks.map (·.content.bytes)).flatten ∧
      (∀ k, 4 ∣ Concat.offset (blocks.map (·.content.bytes)) k) ∧
      (∀ b ∈ blocks, b.content.ReadsBack) ∧
      (∀ name s, d.symbols.lookup name = some s ↔
        ∃ k b, blocks[k]? = some b ∧ b.name = name ∧
          (∀ j b', k < j → blocks[j]? = some b' → b'.name ≠ name) ∧
          s = ⟨Concat.offset (blocks.map (·.content.bytes)) k, .num b.content.count⟩) ∧
      ∀ K p K', py.parseImpasFile K text = (.ok p, K') → p.data = d.bytes := by
  obtain ⟨blocks, ht⟩ := tiled_dataSection h
  refine ⟨blocks, ht.describes, ht.bytes_eq, dvd_offset_blocks blocks,
    fun b _ => b.content.readsBack, ht.lookup_iff, fun K p K' hp => ?_⟩
  obtain ⟨d', _, _, _, hd', -, -, hfold⟩ := parseImpasFile_eq_ok.mp hp
  obtain rfl : d = d' := Except.ok.inj (h.symm.trans hd')
  obtain ⟨_, ha⟩ := foldlM_parseLine hfold
  exact ha.data_eq

theorem dataSection_blocks_graph :
    ∃ d, Runtime.ascii.dataSection
        (chars ".csr_inline g = \x7b 0: [1, 2]\n 1: [] \x7d\n.set s = [5]").universalNewlines =
          .ok d ∧
      ∃ blocks : List Block, d.bytes = (blocks.map (·.content.bytes)).flatten ∧
        blocks.length = 2 := by
  obtain ⟨d, hd⟩ := ExceptFold.exists_of_isOk (x := Runtime.ascii.dataSection
      (chars ".csr_inline g = \x7b 0: [1, 2]\n 1: [] \x7d\n.set s = [5]").universalNewlines)
    (by decide +kernel)
  obtain ⟨blocks, hb, hbytes, -⟩ := dataSection_blocks hd
  exact ⟨d, hd, blocks, hbytes, hb.length_eq.symm.trans (by decide +kernel)⟩

end Runtime

end ImpulseTools

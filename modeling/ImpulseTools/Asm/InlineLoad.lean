import ImpulseTools.Asm.Accept
import ImpulseTools.Asm.Directive
import ImpulseTools.Asm.Graph
import ImpulseTools.Asm.Storage

/-! # Inline loads

`OP_INIT_MOCK_GRAPH` and the `OP_LOAD_INLINE_*` instructions carry the place of a data block in
their payload, the byte offset below the count. One table holds the places of graphs and arrays
and the ids of relations, and nothing tells them apart.
-/

namespace ImpulseTools

def Op.loadsInline (op : Op) : Bool := op.name.startsWith (chars "OP_LOAD_INLINE_")

theorem branch_of_inline {op : Op} (h : op = .initMockGraph ∨ op.loadsInline) (toks : List Text) :
    branch op toks = .inlineLoad ∧ extendable op = false := by
  have hloads : ∀ o ∈ Op.opcodes ++ Op.opcodeAliases, o.loadsInline →
      o ∈ [Op.loadInlineArray, .loadInlineIntArray, .loadInlineSet, .loadInlineSetDense,
        .loadInlineSetRoaring, .loadInlineNodeArray] := by decide +kernel
  rcases h with rfl | h
  · exact ⟨rfl, rfl⟩
  · have hm := hloads op (Op.mem_names op) h
    simp only [List.mem_cons, List.not_mem_nil, or_false] at hm
    rcases hm with rfl | rfl | rfl | rfl | rfl | rfl <;> exact ⟨rfl, rfl⟩

def lastOf (name : Text) : List (Text × Text) → Option Text
  | [] => none
  | m :: ms => (lastOf name ms).or (if m.1 = name then some m.2 else none)

theorem mem_of_lastOf {name body : Text} {ms : List (Text × Text)}
    (h : lastOf name ms = some body) : (name, body) ∈ ms := by
  induction ms with
  | nil => cases h
  | cons m ms ih =>
    rw [lastOf, Option.or_eq_some_iff] at h
    rcases h with h | ⟨-, h⟩
    · exact List.mem_cons_of_mem _ (ih h)
    · split at h
      · rename_i hm
        obtain rfl := Option.some.inj h
        subst hm
        exact List.mem_cons_self
      · cases h

theorem exists_last {α : Type} {P : α → Prop} {l : List α} (h : ∃ a ∈ l, P a) :
    ∃ (k : ℕ) (a : α), l[k]? = some a ∧ P a ∧ ∀ j b, k < j → l[j]? = some b → ¬ P b := by
  induction l with
  | nil => simp at h
  | cons c l ih =>
    by_cases ht : ∃ a ∈ l, P a
    · obtain ⟨k, a, hk, ha, hlast⟩ := ih ht
      refine ⟨k + 1, a, hk, ha, fun j b hj hb => ?_⟩
      obtain ⟨j, rfl⟩ := Nat.exists_eq_succ_of_ne_zero (Nat.ne_zero_of_lt hj)
      exact hlast j b (Nat.lt_of_succ_lt_succ hj) hb
    · obtain ⟨a, ha, hPa⟩ := h
      rcases List.mem_cons.mp ha with rfl | ha
      · refine ⟨0, a, rfl, hPa, fun j b hj hb hPb => ht ?_⟩
        obtain ⟨j, rfl⟩ := Nat.exists_eq_succ_of_ne_zero hj.ne'
        exact ⟨b, List.mem_of_getElem? hb, hPb⟩
      · exact absurd ⟨a, ha, hPa⟩ ht

structure LastNamed (blocks : List Block) (name : Text) (k : ℕ) (b : Block) : Prop where
  getElem?_eq : blocks[k]? = some b
  name_eq : b.name = name
  last : ∀ j b', k < j → blocks[j]? = some b' → b'.name ≠ name

theorem LastNamed.singleton {b : Block} {name : Text} (h : b.name = name) :
    LastNamed [b] name 0 b := by
  refine ⟨rfl, h, fun j b' hj hb' => ?_⟩
  have := (List.getElem?_eq_some_iff.mp hb').1
  simp at this
  omega

theorem LastNamed.eq {blocks : List Block} {name : Text} {k k' : ℕ} {b b' : Block}
    (h : LastNamed blocks name k b) (h' : LastNamed blocks name k' b') : k = k' ∧ b = b' := by
  rcases Nat.lt_trichotomy k k' with hlt | rfl | hlt
  · exact absurd h'.name_eq (h.last k' b' hlt h'.getElem?_eq)
  · exact ⟨rfl, Option.some.inj (h.getElem?_eq.symm.trans h'.getElem?_eq)⟩
  · exact absurd h.name_eq (h'.last k b hlt h.getElem?_eq)

namespace Runtime

section

variable (py : Runtime)

/-- The id a name has as a relation of the file: that of the last `.rel` of the name. -/
def relationId (text name : Text) : Option ℕ :=
  (lastOf name (Scan.findIter py.relAt text)).bind fun digits =>
    (py.int digits).toOption.map Int.toNat

/-- What the symbol table keeps for a name: the id of a relation, the place of the last block that
has the name, or nothing. -/
inductive Stands (text : Text) (blocks : List Block) (name : Text) : ℕ → ℕ → Prop
  | relation {id : ℕ} (h : py.relationId text name = some id) : Stands text blocks name id 0
  | block {k : ℕ} {b : Block} (hr : py.relationId text name = none)
      (hb : LastNamed blocks name k b) :
      Stands text blocks name (Concat.offset (blocks.map (·.content.bytes)) k) b.content.count
  | undefined (hr : py.relationId text name = none) (hn : ∀ b ∈ blocks, b.name ≠ name) :
      Stands text blocks name 0 0

end

variable {py : Runtime}

theorem int_nonneg {t : Text} {v : ℤ} (ht : '-' ∉ t) (h : py.int t = .ok v) : 0 ≤ v := by
  have hs : '-' ∉ Scan.trim intSpace t := fun hm => ht (Scan.mem_of_mem_trim hm)
  have hsign : (signed (Scan.trim intSpace t)).1 = 1 := by
    unfold signed
    split
    · rfl
    · rename_i heq
      exact absurd (heq ▸ List.mem_cons_self) hs
    · rfl
  unfold int at h
  dsimp only at h
  split at h
  · cases h
  · split at h
    · cases h
    · cases h
      rw [hsign, one_mul]
      exact Int.natCast_nonneg _

theorem rel_digits {text : Text} {m : Text × Text} (h : m ∈ Scan.findIter py.relAt text) :
    '-' ∉ m.2 := by
  obtain ⟨t, rest, hm⟩ := Scan.exists_of_mem_findIter h
  simp only [relAt, bind, Option.bind_eq_some_iff, Prod.exists, pure, Option.some.injEq,
    Prod.mk.injEq] at hm
  obtain ⟨_, -, _, _, -, _, _, -, _, -, ds, _, hds, rfl, -⟩ := hm
  intro hmem
  have := Scan.of_mem_run hds '-' hmem
  rw [py.decimal_ascii '-' (by decide)] at this
  exact absurd this (by decide)

theorem lookup_symbols_bindRels {ms : List (Text × Text)} {s s₁ : Symbols} {K K₁ : Constants}
    (h : py.bindRels ms s K = (.ok s₁, K₁)) (name : Text) :
    (lastOf name ms = none ∧ s₁.lookup name = s.lookup name) ∨
      ∃ digits id, lastOf name ms = some digits ∧ py.int digits = .ok id ∧
        s₁.lookup name = some ⟨id, .num 0⟩ := by
  induction ms generalizing s K with
  | nil =>
    cases h
    exact .inl ⟨rfl, rfl⟩
  | cons m ms ih =>
    obtain ⟨n, digits⟩ := m
    unfold bindRels at h
    cases hd : py.int digits with
    | error e => simp [hd] at h
    | ok id =>
      simp only [hd] at h
      rcases ih h with ⟨hl, h'⟩ | ⟨ds, id', hl, hid, h'⟩
      · by_cases hn : n = name
        · subst hn
          exact .inr ⟨digits, id, by simp [lastOf, hl], hd, by rw [h', AList.lookup_insert]⟩
        · exact .inl ⟨by simp [lastOf, hl, hn], by rw [h', AList.lookup_insert_ne (Ne.symm hn)]⟩
      · exact .inr ⟨ds, id', by simp [lastOf, hl], hid, h'⟩

theorem lookup_symbols_bindVrels {ms : List (Text × Text)} {s s₁ : Symbols} {K K₁ : Constants}
    (h : py.bindVrels ms s K = (.ok s₁, K₁)) (name : Text) :
    s₁.lookup name = s.lookup name ∨ ∃ id ids, s₁.lookup name = some ⟨id, .ids ids⟩ := by
  induction ms generalizing s K with
  | nil =>
    cases h
    exact .inl rfl
  | cons m ms ih =>
    obtain ⟨n, comps⟩ := m
    unfold bindVrels at h
    cases hc : py.compIds K comps with
    | error e => simp [hc] at h
    | ok ids =>
      simp only [hc] at h
      rcases ih h with h' | h'
      · rw [h']
        by_cases hn : name = n
        · subst hn
          exact .inr ⟨_, _, AList.lookup_insert _⟩
        · exact .inl (AList.lookup_insert_ne hn)
      · exact .inr h'

variable {text : Text} {blocks : List Block} {name : Text} {off n : ℕ} {u : List Instruction}
  {sym : Option Text}

theorem exists_stands {d : DataSection} {s₁ s₂ : Symbols} {K K₁ K₂ : Constants}
    {ints : Finset Text} {q : ℤ} (hd : Tiled py (py.directives text) blocks d)
    (hr : py.bindRels (Scan.findIter py.relAt text) d.symbols K = (.ok s₁, K₁))
    (hv : py.bindVrels (Scan.findIter py.vrelAt text) s₁ K₁ = (.ok s₂, K₂))
    (hq : namedPayload ⟨K₂, s₂, ints⟩ name = .ok q) :
    ∃ off n, Stands py text blocks name off n ∧ q = (off ||| n <<< 16 : ℕ) := by
  have hpayload {off n : ℕ} : symbolPayload ⟨off, .num n⟩ = .ok ((off ||| n <<< 16 : ℕ) : ℤ) := by
    rw [Nat.shiftLeft_eq]
    push_cast
    rfl
  unfold namedPayload at hq
  rcases lookup_symbols_bindVrels hv name with h | ⟨id, ids, h⟩
  · rcases lookup_symbols_bindRels hr name with ⟨hl, h'⟩ | ⟨digits, id, hl, hid, h'⟩
    · have hrel : py.relationId text name = none := by rw [relationId, hl, Option.bind_none]
      simp only [h, h'] at hq
      cases hs : d.symbols.lookup name with
      | none =>
        have hn : ∀ b ∈ blocks, b.name ≠ name := by
          intro b hb hname
          obtain ⟨k, b', hk, hb', hlast⟩ :=
            exists_last (P := fun b : Block => b.name = name) ⟨b, hb, hname⟩
          rw [(hd.lookup_iff name _).mpr ⟨k, b', hk, hb', hlast, rfl⟩] at hs
          cases hs
        simp only [hs, Except.ok.injEq] at hq
        exact ⟨0, 0, .undefined hrel hn, hq.symm⟩
      | some s =>
        obtain ⟨k, b, hk, hb, hlast, rfl⟩ := (hd.lookup_iff name s).mp hs
        simp only [hs, hpayload, Except.ok.injEq] at hq
        exact ⟨_, _, .block hrel ⟨hk, hb, hlast⟩, hq.symm⟩
    · have hnonneg := int_nonneg (rel_digits (mem_of_lastOf hl)) hid
      obtain ⟨id, rfl⟩ := Int.eq_ofNat_of_zero_le hnonneg
      have hrel : py.relationId text name = some id := by
        rw [relationId, hl, Option.bind_some, hid]
        rfl
      simp only [h, h'] at hq
      exact ⟨id, 0, .relation hrel, Except.ok.inj (hq.symm.trans (hpayload (n := 0)))⟩
  · simp [h, symbolPayload] at hq

/-- The payload of an inline load is the place its symbol stands for, the two parts joined bit by
bit and cut to 32 bits. -/
theorem exists_inlineLoads {K K' : Constants} {text : Text} {p : Program}
    (h : py.parseImpasFile K text = (.ok p, K')) :
    ∃ env blocks units, env.constants = K' ∧ py.TablesOf K text env ∧
      List.Forall₂ py.Describes (py.directives text.universalNewlines) blocks ∧
      p.data = (blocks.map (·.content.bytes)).flatten ∧ p.instructions = units.flatten ∧
      List.Forall₂ (py.Encodes env) (py.instructionLines text) units ∧
      List.Forall₂ (fun l u => ∃ op, Op.ofName? l.1 = some op ∧
        (op = .initMockGraph ∨ op.loadsInline → u.length = 1 ∧
          (l.2[2]? = none → payloadOf u = 0) ∧
          ∀ t, l.2[2]? = some t → ∃ off n, Stands py text.universalNewlines blocks t.strip off n ∧
            payloadOf u = (off ||| n <<< 16) % 2 ^ 32)) (py.instructionLines text) units := by
  obtain ⟨d, s₁, K₁, s₂, hd, hr, hv, hp⟩ := parseImpasFile_eq_ok.mp h
  obtain ⟨blocks, ht⟩ := tiled_dataSection hd
  obtain ⟨units, ha⟩ := foldlM_parseLine hp
  refine ⟨_, blocks, units, rfl, ⟨d, s₁, K₁, hd, hr, hv, rfl⟩, ht.describes,
    ha.data_eq.trans ht.bytes_eq, ha.instructions_eq, ha.encodes, ha.encodes.imp ?_⟩
  rintro l u ⟨op, hop, he⟩
  refine ⟨op, hop, fun hinline => ?_⟩
  obtain ⟨hbranch, hext⟩ := branch_of_inline hinline l.2
  obtain ⟨o, ho, rfl⟩ := encode_eq_ok.mp he
  have hload : py.LoadReads ⟨K', s₂, d.intSymbols⟩ op l.2 o := by
    obtain ⟨-, ho⟩ := operands_eq_ok_iff.mp ho
    rwa [hbranch] at ho
  refine ⟨?_, fun hnone => ?_, fun t htok => ?_⟩
  · obtain ⟨he, -⟩ | ⟨-, he⟩ := emit_cases op o
    · rw [hext] at he
      cases he
    · rw [he]
      rfl
  · rw [payloadOf_emit]
    cases hload with
    | symbol ht' => simp [hnone] at ht'
    | nothing => rfl
  · cases hload with
    | symbol ht' hs =>
      obtain rfl := Option.some.inj (ht'.symm.trans htok)
      obtain ⟨off, n, hs, hq⟩ := exists_stands ht hr hv (namedPayload_eq_ok_iff.mpr hs)
      refine ⟨off, n, hs, ?_⟩
      rw [payloadOf_emit, hq, toNat_mask_natCast]
    | nothing ht' => simp [htok] at ht'

/-- The payload holds the byte offset in its low half and the count in its high half. -/
def Addresses (u : List Instruction) (off n : ℕ) : Prop :=
  payloadOf u % 2 ^ 16 = off ∧ payloadOf u / 2 ^ 16 = n

theorem or_shiftLeft_mod (off n : ℕ) : (off ||| n <<< 16) % 2 ^ 32 % 2 ^ 16 = off % 2 ^ 16 := by
  rw [Nat.mod_mod_of_dvd _ (by decide), Nat.or_mod_two_pow, Nat.shiftLeft_eq, Nat.mul_mod_left,
    Nat.or_zero]

theorem addresses_block_iff (h : payloadOf u = (off ||| n <<< 16) % 2 ^ 32) :
    Addresses u off n ↔ off < 2 ^ 16 ∧ n < 2 ^ 16 := by
  unfold Addresses
  rw [h, or_shiftLeft_mod]
  constructor
  · rintro ⟨hoff, hn⟩
    have hlt : off < 2 ^ 16 := hoff ▸ Nat.mod_lt _ (by decide)
    rw [BitField.or_shiftLeft hlt] at hn
    omega
  · rintro ⟨hoff, hn⟩
    rw [BitField.or_shiftLeft hoff]
    omega

theorem addresses_relation_iff {id : ℕ} (h : payloadOf u = (id ||| 0 <<< 16) % 2 ^ 32) :
    Addresses u off n ↔ off < 2 ^ 16 ∧ n < 2 ^ 16 ∧ id % 2 ^ 32 = off + 2 ^ 16 * n := by
  unfold Addresses
  rw [h, Nat.zero_shiftLeft, Nat.or_zero]
  constructor
  · rintro ⟨hoff, hn⟩
    omega
  · rintro ⟨hoff, hn, hid⟩
    rw [hid]
    omega

/-- An inline load carries the place of the one block of its name exactly when the offset and the
count are below 65536 and no relation of the name has put another number there. -/
theorem inline_load_addresses_iff {K K' : Constants} {text : Text} {p : Program}
    (h : py.parseImpasFile K text = (.ok p, K')) :
    ∃ env blocks units, env.constants = K' ∧ py.TablesOf K text env ∧
      List.Forall₂ py.Describes (py.directives text.universalNewlines) blocks ∧
      p.data = (blocks.map (·.content.bytes)).flatten ∧ p.instructions = units.flatten ∧
      List.Forall₂ (py.Encodes env) (py.instructionLines text) units ∧
      List.Forall₂ (fun l u => ∃ op, Op.ofName? l.1 = some op ∧
        (op = .initMockGraph ∨ op.loadsInline → u.length = 1 ∧
          ∀ t k b, l.2[2]? = some t → blocks[k]? = some b → b.name = t.strip →
            (∀ j b', blocks[j]? = some b' → b'.name = t.strip → j = k) →
            (Addresses u (Concat.offset (blocks.map (·.content.bytes)) k) b.content.count ↔
              Concat.offset (blocks.map (·.content.bytes)) k < 2 ^ 16 ∧
              b.content.count < 2 ^ 16 ∧
              ∀ id, py.relationId text.universalNewlines t.strip = some id → id % 2 ^ 32 =
                Concat.offset (blocks.map (·.content.bytes)) k + 2 ^ 16 * b.content.count)))
        (py.instructionLines text) units := by
  obtain ⟨env, blocks, units, hK, ht, hdesc, hdata, hinstr, henc, hlines⟩ := exists_inlineLoads h
  refine ⟨env, blocks, units, hK, ht, hdesc, hdata, hinstr, henc, hlines.imp ?_⟩
  rintro l u ⟨op, hop, hl⟩
  refine ⟨op, hop, fun hinline => ?_⟩
  obtain ⟨hone, -, hnamed⟩ := hl hinline
  refine ⟨hone, fun t k b ht hk hb honly => ?_⟩
  obtain ⟨off, n, hs, hq⟩ := hnamed t ht
  cases hs with
  | relation hrel =>
    rw [addresses_relation_iff hq]
    simp [hrel]
  | @block k' b' hrel hlast =>
    obtain rfl : k' = k := honly k' b' hlast.getElem?_eq hlast.name_eq
    obtain rfl : b' = b := Option.some.inj (hlast.getElem?_eq.symm.trans hk)
    rw [addresses_block_iff hq]
    simp [hrel]
  | undefined hrel hn => exact absurd hb (hn b (List.mem_of_getElem? hk))

def oneGraph : Text := chars ".csr_inline g = \x7b 0: [0] \x7d\nOP_INIT_MOCK_GRAPH R0, g"

theorem instructionLines_oneGraph : Runtime.ascii.instructionLines oneGraph =
    [(Op.initMockGraph.name, [Op.initMockGraph.name, chars "R0", chars "g"])] := by
  decide +kernel

theorem directives_oneGraph : Runtime.ascii.directives oneGraph.universalNewlines =
    [.csrInline (chars "g") (chars " 0: [0] ")] := by
  have hcsr : Scan.findIter Runtime.ascii.csrInlineAt oneGraph.universalNewlines =
      [(chars "g", chars " 0: [0] ")] := by decide +kernel
  have hfloat : Scan.findIter Runtime.ascii.arrayFloatAt oneGraph.universalNewlines = [] := by
    decide +kernel
  have hint : Scan.findIter Runtime.ascii.arrayIntAt oneGraph.universalNewlines = [] := by
    decide +kernel
  simp only [directives, hcsr, hfloat, hint]
  rfl

theorem inline_load_addresses_graph :
    ∃ p K', Runtime.ascii.parseImpasFile constants oneGraph = (.ok p, K') ∧
      Addresses p.instructions 0 1 := by
  obtain ⟨p, hp⟩ := exists_program Runtime.ascii constants oneGraph (by decide +kernel)
  obtain ⟨env, blocks, units, -, -, hdesc, -, hinstr, -, hlines⟩ := inline_load_addresses_iff hp
  rw [instructionLines_oneGraph] at hlines
  rw [directives_oneGraph] at hdesc
  obtain _ | ⟨⟨hrows⟩, ⟨⟩⟩ := hdesc
  rename_i rows fits
  obtain _ | ⟨⟨op, hop, hu⟩, ⟨⟩⟩ := hlines
  obtain rfl : .initMockGraph = op := Option.some.inj ((Op.ofName?_name _).symm.trans hop)
  have hcount : 1 = rows.length := hrows.length_eq
  have honly : ∀ j b', [(⟨chars "g", .csr rows fits⟩ : Block)][j]? = some b' →
      b'.name = Text.strip (chars "g") → j = 0 := by
    intro j b' hj _
    simpa using (List.getElem?_eq_some_iff.mp hj).1
  have hrel (id : ℕ) : Runtime.ascii.relationId oneGraph.universalNewlines
      (Text.strip (chars "g")) ≠ some id := by
    have : Runtime.ascii.relationId oneGraph.universalNewlines (Text.strip (chars "g")) = none := by
      decide +kernel
    simp [this]
  have h := ((hu (.inl rfl)).2 _ 0 _ rfl rfl rfl honly).mpr
    ⟨Nat.two_pow_pos 16, by simp [Content.count, ← hcount], fun id hid => absurd hid (hrel id)⟩
  refine ⟨p, _, hp, ?_⟩
  rw [hinstr, List.flatten_singleton, hcount]
  exact h

def zeros (n : ℕ) : Text := (List.replicate n (chars "0,")).flatten

def zerosLine (n : ℕ) : Text := directiveText '[' ']' (chars ".array_int") (chars "A") (zeros n)

theorem zerosLine_eq (n : ℕ) : zerosLine n = chars ".array_int A = [" ++ (zeros n ++ [']']) := rfl

def loadZeros (n : ℕ) : Text := zerosLine n ++ chars "\nOP_LOAD_INLINE_INT_ARRAY R1, A"

theorem mem_zeros {n : ℕ} {c : Char} (h : c ∈ zeros n) : c = '0' ∨ c = ',' := by
  obtain ⟨l, hl, hc⟩ := List.mem_flatten.mp h
  rw [List.eq_of_mem_replicate hl] at hc
  simpa [chars] using hc

theorem not_mem_zeros {n : ℕ} {c : Char} (h : c ≠ '0' ∧ c ≠ ',') : c ∉ zeros n :=
  fun hc => (mem_zeros hc).elim h.1 h.2

theorem not_mem_zerosLine {n : ℕ} {c : Char} (h : c ≠ '0' ∧ c ≠ ',')
    (hc : c ∉ chars ".array_int A = [" ∧ c ≠ ']') : c ∉ zerosLine n := by
  rw [zerosLine_eq, List.mem_append, List.mem_append, not_or, not_or]
  exact ⟨hc.1, not_mem_zeros h, by simpa using hc.2⟩

theorem listItems_zeros (n : ℕ) : listItems (zeros n) = (List.replicate n 0).map decimalText := by
  induction n with
  | zero => decide
  | succ n ih =>
    have hcons : zeros (n + 1) = chars "0" ++ ',' :: zeros n := rfl
    have hstrip : Text.strip (chars "0") = decimalText 0 := by decide
    have hne : decimalText 0 ≠ [] := by decide
    rw [hcons, listItems, Text.splitComma, List.splitOn_append_cons_self_of_not_mem (by decide),
      List.map_cons, hstrip, List.filter_cons_of_pos (by simpa using hne), ← Text.splitComma,
      ← listItems, ih]
    rfl

theorem avoids_loadZeros {q : Text} (n : ℕ) (hq : q.head? = some '.')
    (h : Scan.Avoids q (chars ".array_int A = [")) : Scan.Avoids q (loadZeros n) := by
  obtain ⟨t, rfl⟩ : ∃ t, q = '.' :: t := by
    cases q with
    | nil => cases hq
    | cons c t => exact ⟨t, by rw [Option.some.inj hq]⟩
  rw [loadZeros, zerosLine_eq]
  apply (h.append ((Scan.avoids_of_not_mem (not_mem_zeros (by decide))).append ?_)).append
  · exact Scan.avoids_of_not_mem (by decide)
  · exact Scan.avoids_of_not_mem (by decide)

theorem findIter_loadZeros (n : ℕ) :
    Scan.findIter Runtime.ascii.arrayIntAt (loadZeros n) = [(chars "A", zeros n)] := by
  have hmatch (t : Text) :
      Runtime.ascii.arrayIntAt (zerosLine n ++ t) = some ((chars "A", zeros n), t) := by
    rw [zerosLine, arrayIntAt, intKeywords, List.findSome?_cons, blockAt_directiveText t (by decide)
      (isWord_name (by decide)) (by decide) (not_mem_zeros (by decide))]
  have hne : zerosLine n ≠ [] := nofun
  rw [loadZeros, Scan.findIter_append_of_match hne (hmatch _),
    Scan.findIter_eq_nil_of_avoids (fun _ => isSome_arrayIntAt) (by decide)]

theorem universalNewlines_loadZeros (n : ℕ) : (loadZeros n).universalNewlines = loadZeros n := by
  apply Text.universalNewlines_of_not_mem
  rw [loadZeros, List.mem_append, not_or]
  exact ⟨not_mem_zerosLine (by decide) (by decide), by decide⟩

theorem findIter_loadZeros_eq_nil {m : Scan.Matcher Char (Text × Text)} {q : Text} (n : ℕ)
    (hm : ∀ t, (m t).isSome → q <+: t) (hq : q.head? = some '.')
    (h : Scan.Avoids q (chars ".array_int A = [")) : Scan.findIter m (loadZeros n) = [] := by
  have hstart : ∀ t, (m t).isSome → ∃ q' ∈ [q], q' <+: t := fun t ht => ⟨q, by simp, hm t ht⟩
  apply Scan.findIter_eq_nil_of_avoids hstart
  simpa using avoids_loadZeros n hq h

theorem findIter_csrInlineAt_loadZeros (n : ℕ) :
    Scan.findIter Runtime.ascii.csrInlineAt (loadZeros n) = [] :=
  findIter_loadZeros_eq_nil n (fun _ => isSome_fullBlockAt) rfl (by decide)

theorem findIter_arrayFloatAt_loadZeros (n : ℕ) :
    Scan.findIter Runtime.ascii.arrayFloatAt (loadZeros n) = [] :=
  findIter_loadZeros_eq_nil n (fun _ => isSome_blockAt) rfl (by decide)

theorem directives_loadZeros (n : ℕ) :
    Runtime.ascii.directives (loadZeros n) = [.arrayInt (chars "A") (zeros n)] := by
  simp [directives, findIter_csrInlineAt_loadZeros, findIter_arrayFloatAt_loadZeros,
    findIter_loadZeros]

theorem readlines_loadZeros (n : ℕ) : (loadZeros n).readlines =
    [zerosLine n ++ ['\n'], chars "OP_LOAD_INLINE_INT_ARRAY R1, A"] := by
  have hlast : Text.readlines (chars "OP_LOAD_INLINE_INT_ARRAY R1, A") =
      [chars "OP_LOAD_INLINE_INT_ARRAY R1, A"] := by decide +kernel
  have hno : ∀ c ∈ zerosLine n, (c == '\n') = false := by
    intro c hc
    rw [beq_eq_false_iff_ne]
    rintro rfl
    exact not_mem_zerosLine (by decide) (by decide) hc
  exact (Scan.splitAfter_append (c := '\n') hno rfl).trans (congrArg _ hlast)

theorem strip_zerosLine (n : ℕ) : Text.strip (zerosLine n) = zerosLine n := by
  apply Scan.trim_eq_self
  · intro c hc
    obtain rfl : '.' = c := Option.some.inj hc
    decide
  · intro c hc
    rw [zerosLine_eq, ← List.append_assoc, List.getLast?_concat] at hc
    obtain rfl : ']' = c := Option.some.inj hc
    decide

theorem instructionLine_load : Runtime.ascii.instructionLine
    (Text.strip (chars "OP_LOAD_INLINE_INT_ARRAY R1, A")) =
      some (Op.loadInlineIntArray.name,
        [Op.loadInlineIntArray.name, chars "R1", chars "A"]) := by
  decide +kernel

theorem instructionLines_loadZeros (n : ℕ) : Runtime.ascii.instructionLines (loadZeros n) =
    [(Op.loadInlineIntArray.name, [Op.loadInlineIntArray.name, chars "R1", chars "A"])] := by
  have hnone : Runtime.ascii.instructionLine (zerosLine n) = none := if_pos (.inr (.inr rfl))
  have hs : Text.strip (zerosLine n ++ ['\n']) = zerosLine n :=
    (Scan.trim_concat rfl).trans (strip_zerosLine n)
  simp only [instructionLines, universalNewlines_loadZeros, readlines_loadZeros,
    List.filterMap_cons, hs, hnone, instructionLine_load, List.filterMap_nil]

theorem exists_dataSection_loadZeros (n : ℕ) :
    ∃ packed, Runtime.ascii.dataSection (loadZeros n) = .ok {
      bytes := pad4 [] ++ packed
      symbols := (∅ : Symbols).insert (chars "A") ⟨(pad4 []).length, .num n⟩
      intSymbols := {chars "A"} } := by
  have hints : Runtime.ascii.intList (zeros n) = .ok (List.replicate n 0) := by
    rw [intList_decimalText (listItems_zeros n) fun k hk => by
      rw [List.eq_of_mem_replicate hk]
      decide]
    simp
  obtain ⟨packed, hpacked⟩ : ∃ b, packAll (List.replicate n 0) = .ok b := by
    obtain ⟨bs, hbs⟩ := ExceptFold.exists_mapM_ok (f := packU32) (l := List.replicate n 0)
      fun v hv => ⟨le32 0, by rw [List.eq_of_mem_replicate hv]; rfl⟩
    exact ⟨bs.flatten, ExceptFold.map_eq_ok.mpr ⟨bs, hbs, rfl⟩⟩
  use packed
  simp [dataSection, findIter_csrInlineAt_loadZeros, findIter_arrayFloatAt_loadZeros,
    findIter_loadZeros, arrayInt, hints, hpacked, bind, Except.bind, pure, Except.pure]

theorem adds_zerosLine (env : Env) (n : ℕ) :
    Runtime.ascii.Adds env (zerosLine n ++ ['\n']) [] := by
  apply adds_concat
  apply adds_directive <;> rw [strip_zerosLine]
  · exact .inr rfl
  · exact Bool.false_ne_true
  · exact not_mem_zerosLine (by decide) (by decide)

theorem exists_adds_load {e : Env} {off n : ℕ} (hK : e.constants = constants)
    (hs : e.symbols = (∅ : Symbols).insert (chars "A") ⟨off, .num n⟩) :
    ∃ ws, Runtime.ascii.Adds e (chars "OP_LOAD_INLINE_INT_ARRAY R1, A") ws := by
  have hd : Runtime.ascii.tokVal e.constants
      [Op.loadInlineIntArray.name, chars "R1", chars "A"] (some 1) 0 = .ok 1 := by
    rw [hK]
    decide +kernel
  have hstrip : Text.strip (chars "A") = chars "A" := by decide
  have hq : namedPayload e (Text.strip (chars "A")) = .ok ((off : ℤ).lor (n * 2 ^ 16)) := by
    rw [hstrip, namedPayload, hs, AList.lookup_insert]
    rfl
  have ho : Runtime.ascii.operands e .loadInlineIntArray
      [Op.loadInlineIntArray.name, chars "R1", chars "A"] =
        .ok ⟨1, (off : ℤ).lor (n * 2 ^ 16), 1⟩ := by
    rw [operands, (branch_of_inline (.inr (by decide)) _).1]
    simp only [evalInlineLoad, hd, hq, List.getElem?_cons_succ, List.getElem?_cons_zero, bind,
      Except.bind, pure, Except.pure]
    rfl
  exact ⟨_, adds_instruction (by decide) instructionLine_load (encode_eq_ok.mpr ⟨_, ho, rfl⟩)⟩

theorem exists_loadZeros (n : ℕ) :
    ∃ p, Runtime.ascii.parseImpasFile constants (loadZeros n) = (.ok p, constants) := by
  have hrel : Scan.findIter Runtime.ascii.relAt (loadZeros n) = [] :=
    findIter_loadZeros_eq_nil n (fun _ => isSome_relAt) rfl (by decide)
  have hvrel : Scan.findIter Runtime.ascii.vrelAt (loadZeros n) = [] :=
    findIter_loadZeros_eq_nil n (fun _ => isSome_fullBlockAt) rfl (by decide)
  obtain ⟨packed, hd⟩ := exists_dataSection_loadZeros n
  obtain ⟨ws, hw⟩ := exists_adds_load (e := ⟨constants, (∅ : Symbols).insert (chars "A")
    ⟨(pad4 []).length, .num n⟩, {chars "A"}⟩) rfl rfl
  obtain ⟨p, hp, -⟩ := foldlM_adds (.cons (adds_zerosLine _ n) (.cons hw .nil))
    { data := pad4 [] ++ packed }
  refine ⟨p, parseImpasFile_eq_ok.mpr ?_⟩
  rw [universalNewlines_loadZeros, readlines_loadZeros, hrel, hvrel]
  exact ⟨_, _, _, _, hd, rfl, rfl, hp⟩

/-- An array of 65536 elements is loaded with a count of 0. -/
theorem inline_load_wraps_count :
    ∃ p K' b, Runtime.ascii.parseImpasFile constants (loadZeros 65536) = (.ok p, K') ∧
      Runtime.ascii.instructionLines (loadZeros 65536) = [(Op.loadInlineIntArray.name,
        [Op.loadInlineIntArray.name, chars "R1", chars "A"])] ∧
      List.Forall₂ Runtime.ascii.Describes
        (Runtime.ascii.directives (loadZeros 65536).universalNewlines) [b] ∧
      b.name = chars "A" ∧ b.content.count = 65536 ∧
      ¬ Addresses p.instructions 0 b.content.count := by
  obtain ⟨p, hp⟩ := exists_loadZeros 65536
  obtain ⟨env, blocks, units, -, -, hdesc, -, hinstr, -, hlines⟩ := exists_inlineLoads hp
  rw [instructionLines_loadZeros] at hlines
  rw [universalNewlines_loadZeros] at hdesc hlines ⊢
  rw [directives_loadZeros] at hdesc ⊢
  obtain ⟨b, hb, rfl⟩ := ExceptFold.forall₂_singleton_left.mp hdesc
  obtain ⟨ws, rfl, hws⟩ : ∃ ws, b = ⟨chars "A", .array ws⟩ ∧ ws.length = 65536 := by
    cases hb with
    | arrayInt hws =>
      refine ⟨_, rfl, ?_⟩
      rw [← hws.length_eq, listItems_zeros, List.length_map, List.length_replicate]
  obtain _ | ⟨⟨op, hop, hu⟩, ⟨⟩⟩ := hlines
  obtain rfl : .loadInlineIntArray = op := Option.some.inj ((Op.ofName?_name _).symm.trans hop)
  refine ⟨p, _, ⟨chars "A", .array ws⟩, hp, instructionLines_loadZeros _, .cons hb .nil, rfl,
    hws, ?_⟩
  obtain ⟨-, -, hstands⟩ := hu (.inr (by decide))
  obtain ⟨off, n, hs, hq⟩ := hstands _ rfl
  have hrel : Runtime.ascii.relationId (loadZeros 65536) (Text.strip (chars "A")) = none := by
    rw [relationId, findIter_loadZeros_eq_nil _ (fun _ => isSome_relAt) rfl (by decide)]
    rfl
  have hlast : LastNamed [(⟨chars "A", .array ws⟩ : Block)] (Text.strip (chars "A")) 0
      ⟨chars "A", .array ws⟩ := .singleton rfl
  rw [hinstr, List.flatten_singleton]
  cases hs with
  | relation h => simp [hrel] at h
  | block _ hb =>
    obtain ⟨rfl, rfl⟩ := hlast.eq hb
    intro h
    have := ((addresses_block_iff hq).mp h).2
    simp [Content.count, hws] at this
  | undefined _ hno => exact absurd rfl (hno _ List.mem_cons_self)

def LoadInside (data : List Byte) (u : List Instruction) : Prop :=
  payloadOf u % 2 ^ 16 + 4 * (payloadOf u / 2 ^ 16) ≤ data.length

def GraphInside (data : List Byte) (u : List Instruction) : Prop :=
  CsrAt data (payloadOf u % 2 ^ 16) (payloadOf u / 2 ^ 16)

/-- A name for `OP_INIT_MOCK_GRAPH`: the last block that has it is a graph, and no relation has it.
Any other name is a graph only by chance: the halves of the relation's id, or the place of the
array, or the first word of the data, happen to be one. -/
structure NamesGraph (py : Runtime) (text : Text) (blocks : List Block) (name : Text) : Prop where
  relation : ∀ id, py.relationId text name = some id →
    CsrAt (blocks.map (·.content.bytes)).flatten (id % 2 ^ 16) (id / 2 ^ 16 % 2 ^ 16)
  array : py.relationId text name = none → ∀ k b elems, LastNamed blocks name k b →
    b.content = .array elems → CsrAt (blocks.map (·.content.bytes)).flatten
      (Concat.offset (blocks.map (·.content.bytes)) k) elems.length
  undefined : py.relationId text name = none → (∀ b ∈ blocks, b.name ≠ name) →
    (wordsFrom (blocks.map (·.content.bytes)).flatten 0)[0]? = some 0

theorem four_mul_length_readWords (l : List Byte) : 4 * (readWords l).length ≤ l.length := by
  fun_induction readWords l with
  | case1 a b c d t ih =>
    simp only [List.length_cons]
    omega
  | case2 => simp

theorem csrAt_zero_iff {data : List Byte} : CsrAt data 0 0 ↔ (wordsFrom data 0)[0]? = some 0 := by
  constructor
  · rintro ⟨m, -, -, h, -⟩
    exact h
  · intro h
    have hlen := four_mul_length_readWords (data.drop 0)
    have hpos : 0 < (readWords (data.drop 0)).length := (List.getElem?_eq_some_iff.mp h).1
    rw [List.drop_zero] at hlen hpos
    refine ⟨0, h, by omega, h, ?_⟩
    cases wordsFrom data 0 <;> simp

theorem four_mul_count_le (c : Content) : 4 * c.count ≤ c.bytes.length := by
  rw [Content.bytes, length_wordBytes]
  cases c with
  | csr rows fits =>
    simp only [Content.count, Content.words, List.length_append, List.length_map,
      Concat.length_offsets]
    omega
  | array elems => exact le_rfl

theorem block_inside {blocks : List Block} {k : ℕ} {b : Block} (hk : blocks[k]? = some b) :
    ∃ pre post, (blocks.map (·.content.bytes)).flatten = pre ++ b.content.bytes ++ post ∧
      pre.length = Concat.offset (blocks.map (·.content.bytes)) k :=
  Concat.flatten_around (by rw [List.getElem?_map, hk, Option.map_some])

theorem Stands.inside (h : Stands py text blocks name off n)
    (hrel : py.relationId text name = none) :
    off + 4 * n ≤ (blocks.map (·.content.bytes)).flatten.length := by
  cases h with
  | relation h => simp [h] at hrel
  | @block k b _ hb =>
    obtain ⟨pre, post, hflat, hpre⟩ := block_inside hb.getElem?_eq
    have hcount := four_mul_count_le b.content
    rw [hflat, List.length_append, List.length_append]
    omega
  | undefined => exact Nat.zero_le _

theorem Stands.addresses (h : Stands py text blocks name off n)
    (hq : payloadOf u = (off ||| n <<< 16) % 2 ^ 32)
    (hlen : (blocks.map (·.content.bytes)).flatten.length < 2 ^ 16)
    (hrel : py.relationId text name = none) : Addresses u off n := by
  have hinside := h.inside hrel
  apply (addresses_block_iff hq).mpr
  constructor <;> omega

theorem Stands.addresses_relation {id : ℕ} (h : Stands py text blocks name off n)
    (hq : payloadOf u = (off ||| n <<< 16) % 2 ^ 32) (hrel : py.relationId text name = some id) :
    Addresses u (id % 2 ^ 16) (id / 2 ^ 16 % 2 ^ 16) := by
  have heq : off = id ∧ n = 0 := by
    cases h with
    | relation h => exact ⟨Option.some.inj (h.symm.trans hrel), rfl⟩
    | block h => simp [hrel] at h
    | undefined h => simp [hrel] at h
  obtain ⟨rfl, rfl⟩ := heq
  rw [Nat.zero_shiftLeft, Nat.or_zero] at hq
  unfold Addresses
  omega

theorem loadInside_iff {data : List Byte} (hdata : data = (blocks.map (·.content.bytes)).flatten)
    (hlen : data.length < 2 ^ 16) (hmiss : sym = none → payloadOf u = 0)
    (hnamed : ∀ t, sym = some t → ∃ off n, Stands py text blocks t.strip off n ∧
      payloadOf u = (off ||| n <<< 16) % 2 ^ 32) :
    LoadInside data u ↔ ∀ t id, sym = some t → py.relationId text t.strip = some id →
      id % 2 ^ 16 + 4 * (id / 2 ^ 16 % 2 ^ 16) ≤ data.length := by
  unfold LoadInside
  cases sym with
  | none => simp [hmiss rfl]
  | some t =>
    obtain ⟨off, n, hs, hq⟩ := hnamed t rfl
    cases hrel : py.relationId text t.strip with
    | none =>
      obtain ⟨hoff, hn⟩ := hs.addresses hq (hdata ▸ hlen) hrel
      have hinside := hs.inside hrel
      rw [hoff, hn, hdata]
      constructor
      · rintro - t' id ⟨⟩ hid
        simp [hrel] at hid
      · exact fun _ => hinside
    | some id =>
      obtain ⟨hoff, hn⟩ := hs.addresses_relation hq hrel
      rw [hoff, hn]
      constructor
      · rintro h t' id' ⟨⟩ hid
        obtain rfl : id = id' := Option.some.inj (hrel.symm.trans hid)
        exact h
      · exact fun h => h t id rfl hrel

theorem namesGraph_relation_iff {id : ℕ} (hrel : py.relationId text name = some id) :
    NamesGraph py text blocks name ↔
      CsrAt (blocks.map (·.content.bytes)).flatten (id % 2 ^ 16) (id / 2 ^ 16 % 2 ^ 16) := by
  constructor
  · exact fun h => h.relation id hrel
  · intro h
    constructor
    · intro id' hid
      obtain rfl : id = id' := Option.some.inj (hrel.symm.trans hid)
      exact h
    · simp [hrel]
    · simp [hrel]

theorem namesGraph_block_iff {k : ℕ} {b : Block} (hrel : py.relationId text name = none)
    (hb : LastNamed blocks name k b) :
    NamesGraph py text blocks name ↔ CsrAt (blocks.map (·.content.bytes)).flatten
      (Concat.offset (blocks.map (·.content.bytes)) k) b.content.count := by
  constructor
  · intro h
    cases hc : b.content with
    | csr rows fits =>
      obtain ⟨pre, post, hflat, hpre⟩ := block_inside hb.getElem?_eq
      rw [hflat, ← hpre, hc]
      exact Content.csrAt_csr pre post
    | array elems => exact h.array hrel k b elems hb hc
  · intro h
    constructor
    · simp [hrel]
    · intro _ k' b' elems hb' hc
      obtain ⟨rfl, rfl⟩ := hb.eq hb'
      simpa only [hc, Content.count] using h
    · exact fun _ hno => absurd hb.name_eq (hno b (List.mem_of_getElem? hb.getElem?_eq))

theorem namesGraph_undefined_iff (hrel : py.relationId text name = none)
    (hno : ∀ b ∈ blocks, b.name ≠ name) :
    NamesGraph py text blocks name ↔ CsrAt (blocks.map (·.content.bytes)).flatten 0 0 := by
  rw [csrAt_zero_iff]
  constructor
  · exact fun h => h.undefined hrel hno
  · intro h
    constructor
    · simp [hrel]
    · exact fun _ k b _ hb => absurd hb.name_eq (hno b (List.mem_of_getElem? hb.getElem?_eq))
    · exact fun _ _ => h

theorem Stands.namesGraph_iff (h : Stands py text blocks name off n)
    (hq : payloadOf u = (off ||| n <<< 16) % 2 ^ 32)
    (hlen : (blocks.map (·.content.bytes)).flatten.length < 2 ^ 16) :
    GraphInside (blocks.map (·.content.bytes)).flatten u ↔ NamesGraph py text blocks name := by
  unfold GraphInside
  cases hrel : py.relationId text name with
  | some id =>
    obtain ⟨hoff, hn⟩ := h.addresses_relation hq hrel
    rw [hoff, hn, namesGraph_relation_iff hrel]
  | none =>
    obtain ⟨hoff, hn⟩ := h.addresses hq hlen hrel
    rw [hoff, hn]
    cases h with
    | relation h => simp [hrel] at h
    | block _ hb => rw [namesGraph_block_iff hrel hb]
    | undefined _ hno => rw [namesGraph_undefined_iff hrel hno]

theorem graphInside_iff {data : List Byte} (hdata : data = (blocks.map (·.content.bytes)).flatten)
    (hlen : data.length < 2 ^ 16) (hmiss : sym = none → payloadOf u = 0)
    (hnamed : ∀ t, sym = some t → ∃ off n, Stands py text blocks t.strip off n ∧
      payloadOf u = (off ||| n <<< 16) % 2 ^ 32) :
    GraphInside data u ↔ (∀ t, sym = some t → NamesGraph py text blocks t.strip) ∧
      (sym = none → (wordsFrom data 0)[0]? = some 0) := by
  cases sym with
  | none => simp [GraphInside, hmiss rfl, csrAt_zero_iff]
  | some t =>
    obtain ⟨off, n, hs, hq⟩ := hnamed t rfl
    rw [hdata, hs.namesGraph_iff hq (hdata ▸ hlen)]
    simp

/-- With a buffer below 65536 bytes, a load reaches past its end only through the name of a
relation, and a mock graph is one if its name is that of a graph. -/
theorem inline_load_inside_iff {K K' : Constants} {text : Text} {p : Program}
    (h : py.parseImpasFile K text = (.ok p, K')) (hlen : p.data.length < 2 ^ 16) :
    ∃ env blocks units, env.constants = K' ∧ py.TablesOf K text env ∧
      List.Forall₂ py.Describes (py.directives text.universalNewlines) blocks ∧
      p.data = (blocks.map (·.content.bytes)).flatten ∧ p.instructions = units.flatten ∧
      List.Forall₂ (py.Encodes env) (py.instructionLines text) units ∧
      List.Forall₂ (fun l u => ∃ op, Op.ofName? l.1 = some op ∧
        (op.loadsInline → (LoadInside p.data u ↔ ∀ t id, l.2[2]? = some t →
          py.relationId text.universalNewlines t.strip = some id →
            id % 2 ^ 16 + 4 * (id / 2 ^ 16 % 2 ^ 16) ≤ p.data.length)) ∧
        (op = .initMockGraph → (GraphInside p.data u ↔
          (∀ t, l.2[2]? = some t → NamesGraph py text.universalNewlines blocks t.strip) ∧
            (l.2[2]? = none → (wordsFrom p.data 0)[0]? = some 0))))
        (py.instructionLines text) units := by
  obtain ⟨env, blocks, units, hK, ht, hdesc, hdata, hinstr, henc, hlines⟩ := exists_inlineLoads h
  refine ⟨env, blocks, units, hK, ht, hdesc, hdata, hinstr, henc, hlines.imp ?_⟩
  rintro l u ⟨op, hop, hl⟩
  refine ⟨op, hop, fun hload => ?_, fun hgraph => ?_⟩
  · obtain ⟨-, hmiss, hnamed⟩ := hl (.inr hload)
    exact loadInside_iff hdata hlen hmiss hnamed
  · obtain ⟨-, hmiss, hnamed⟩ := hl (.inl hgraph)
    exact graphInside_iff hdata hlen hmiss hnamed

theorem inline_load_inside_graph :
    ∃ p K', Runtime.ascii.parseImpasFile constants oneGraph = (.ok p, K') ∧
      GraphInside p.data p.instructions := by
  obtain ⟨p, hp⟩ := exists_program Runtime.ascii constants oneGraph (by decide +kernel)
  have hlen : ((Runtime.ascii.parseImpasFile constants oneGraph).1.toOption.map
      (·.data.length)) = some 12 := by decide +kernel
  rw [hp] at hlen
  have hlen : p.data.length < 2 ^ 16 := (Option.some.inj hlen).trans_lt (by decide)
  obtain ⟨env, blocks, units, -, -, hdesc, -, hinstr, -, hlines⟩ :=
    inline_load_inside_iff hp hlen
  rw [instructionLines_oneGraph] at hlines
  rw [directives_oneGraph] at hdesc
  obtain _ | ⟨⟨hrows⟩, ⟨⟩⟩ := hdesc
  rename_i rows fits
  obtain _ | ⟨⟨op, hop, -, hu⟩, ⟨⟩⟩ := hlines
  obtain rfl : .initMockGraph = op := Option.some.inj ((Op.ofName?_name _).symm.trans hop)
  have hrel : Runtime.ascii.relationId oneGraph.universalNewlines (Text.strip (chars "g")) =
      none := by decide +kernel
  have hlast : LastNamed [(⟨chars "g", .csr rows fits⟩ : Block)] (Text.strip (chars "g")) 0
      ⟨chars "g", .csr rows fits⟩ := .singleton rfl
  have hnames : NamesGraph Runtime.ascii oneGraph.universalNewlines
      [(⟨chars "g", .csr rows fits⟩ : Block)] (Text.strip (chars "g")) := by
    constructor
    · simp [hrel]
    · intro _ k b elems hb hc
      obtain ⟨rfl, rfl⟩ := hlast.eq hb
      cases hc
    · exact fun _ hno => absurd rfl (hno _ List.mem_cons_self)
  refine ⟨p, _, hp, ?_⟩
  rw [hinstr, List.flatten_singleton]
  apply (hu rfl).mpr
  constructor
  · intro t ht
    obtain rfl := Option.some.inj ht
    exact hnames
  · intro h
    cases h

/-- A relation id read as an offset, and an array read as a graph. -/
def strayLoads : Text :=
  chars ".array_int a = [1]\n.rel far = 65535\n" ++
    chars "OP_LOAD_INLINE_ARRAY R1, far\nOP_INIT_MOCK_GRAPH R0, a"

theorem inline_load_reaches_past :
    ∃ p K' load graph, Runtime.ascii.parseImpasFile constants strayLoads = (.ok p, K') ∧
      p.instructions = [load, graph] ∧ p.data.length = 4 ∧
      ¬ LoadInside p.data [load] ∧ ¬ GraphInside p.data [graph] := by
  obtain ⟨p, hp⟩ := exists_program Runtime.ascii constants strayLoads (by decide +kernel)
  have hprog : ((Runtime.ascii.parseImpasFile constants strayLoads).1.toOption.map fun p =>
      (p.instructions, p.data)) =
        some ([⟨0x08, 0, 1, 65535⟩, ⟨0x09, 0, 0, 0x10000⟩], [1, 0, 0, 0]) := by decide +kernel
  rw [hp] at hprog
  obtain ⟨hinstr, hdata⟩ := Prod.ext_iff.mp (Option.some.inj hprog)
  dsimp only at hinstr hdata
  refine ⟨p, _, _, _, hp, hinstr, congrArg List.length hdata, ?_, ?_⟩
  · rw [hdata]
    unfold LoadInside
    decide
  · rw [hdata]
    rintro ⟨m, -, -, hfirst, -⟩
    exact absurd hfirst (by decide)

end Runtime

end ImpulseTools

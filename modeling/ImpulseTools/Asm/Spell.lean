import ImpulseTools.Asm.Comment
import ImpulseTools.Asm.Writable

/-! # Lines for given words

A line for all operands that a mnemonic leaves free, and from these lines the exact image of the
assembler.
-/

namespace ImpulseTools

/-- A token that no directive begins in. -/
structure PlainToken (t : Text) : Prop extends Token t where
  dot : '.' ∉ t

theorem PlainToken.append {s t : Text} (hs : ∀ c ∈ s, ImpulseTools.isTokenChar c ∧ c ≠ '.')
    (ht : PlainToken t) : PlainToken (s ++ t) where
  toToken := .append (fun c hc => (hs c hc).1) ht.toToken
  dot h := by
    rcases List.mem_append.mp h with h | h
    · exact (hs _ h).2 rfl
    · exact ht.dot h

theorem plainToken_decimal (n : ℕ) : PlainToken (decimalText n) where
  toToken := token_decimalText n
  dot h := absurd (isDigit_of_mem_decimalText h) (by decide)

theorem plainToken_register (n : ℕ) : PlainToken ('R' :: decimalText n) :=
  .append (s := ['R']) (by decide) (plainToken_decimal n)

/-- The token is read as the number, whatever the runtime. -/
structure Spells (t : Text) (v : ℤ) : Prop where
  token : PlainToken t
  parseVal : ∀ py : Runtime, py.parseVal constants t = .ok v

theorem length_decimalText {n : ℕ} (hn : n < 2 ^ 33) : (decimalText n).length ≤ maxStrDigits :=
  ((Nat.length_toDigits_le_iff (k := 10) (by decide) (by decide)).mpr
    (hn.trans (by decide)) : _ ≤ 10).trans (by decide)

theorem spells_decimal {n : ℕ} (hn : n < 2 ^ 33) : Spells (decimalText n) n :=
  ⟨plainToken_decimal n, fun py => py.parseVal_decimalText (length_decimalText hn)⟩

theorem spells_register {n : ℕ} (hn : n < 2 ^ 33) : Spells ('R' :: decimalText n) n :=
  ⟨plainToken_register n,
    fun py => py.parseVal_register (length_decimalText hn)⟩

theorem spells_negative {n : ℕ} (hn : n < 2 ^ 33) : Spells ('-' :: decimalText n) (-n) := by
  refine ⟨.append (s := ['-']) (by decide) (plainToken_decimal n), fun py => ?_⟩
  have hd : ∀ c ∈ decimalText n, c.isDigit := fun c hc => isDigit_of_mem_decimalText hc
  have hv : digitsValue 10 ((decimalText n).map fun c => c.toNat - '0'.toNat) = n := by
    rw [digitsValue, List.foldl_map, ← Nat.ofDigitChars_eq_foldl]
    exact Nat.ofDigitChars_ten_toDigits
  have hspace : ∀ c ∈ '-' :: decimalText n, intSpace c = false := by
    refine List.forall_mem_cons.mpr ⟨by decide, fun c hc => ?_⟩
    rw [intSpace, isSpace_of_isDigit (hd c hc), Bool.false_and]
  have hint : py.int ('-' :: decimalText n) = .ok (-n) := by
    have hlen := length_decimalText hn
    rw [Runtime.int, Scan.trim_of_forall hspace]
    simp only [signed, Runtime.digitRun_of_isDigit py hd (.inr Nat.toDigits_ne_nil),
      List.length_map, if_neg (not_lt.mpr hlen), hv, neg_one_mul]
  rw [Runtime.parseVal, Runtime.lookup_constants (by simp)]
  dsimp only
  rw [if_neg (by simp [Text.startsWith, chars, Scan.lit]),
    if_neg (by simp [Text.startsWith, chars, Scan.lit]), hint]

def hexText (n : ℕ) : Text :=
  ['0', 'x', Nat.digitChar (n / 4096), Nat.digitChar (n / 256 % 16), Nat.digitChar (n / 16 % 16),
    Nat.digitChar (n % 16)]

theorem hexDigit_digitChar (py : Runtime) {d : ℕ} (hd : d < 16) :
    py.hexDigit (Nat.digitChar d) = some d := by
  have hlt : ∀ d < 16, (Nat.digitChar d).toNat < 128 := by decide
  have hdigit : ∀ d < 16, (if (Nat.digitChar d).isDigit then
      some ((Nat.digitChar d).toNat - '0'.toNat) else none) = if d < 10 then some d else none := by
    decide
  have hletter : ∀ d < 16, 10 ≤ d → 'a' ≤ Nat.digitChar d ∧ Nat.digitChar d ≤ 'f' ∧
      (Nat.digitChar d).toNat - 'a'.toNat + 10 = d := by decide
  rw [Runtime.hexDigit, py.decimal_ascii _ (hlt d hd), hdigit d hd]
  by_cases h10 : d < 10
  · rw [if_pos h10]
  · obtain ⟨ha, hf, hv⟩ := hletter d hd (not_lt.mp h10)
    rw [if_neg h10]
    dsimp only
    rw [if_pos ⟨ha, hf⟩, hv]

theorem mem_hexText {n : ℕ} (hn : n < 2 ^ 16) {c : Char} (hc : c ∈ hexText n) :
    c = 'x' ∨ ∃ d < 16, c = Nat.digitChar d := by
  simp only [hexText, List.mem_cons, List.not_mem_nil, or_false] at hc
  rcases hc with rfl | rfl | rfl | rfl | rfl | rfl
  · exact .inr ⟨0, by decide, rfl⟩
  · exact .inl rfl
  · exact .inr ⟨_, by omega, rfl⟩
  · exact .inr ⟨_, Nat.mod_lt _ (by decide), rfl⟩
  · exact .inr ⟨_, Nat.mod_lt _ (by decide), rfl⟩
  · exact .inr ⟨_, Nat.mod_lt _ (by decide), rfl⟩

theorem int16_hexText (py : Runtime) {n : ℕ} (hn : n < 2 ^ 16) : py.int16 (hexText n) = .ok n := by
  have hspace : ∀ d < 16, intSpace (Nat.digitChar d) = false := by decide
  have hscore : ∀ d < 16, (Nat.digitChar d == '_') = false := by decide
  have h1 : n / 4096 < 16 := by omega
  have h2 : ∀ m, m % 16 < 16 := fun m => Nat.mod_lt m (by decide)
  have htrim : Scan.trim intSpace (hexText n) = hexText n := by
    refine Scan.trim_of_forall fun c hc => ?_
    rcases mem_hexText hn hc with rfl | ⟨d, hd, rfl⟩
    · decide
    · exact hspace d hd
  have hsigned : signed (hexText n) = (1, hexText n) := rfl
  have hbody : Runtime.hexBody (hexText n) = (hexText n).drop 2 := by
    have hne := beq_eq_false_iff_ne.mp (hscore _ h1)
    unfold Runtime.hexBody hexText
    split <;> simp_all
  have hrun : digitRun py.hexDigit false ((hexText n).drop 2) =
      some [n / 4096, n / 256 % 16, n / 16 % 16, n % 16] := by
    simp [hexText, digitRun, hexDigit_digitChar py, hscore, h1, h2]
  have hvalue : digitsValue 16 [n / 4096, n / 256 % 16, n / 16 % 16, n % 16] = n := by
    simp only [digitsValue, List.foldl_cons, List.foldl_nil]
    omega
  rw [Runtime.int16, htrim]
  simp only [hsigned, hbody, hrun, hvalue, one_mul]

theorem spells_hex {n : ℕ} (hn : n < 2 ^ 16) : Spells (hexText n) n := by
  have hchar : ∀ d < 16, isTokenChar (Nat.digitChar d) ∧ Nat.digitChar d ≠ '.' := by decide
  have hall : ∀ c ∈ hexText n, isTokenChar c ∧ c ≠ '.' := by
    intro c hc
    rcases mem_hexText hn hc with rfl | ⟨d, hd, rfl⟩
    · decide
    · exact hchar d hd
  refine ⟨⟨⟨List.cons_ne_nil _ _, fun c hc => (hall c hc).1⟩, fun h => (hall _ h).2 rfl⟩,
    fun py => ?_⟩
  · rw [Runtime.parseVal, Runtime.lookup_constants (by simp [hexText])]
    dsimp only
    rw [if_pos (by simp [hexText, Text.startsWith, chars, Scan.lit]), int16_hexText py hn]

def split : List ℕ → ℕ → List ℕ
  | [], _ => []
  | w :: ws, q => q % 2 ^ w :: split ws (q / 2 ^ w)

theorem length_split (ws : List ℕ) (q : ℕ) : (split ws q).length = ws.length := by
  induction ws generalizing q with
  | nil => rfl
  | cons w ws ih => rw [split, List.length_cons, List.length_cons, ih]

theorem split_le {ws : List ℕ} {q v : ℕ} (h : v ∈ split ws q) : v ≤ q := by
  induction ws generalizing q with
  | nil => cases h
  | cons w ws ih =>
    rcases List.mem_cons.mp h with rfl | h
    · exact Nat.mod_le _ _
    · exact (ih h).trans (Nat.div_le_self _ _)

namespace Runtime

variable {py : Runtime} {env : Env} {op : Op} {toks : List Text}

theorem orAll_layout {ws : List ℕ} {tok s b q : ℕ} (hb : b < 2 ^ s)
    (h : ∀ i (v : ℕ), (split ws q)[i]? = some v → py.HasValue constants toks (tok + i) v) :
    BitField.orAll b ((layout tok s ws).map (py.fieldPut constants toks)) =
      b + 2 ^ s * (q % 2 ^ ws.sum) := by
  induction ws generalizing tok s b q with
  | nil => simp [layout, BitField.orAll, Nat.mod_one]
  | cons w ws ih =>
    have hlt : q % 2 ^ w < 2 ^ w := Nat.mod_lt _ (Nat.two_pow_pos w)
    have hput : py.fieldPut constants toks ⟨tok, w, s⟩ = (⟨s, w⟩, q % 2 ^ w) :=
      HasValue.fieldPut_eq (h 0 _ rfl) hlt
    have hor : b ||| (⟨s, w⟩ : BitField).put (q % 2 ^ w) = b + 2 ^ s * (q % 2 ^ w) := by
      rw [BitField.put, Nat.mod_eq_of_lt hlt, BitField.or_shiftLeft hb]
    have hb' : b + 2 ^ s * (q % 2 ^ w) < 2 ^ (s + w) := by
      have hmul := Nat.mul_le_mul_left (2 ^ s) (Nat.succ_le_of_lt hlt)
      rw [pow_add]
      rw [Nat.mul_succ] at hmul
      omega
    have hrest : ∀ i (v : ℕ), (split ws (q / 2 ^ w))[i]? = some v →
        py.HasValue constants toks (tok + 1 + i) v := by
      intro i v hv
      rw [Nat.add_assoc, Nat.add_comm 1]
      exact h (i + 1) v hv
    rw [layout, List.map_cons, hput, BitField.orAll_cons, hor, ih hb' hrest]
    rw [List.sum_cons, pow_add 2 w, Nat.mod_mul, pow_add, Nat.mul_add, Nat.mul_assoc, Nat.add_assoc]

theorem encode_of_form {f : Form} {o : Operands} (hK : env.constants = constants)
    (hb : branch op toks = .form f) (ht : ∀ i ∈ f.tokens, ∃ v, py.HasValue constants toks i v)
    (ho : py.formOperands constants toks f = o) : py.encode env op toks = .ok (emit op o) := by
  rw [encode_eq_ok]
  refine ⟨o, (operands_eq_ok_of_form hb).mpr ⟨fun i hi => ?_, ?_⟩, rfl⟩
  · obtain ⟨v, hv⟩ := ht i hi
    exact hK ▸ hv.evaluates
  · rw [hK, ho]

end Runtime

def widths (op : Op) : List ℕ :=
  match op with
  | .maskNot => [8]
  | .extractValidity | .vecCmpEq | .vecCmpGt | .vecCmpLt | .maskAnd | .maskOr => [16]
  | .frontierDiff | .vecMathUnary => [8, 8]
  | .mapDenseToKeys => [8, 16]
  | .vecBlend | .vecMathBinary => [8, 8, 8]
  | .loadConstInt => [32]
  | .readEdgeWeight | .islandDetect | .collectValueMap | .csrWalkPredicate | .mxv | .vxm | .ewiseAdd
  | .ewiseMult | .gatherNodeAttr | .cooWalkFiltered | .laneInitGroups | .laneSetEdgeMask
  | .laneReduceAttr | .laneSetCover | .vectorAnnSearch | .vectorRerankDot => [8, 8, 16]
  | .nodeFilter | .nodeFilterStrPrefix | .vectorTimeValidAt | .vecMathTernary | .lanePruneMask
  | .laneFilterQuorum => [8, 8, 8, 8]
  | op => if op.name.startsWith (chars "OP_STREAM_") then [16, 8, 8] else [16, 16]

def Op.irregular : Op → Bool
  | .stableCheck | .initMockNodeAttr | .initMockEdgeAttr | .floatVectorScale | .vecCmpBetween
  | .streamLoadConst | .allocScratch | .assertScratchBytes | .setMaxDop => true
  | _ => false

/-- A full line: the destination, the fields, and the flags if the mnemonic has any. -/
def fullLine (op : Op) (s : Space) (d q v : ℕ) : List Text :=
  op.name :: ('R' :: decimalText d) :: ((split (widths op) q).map decimalText ++
    if s.flags then [decimalText v] else [])

theorem branch_fullLine {op : Op} {s : Space} (hs : space op = some s) (hd : s.dest = .operand)
    (hr : op.irregular = false) (d q v : ℕ) :
    (∃ e, branch op (fullLine op s d q v) = .form {
        fields := layout 2 0 (widths op)
        flags := if s.flags then some (2 + (widths op).length) else none
        flagsElse := e } ∧ (s.flags = false → e = 0)) ∧ (widths op).sum = s.bits := by
  cases op <;> first
    | (cases hs; done)
    | (cases hr; done)
    | (cases hs; cases hd; done)
    | (cases hs; exact ⟨⟨0, rfl, fun _ => rfl⟩, rfl⟩)
    | (cases hs; exact ⟨⟨1, rfl, nofun⟩, rfl⟩)

theorem bits_le {op : Op} {s : Space} (hs : space op = some s) : s.bits ≤ 32 := by
  cases op <;> first
    | (cases hs; done)
    | (cases hs; decide)

theorem tok_layout {ws : List ℕ} {tok s : ℕ} {g : Field} (h : g ∈ layout tok s ws) :
    ∃ i < ws.length, g.tok = tok + i := by
  induction ws generalizing tok s with
  | nil => cases h
  | cons w ws ih =>
    rcases List.mem_cons.mp h with rfl | h
    · exact ⟨0, Nat.zero_lt_succ _, rfl⟩
    · obtain ⟨i, hi, htok⟩ := ih h
      exact ⟨i + 1, Nat.succ_lt_succ hi, by rw [htok]; omega⟩

namespace Runtime

variable {py : Runtime} {env : Env} {op : Op} {s : Space}

theorem hasValue_of_spells {toks : List Text} {i : ℕ} {t : Text} {v : ℤ} (ht : toks[i]? = some t)
    (h : Spells t v) : py.HasValue constants toks i v := ⟨t, ht, h.parseVal py⟩

theorem hasValue_split (pre post : List Text) {ws : List ℕ} {q i n : ℕ} (hq : q < 2 ^ 33)
    (h : (split ws q)[i]? = some n) :
    py.HasValue constants (pre ++ ((split ws q).map decimalText ++ post)) (pre.length + i) n := by
  have hn : n < 2 ^ 33 := (split_le (List.mem_of_getElem? h)).trans_lt hq
  refine hasValue_of_spells ?_ (spells_decimal hn)
  rw [List.getElem?_append_right (Nat.le_add_right _ _), Nat.add_sub_cancel_left,
    List.getElem?_append_left, List.getElem?_map, h, Option.map_some]
  rw [List.length_map]
  exact (List.getElem?_eq_some_iff.mp h).1

theorem hasValue_field {d q v i n : ℕ} (hq : q < 2 ^ 33) (h : (split (widths op) q)[i]? = some n) :
    py.HasValue constants (fullLine op s d q v) (2 + i) n :=
  hasValue_split [op.name, 'R' :: decimalText d] _ hq h

theorem hasValue_flags {d q v : ℕ} (hv : v < 2 ^ 33) (h : s.flags = true) :
    py.HasValue constants (fullLine op s d q v) (2 + (widths op).length) v := by
  refine hasValue_of_spells ?_ (spells_decimal hv)
  rw [fullLine, Nat.add_comm, List.getElem?_cons_succ, List.getElem?_cons_succ,
    List.getElem?_append_right, List.length_map, length_split, Nat.sub_self, if_pos h]
  · rfl
  · rw [List.length_map, length_split]

theorem encode_fullLine (hK : env.constants = constants) (hs : space op = some s)
    (hd : s.dest = .operand) (hr : op.irregular = false) {d q v : ℕ} (hdst : d < 2 ^ 33)
    (hq : q < 2 ^ s.bits) (hv : v < if s.flags then 2 ^ 8 else 1) :
    py.encode env op (fullLine op s d q v) = .ok (emit op ⟨d, q, v⟩) := by
  obtain ⟨⟨e, hb, he⟩, hsum⟩ := branch_fullLine hs hd hr d q v
  have hq' : q < 2 ^ 33 :=
    hq.trans_le (Nat.pow_le_pow_right two_pos ((bits_le hs).trans (by decide)))
  have hone : py.HasValue constants (fullLine op s d q v) 1 d :=
    hasValue_of_spells rfl (spells_register hdst)
  have hflags : ∀ i ∈ (if s.flags then some (2 + (widths op).length) else none : Option ℕ),
      s.flags = true ∧ i = 2 + (widths op).length := by
    intro i hi
    split_ifs at hi with h
    · exact ⟨h, (Option.mem_some_iff.mp hi).symm⟩
    · cases hi
  refine encode_of_form hK hb ?_ (formOperands_eq (b := 0) (hone.valueOr_eq 0) rfl ?_ ?_)
  · simp only [Form.tokens, Option.toList_some, Option.toList_none, List.append_nil,
      List.forall_mem_append, List.forall_mem_map, List.forall_mem_singleton, Option.mem_toList]
    refine ⟨⟨⟨_, hone⟩, fun g hg => ?_⟩, fun i hi => ?_⟩
    · obtain ⟨i, hi, htok⟩ := tok_layout hg
      rw [← length_split (widths op) q] at hi
      exact ⟨_, htok ▸ hasValue_field hq' (List.getElem?_eq_getElem hi)⟩
    · obtain ⟨h, rfl⟩ := hflags i hi
      exact ⟨_, hasValue_flags (hv.trans (by rw [h]; decide)) h⟩
  · rw [orAll_layout (by decide) fun i n h => hasValue_field hq' h, hsum, Nat.mod_eq_of_lt hq]
    omega
  · cases hf : s.flags with
    | false =>
      rw [hf] at hv
      obtain rfl : v = 0 := Nat.lt_one_iff.mp hv
      rw [he hf]
      rfl
    | true =>
      rw [hf] at hv
      exact (hasValue_flags (hv.trans (by decide)) hf).valueOr_eq _

theorem encode_two (hK : env.constants = constants) {d q v : ℕ} {t : Text} {rest : List Text}
    {i : Option ℕ} {e : ℕ} (hd : d < 2 ^ 33) (hq : q < 2 ^ 32) (ht : Spells t (q % 2 ^ 16 : ℕ))
    (hb : branch op (op.name :: ('R' :: decimalText d) :: t :: decimalText (q / 2 ^ 16) :: rest) =
      .form { fields := layout 2 0 [16, 16], flags := i, flagsElse := e })
    (hi : i = none ∧ v = e ∨ i = some 4 ∧ rest = [decimalText v] ∧ v < 2 ^ 8) :
    py.encode env op (op.name :: ('R' :: decimalText d) :: t :: decimalText (q / 2 ^ 16) :: rest) =
      .ok (emit op ⟨d, q, v⟩) := by
  generalize htoks : op.name :: ('R' :: decimalText d) :: t :: decimalText (q / 2 ^ 16) :: rest =
    toks at hb ⊢
  have hlt : q / 2 ^ 16 < 2 ^ 16 := by omega
  have h1 : py.HasValue constants toks 1 d := by
    rw [← htoks]
    exact hasValue_of_spells rfl (spells_register hd)
  have h2 : py.HasValue constants toks 2 (q % 2 ^ 16 : ℕ) := by
    rw [← htoks]
    exact hasValue_of_spells rfl ht
  have h3 : py.HasValue constants toks 3 (q / 2 ^ 16 : ℕ) := by
    rw [← htoks]
    exact hasValue_of_spells rfl (spells_decimal (hlt.trans (by decide)))
  have h4 : ∀ j ∈ i, py.HasValue constants toks j v := by
    rintro j hj
    obtain ⟨rfl, -⟩ | ⟨rfl, rfl, hv⟩ := hi
    · cases hj
    · cases hj
      rw [← htoks]
      exact hasValue_of_spells rfl (spells_decimal (hv.trans (by decide)))
  have hfields : ∀ j (n : ℕ), (split [16, 16] q)[j]? = some n →
      py.HasValue constants toks (2 + j) n := by
    intro j n hn
    rcases j with _ | _ | j
    · obtain rfl := Option.some.inj hn
      exact h2
    · obtain rfl := Option.some.inj hn
      rw [Nat.mod_eq_of_lt hlt]
      exact h3
    · cases hn
  refine encode_of_form hK hb ?_ (formOperands_eq (b := 0) (h1.valueOr_eq 0) rfl ?_ ?_)
  · simp only [Form.tokens, Option.toList_some, Option.toList_none, List.append_nil,
      List.forall_mem_append, List.forall_mem_singleton, Option.mem_toList, layout, List.map_cons,
      List.map_nil, List.forall_mem_cons]
    exact ⟨⟨⟨d, h1⟩, ⟨_, h2⟩, ⟨_, h3⟩⟩, fun j hj => ⟨_, h4 j hj⟩⟩
  · rw [orAll_layout (by decide) hfields]
    have : [16, 16].sum = 32 := rfl
    rw [this, Nat.mod_eq_of_lt hq]
    omega
  · cases i with
    | none =>
      obtain ⟨-, rfl⟩ | ⟨h, -⟩ := hi
      · rfl
      · cases h
    | some i => exact (h4 i rfl).valueOr_eq _

theorem encode_floatVectorScale (hK : env.constants = constants) {d q v : ℕ} (hd : d < 2 ^ 33)
    (hq : q < 2 ^ 32) (hv : v < 2 ^ 8) :
    py.encode env .floatVectorScale (Op.floatVectorScale.name :: ('R' :: decimalText d) ::
      ('R' :: decimalText (q % 2 ^ 16)) :: decimalText (q / 2 ^ 16) :: [decimalText v]) =
        .ok (emit .floatVectorScale ⟨d, q, v⟩) := by
  have hR : (decimalText (q / 2 ^ 16)).startsWith (chars "R") = false := by
    have hc : 'R' ∉ decimalText (q / 2 ^ 16) :=
      fun h => absurd (isDigit_of_mem_decimalText h) (by decide)
    exact eq_false_of_ne_true (not_startsWith_of_mem (c := 'R') (by decide) hc)
  refine encode_two (e := 1) hK hd hq (spells_register (by omega)) ?_ (.inr ⟨rfl, rfl, hv⟩)
  -- the third operand is not a register, the second one is
  calc _ = if (decimalText (q / 2 ^ 16)).startsWith (chars "R") then
        Branch.form { fields := [⟨3, 16, 0⟩], flags := some 4, flagsElse := 1 }
      else .form { fields := layout 2 0 [16, 16], flags := some 4, flagsElse := 1 } := rfl
    _ = _ := by rw [hR, if_neg Bool.false_ne_true]

theorem encode_vecCmpBetween (hK : env.constants = constants) {d q : ℕ} (hd : d < 2 ^ 33)
    (hq : q < 2 ^ 32) :
    py.encode env .vecCmpBetween (Op.vecCmpBetween.name :: ('R' :: decimalText d) ::
      hexText (q % 2 ^ 16) :: [decimalText (q / 2 ^ 16)]) =
        .ok (emit .vecCmpBetween ⟨d, q, (0 : ℕ)⟩) :=
  encode_two hK hd hq (spells_hex (by omega)) rfl (.inl ⟨rfl, rfl⟩)

theorem absent_branch (hs : space op = some s) (hd : s.dest = .absent) (toks : List Text) :
    branch op toks = .form { dst := none, whole := some 1 } ∧ s = { dest := .absent } := by
  cases op <;> first
    | (cases hs; done)
    | (cases hs; cases hd; done)
    | (cases hs; exact ⟨rfl, rfl⟩)

theorem encode_absent (hK : env.constants = constants) (hs : space op = some s)
    (hd : s.dest = .absent) {q : ℕ} (hq : q < 2 ^ 32) :
    py.encode env op (op.name :: [decimalText q]) = .ok (emit op ⟨0, q, 0⟩) := by
  obtain ⟨hb, -⟩ := absent_branch hs hd (op.name :: [decimalText q])
  have h1 : py.HasValue constants (op.name :: [decimalText q]) 1 q :=
    hasValue_of_spells rfl (spells_decimal (hq.trans (by decide)))
  refine encode_of_form hK hb ?_ ?_
  · rintro i hi
    obtain rfl : i = 1 := List.mem_singleton.mp hi
    exact ⟨_, h1⟩
  · rw [formOperands, h1.valueOr_eq]
    rfl

theorem encode_whole (hK : env.constants = constants)
    (ho : op ∈ [.streamLoadConst, .allocScratch, .assertScratchBytes, .setMaxDop]) {d q : ℕ}
    (hd : d < 2 ^ 33) (hq : q < 2 ^ 32) :
    py.encode env op (op.name :: ('R' :: decimalText d) :: [decimalText q]) =
      .ok (emit op ⟨d, q, 0⟩) := by
  have hb : branch op (op.name :: ('R' :: decimalText d) :: [decimalText q]) =
      .form { whole := some 2 } := by
    simp only [List.mem_cons, List.not_mem_nil, or_false] at ho
    rcases ho with rfl | rfl | rfl | rfl <;> rfl
  have h1 : py.HasValue constants (op.name :: ('R' :: decimalText d) :: [decimalText q]) 1 d :=
    hasValue_of_spells rfl (spells_register hd)
  have h2 : py.HasValue constants (op.name :: ('R' :: decimalText d) :: [decimalText q]) 2 q :=
    hasValue_of_spells rfl (spells_decimal (hq.trans (by decide)))
  refine encode_of_form hK hb ?_ ?_
  · intro i hi
    have hi : i = 1 ∨ i = 2 := by simpa [Form.tokens] using hi
    rcases hi with rfl | rfl
    · exact ⟨_, h1⟩
    · exact ⟨_, h2⟩
  · rw [formOperands, h1.valueOr_eq, h2.valueOr_eq]
    rfl

theorem payload_split (pre : List Text) {ws : List ℕ} {q : ℕ} (hq : q < 2 ^ 33)
    (hlt : q < 2 ^ ws.sum) :
    BitField.orAll 0 ((layout pre.length 0 ws).map
      (py.fieldPut constants (pre ++ (split ws q).map decimalText))) = q := by
  have hfields : ∀ i (n : ℕ), (split ws q)[i]? = some n →
      py.HasValue constants (pre ++ (split ws q).map decimalText) (pre.length + i) n := by
    intro i n h
    have hvalue : py.HasValue _ _ _ _ := hasValue_split pre [] hq h
    rwa [List.append_nil] at hvalue
  rw [orAll_layout (by decide) hfields, Nat.mod_eq_of_lt hlt]
  omega

theorem encode_stableCheck (hK : env.constants = constants) {q : ℕ} (hq : q < 2 ^ 16) :
    py.encode env .stableCheck ([Op.stableCheck.name] ++ (split [16] q).map decimalText) =
      .ok (emit .stableCheck ⟨0, q, 0⟩) := by
  have hq' : q < 2 ^ 33 := hq.trans (by decide)
  have hb : branch .stableCheck ([Op.stableCheck.name] ++ (split [16] q).map decimalText) =
      .form { dst := none, fields := layout 1 0 [16] } := rfl
  refine encode_of_form hK hb ?_ (formOperands_eq (b := 0) rfl rfl (payload_split _ hq' hq) rfl)
  intro i hi
  obtain rfl : i = 1 := List.mem_singleton.mp hi
  exact ⟨_, hasValue_of_spells rfl (spells_decimal ((Nat.mod_le _ _).trans_lt hq'))⟩

theorem encode_stableCheck_shared (hK : env.constants = constants) {q : ℕ} (hq : q < 2 ^ 32) :
    py.encode env .stableCheck ([Op.stableCheck.name] ++ (split [16, 16] q).map decimalText) =
      .ok (emit .stableCheck ⟨(q % 2 ^ 16 : ℕ), q, 0⟩) := by
  have hq' : q < 2 ^ 33 := hq.trans (by decide)
  have hb : branch .stableCheck ([Op.stableCheck.name] ++ (split [16, 16] q).map decimalText) =
      .form { fields := layout 1 0 [16, 16] } := rfl
  have h1 : py.HasValue constants ([Op.stableCheck.name] ++ (split [16, 16] q).map decimalText) 1
      (q % 2 ^ 16 : ℕ) :=
    hasValue_of_spells rfl (spells_decimal ((Nat.mod_le _ _).trans_lt hq'))
  have h2 : py.HasValue constants ([Op.stableCheck.name] ++ (split [16, 16] q).map decimalText) 2
      (q / 2 ^ 16 % 2 ^ 16 : ℕ) :=
    hasValue_of_spells rfl (spells_decimal
      ((Nat.mod_le _ _).trans_lt ((Nat.div_le_self _ _).trans_lt hq')))
  refine encode_of_form hK hb ?_
    (formOperands_eq (b := 0) (h1.valueOr_eq 0) rfl (payload_split _ hq' hq) rfl)
  intro i hi
  have hi : i = 1 ∨ i = 2 := by simpa [Form.tokens, layout] using hi
  rcases hi with rfl | rfl
  · exact ⟨_, h1⟩
  · exact ⟨_, h2⟩

theorem encode_mockAttr (hK : env.constants = constants)
    (ho : op = .initMockNodeAttr ∨ op = .initMockEdgeAttr) {d q : ℕ} (hd : d < 2 ^ 33)
    (hq : q < 2 ^ 14) :
    py.encode env op ([op.name, 'R' :: decimalText d] ++ (split [8, 8] q).map decimalText) =
      .ok (emit op ⟨d, q, 0⟩) := by
  have hq' : q < 2 ^ 33 := hq.trans (by decide)
  have hb (toks : List Text) : branch op toks = .mockAttr := by
    rcases ho with rfl | rfl <;> rfl
  generalize htoks : [op.name, 'R' :: decimalText d] ++ (split [8, 8] q).map decimalText = toks
  have h1 : py.HasValue constants toks 1 d := by
    rw [← htoks]
    exact hasValue_of_spells rfl (spells_register hd)
  have h2 : py.HasValue constants toks 2 (q % 2 ^ 8 : ℕ) := by
    rw [← htoks]
    exact hasValue_of_spells rfl (spells_decimal ((Nat.mod_le _ _).trans_lt hq'))
  have h3 : py.HasValue constants toks 3 (q / 2 ^ 8 % 2 ^ 8 : ℕ) := by
    rw [← htoks]
    exact hasValue_of_spells rfl (spells_decimal
      ((Nat.mod_le _ _).trans_lt ((Nat.div_le_self _ _).trans_lt hq')))
  have hm : mockRegister (q / 2 ^ 8 % 2 ^ 8 : ℕ) = mask 8 (q / 2 ^ 8 % 2 ^ 8 : ℕ) := by
    have hlt : q / 2 ^ 8 % 2 ^ 8 < 64 := by omega
    rw [mockRegister, mask_of_lt (Int.natCast_nonneg _) (by omega), if_neg (by omega)]
  have hpayload : (py.mockOperands constants toks).payload = q := by
    have hq : BitField.orAll 0 ((layout 2 0 [8, 8]).map (py.fieldPut constants toks)) = q :=
      htoks ▸ payload_split [op.name, 'R' :: decimalText d] hq' (hq.trans (by decide))
    rw [payload_mockOperands, h3.valueAt_eq, hm, ← h3.valueAt_eq]
    exact congrArg Nat.cast hq
  have hops : py.mockOperands constants toks = ⟨d, q, 0⟩ := by
    rw [← h1.valueAt_eq, ← hpayload]
    rfl
  rw [encode_eq_ok]
  refine ⟨_, ?_, rfl⟩
  rw [operands, hb, hK]
  refine evalMockAttr_eq_ok_iff.mpr ⟨readsAt_iff.mpr ?_, hops.symm⟩
  simp only [List.forall_mem_cons]
  exact ⟨h1.evaluates, h2.evaluates, h3.evaluates, fun _ h => absurd h List.not_mem_nil⟩

theorem literal_branch (hs : space op = some s) (hl : s.literal = true) {toks : List Text}
    (hR : (toks.getD 1 []).startsWith (chars "R") = false) :
    branch op toks = .form {
      dst := none, whole := some 1, fields := layout 2 0 [16, 16], flags := some 4 } := by
  have hR : ¬ (toks.getD 1 []).startsWith (chars "R") = true := by rw [hR]; exact Bool.false_ne_true
  cases op <;> first
    | (cases hs; done)
    | (cases hs; cases hl; done)
    | exact if_neg hR

theorem encode_literal (hK : env.constants = constants) (hs : space op = some s)
    (hl : s.literal = true) {t : Text} {q : ℤ} {v : ℕ} (ht : Spells t q)
    (hR : t.startsWith (chars "R") = false) (hv : v < 2 ^ 8) :
    py.encode env op [op.name, t, decimalText 0, decimalText 0, decimalText v] =
      .ok (emit op ⟨0, q, v⟩) := by
  generalize htoks : [op.name, t, decimalText 0, decimalText 0, decimalText v] = toks
  have hb : branch op toks = _ := literal_branch hs hl (by rw [← htoks]; exact hR)
  have h1 : py.HasValue constants toks 1 q := htoks ▸ hasValue_of_spells rfl ht
  have h2 : py.HasValue constants toks 2 (0 : ℕ) :=
    htoks ▸ hasValue_of_spells rfl (spells_decimal (by decide))
  have h3 : py.HasValue constants toks 3 (0 : ℕ) :=
    htoks ▸ hasValue_of_spells rfl (spells_decimal (by decide))
  have h4 : py.HasValue constants toks 4 v :=
    htoks ▸ hasValue_of_spells rfl (spells_decimal (hv.trans (by decide)))
  have hzero (w k : ℕ) : mask w ((0 : ℕ) : ℤ) * 2 ^ k = 0 := by
    rw [mask, Nat.cast_zero, Int.zero_emod, Int.zero_mul]
  refine encode_of_form hK hb ?_ ?_
  · intro i hi
    have hi : i = 1 ∨ i = 2 ∨ i = 3 ∨ i = 4 := by simpa [Form.tokens, layout] using hi
    rcases hi with rfl | rfl | rfl | rfl
    · exact ⟨_, h1⟩
    · exact ⟨_, h2⟩
    · exact ⟨_, h3⟩
    · exact ⟨_, h4⟩
  · rw [formOperands, h1.valueOr_eq, h4.valueOr_eq]
    simp only [layout, List.foldl_cons, List.foldl_nil, fieldValue, h2.valueAt_eq, h3.valueAt_eq,
      hzero, lor_zero, valueOr]

end Runtime

/-- The tokens are assembled to the words of the operands, whatever the runtime. -/
structure Writes (op : Op) (o : Operands) (args : List Text) : Prop where
  ne_nil : args ≠ []
  token : ∀ a ∈ args, PlainToken a
  encode : ∀ (py : Runtime) (env : Env), env.constants = constants →
    py.encode env op (op.name :: args) = .ok (emit op o)

theorem plainToken_split (ws : List ℕ) (q : ℕ) :
    ∀ a ∈ (split ws q).map decimalText, PlainToken a :=
  List.forall_mem_map.mpr fun n _ => plainToken_decimal n

theorem eq_stableCheck {op : Op} {s : Space} (hs : space op = some s) (hd : s.dest = .shared) :
    op = .stableCheck := by
  cases op <;> first
    | rfl
    | (cases hs; done)
    | (cases hs; cases hd)

theorem irregular_cases {op : Op} {s : Space} (hs : space op = some s) (hd : s.dest = .operand)
    (hr : op.irregular = true) :
    (op = .initMockNodeAttr ∨ op = .initMockEdgeAttr) ∧ s = { bits := 14 } ∨
    op = .floatVectorScale ∧ s = { flags := true } ∨ op = .vecCmpBetween ∧ s = {} ∨
    op ∈ [.streamLoadConst, .allocScratch, .assertScratchBytes, .setMaxDop] ∧ s = {} := by
  cases op <;> first
    | (cases hr; done)
    | (cases hs; cases hd; done)
    | (cases hs; simp)

theorem exists_writes_irregular {op : Op} {s : Space} (hs : space op = some s)
    (hd : s.dest = .operand) (hr : op.irregular = true) {d q v : ℕ} (hdst : d < 2 ^ 16)
    (hq : q < 2 ^ s.bits) (hv : v < if s.flags then 2 ^ 8 else 1) :
    ∃ args, Writes op ⟨d, q, v⟩ args := by
  have hdst' : d < 2 ^ 33 := hdst.trans (by decide)
  rcases irregular_cases hs hd hr with ⟨hop, rfl⟩ | ⟨rfl, rfl⟩ | ⟨rfl, rfl⟩ | ⟨hop, rfl⟩
  · obtain rfl : v = 0 := Nat.lt_one_iff.mp hv
    refine ⟨('R' :: decimalText d) :: (split [8, 8] q).map decimalText, List.cons_ne_nil _ _,
      List.forall_mem_cons.mpr ⟨plainToken_register d, plainToken_split _ _⟩, fun py env hK => ?_⟩
    exact Runtime.encode_mockAttr hK hop hdst' hq
  · refine ⟨_, List.cons_ne_nil _ _, ?_, fun py env hK =>
      Runtime.encode_floatVectorScale hK hdst' hq hv⟩
    simp only [List.forall_mem_cons]
    exact ⟨plainToken_register d, plainToken_register _, plainToken_decimal _, plainToken_decimal v,
      fun _ h => absurd h List.not_mem_nil⟩
  · obtain rfl : v = 0 := Nat.lt_one_iff.mp hv
    refine ⟨_, List.cons_ne_nil _ _, ?_, fun py env hK => Runtime.encode_vecCmpBetween hK hdst' hq⟩
    simp only [List.forall_mem_cons]
    exact ⟨plainToken_register d, (spells_hex (Nat.mod_lt _ (by decide))).token,
      plainToken_decimal _, fun _ h => absurd h List.not_mem_nil⟩
  · obtain rfl : v = 0 := Nat.lt_one_iff.mp hv
    refine ⟨_, List.cons_ne_nil _ _, ?_, fun py env hK => Runtime.encode_whole hK hop hdst' hq⟩
    simp only [List.forall_mem_cons]
    exact ⟨plainToken_register d, plainToken_decimal q, fun _ h => absurd h List.not_mem_nil⟩

theorem exists_writes_regular {op : Op} {s : Space} (hs : space op = some s)
    (hd : s.dest = .operand) (hr : op.irregular = false) {d q v : ℕ} (hdst : d < 2 ^ 16)
    (hq : q < 2 ^ s.bits) (hv : v < if s.flags then 2 ^ 8 else 1) :
    ∃ args, Writes op ⟨d, q, v⟩ args := by
  refine ⟨(fullLine op s d q v).tail, List.cons_ne_nil _ _, ?_, fun py env hK =>
    Runtime.encode_fullLine hK hs hd hr (hdst.trans (by decide)) hq hv⟩
  have hflags : ∀ a ∈ if s.flags then [decimalText v] else [], PlainToken a := by
    split_ifs
    · exact List.forall_mem_singleton.mpr (plainToken_decimal v)
    · exact fun _ h => absurd h List.not_mem_nil
  exact List.forall_mem_cons.mpr ⟨plainToken_register d,
    List.forall_mem_append.mpr ⟨plainToken_split _ _, hflags⟩⟩

theorem exists_writes_literal {op : Op} {s : Space} (hs : space op = some s)
    (hl : s.literal = true) {q : ℤ} {v : ℕ} (hlo : -2 ^ 32 ≤ q) (hhi : q < 2 ^ 33)
    (hv : v < 2 ^ 8) : ∃ args, Writes op ⟨0, q, v⟩ args := by
  obtain ⟨t, ht, hR⟩ : ∃ t, Spells t q ∧ t.startsWith (chars "R") = false := by
    have hdigits (n : ℕ) : 'R' ∉ decimalText n :=
      fun h => absurd (isDigit_of_mem_decimalText h) (by decide)
    obtain ⟨n, rfl | rfl⟩ := Int.eq_nat_or_neg q
    · exact ⟨_, spells_decimal (by exact_mod_cast hhi), eq_false_of_ne_true
        (not_startsWith_of_mem (c := 'R') (by decide) (hdigits n))⟩
    · exact ⟨_, spells_negative (by omega), rfl⟩
  refine ⟨_, List.cons_ne_nil _ _, ?_, fun py env hK => Runtime.encode_literal hK hs hl ht hR hv⟩
  simp only [List.forall_mem_cons]
  exact ⟨ht.token, plainToken_decimal 0, plainToken_decimal 0, plainToken_decimal v,
    fun _ h => absurd h List.not_mem_nil⟩

/-- Every word of the space of a mnemonic is that of some line. -/
theorem exists_writes {op : Op} {s : Space} {o : Operands} (hs : space op = some s)
    (ho : s.Holds o) : ∃ args, Writes op o args := by
  obtain ⟨d, q, v⟩ := o
  obtain ⟨⟨hv0, hv⟩, ho⟩ := ho
  dsimp only at hv0 hv ho
  obtain ⟨v, rfl⟩ := Int.eq_ofNat_of_zero_le hv0
  have hv : v < if s.flags then 2 ^ 8 else 1 := by
    split_ifs at hv ⊢ <;> exact_mod_cast hv
  rcases ho with ⟨hq0, hq, hd⟩ | ⟨hl, rfl, hlo, hhi⟩
  · obtain ⟨q, rfl⟩ := Int.eq_ofNat_of_zero_le hq0
    have hq : q < 2 ^ s.bits := by exact_mod_cast hq
    cases hdest : s.dest with
    | absent =>
      obtain ⟨-, rfl⟩ := Runtime.absent_branch hs hdest []
      obtain rfl : d = 0 := hd
      obtain rfl : v = 0 := Nat.lt_one_iff.mp hv
      exact ⟨_, List.cons_ne_nil _ _, List.forall_mem_singleton.mpr (plainToken_decimal q),
        fun py env hK => Runtime.encode_absent hK hs hdest hq⟩
    | operand =>
      rw [hdest] at hd
      obtain ⟨hd0, hd⟩ := hd
      dsimp only at hd0 hd
      obtain ⟨d, rfl⟩ := Int.eq_ofNat_of_zero_le hd0
      have hd : d < 2 ^ 16 := by exact_mod_cast hd
      cases hr : op.irregular with
      | false => exact exists_writes_regular hs hdest hr hd hq hv
      | true => exact exists_writes_irregular hs hdest hr hd hq hv
    | shared =>
      obtain rfl := eq_stableCheck hs hdest
      obtain rfl : { dest := .shared } = s := Option.some.inj hs
      obtain rfl : v = 0 := Nat.lt_one_iff.mp hv
      rcases hd with hd | ⟨hd, hlow⟩
      · obtain rfl : d = (q % 2 ^ 16 : ℕ) := hd
        exact ⟨_, List.cons_ne_nil _ _, plainToken_split [16, 16] q,
          fun py env hK => Runtime.encode_stableCheck_shared hK hq⟩
      · dsimp only at hd hlow
        obtain rfl : d = 0 := hd
        exact ⟨_, List.cons_ne_nil _ _, plainToken_split [16] q,
          fun py env hK => Runtime.encode_stableCheck hK (by exact_mod_cast hlow)⟩
  · have hv : v < 2 ^ 8 := by
      split_ifs at hv
      · exact hv
      · exact hv.trans (by decide)
    exact exists_writes_literal hs hl hlo hhi hv

structure Line where
  op : Op
  operands : Operands
  args : List Text
  writes : Writes op operands args

def Line.text (l : Line) : Text := formatLine (chars "0") l.op 1 l.args

def Line.words (l : Line) : List Instruction := emit l.op l.operands

theorem Line.argsOk (l : Line) : ArgsOk 1 l.args where
  blanks_eq h := absurd h l.writes.ne_nil
  blanks_pos _ := one_ne_zero
  token a ha := (l.writes.token a ha).toToken

theorem Line.not_mem_text (l : Line) {c : Char} (ht : isTokenChar c = false)
    (hc : c ∉ chars ": ,") : c ∉ l.text :=
  not_mem_formatLine (by decide) l.argsOk (by rw [ht]; exact Bool.false_ne_true) hc

theorem dot_not_mem_name (op : Op) : '.' ∉ op.name := by
  have h : ∀ o ∈ Op.opcodes ++ Op.opcodeAliases, '.' ∉ o.name := by decide +kernel
  exact h op (Op.mem_names op)

theorem Line.dot_not_mem (l : Line) : '.' ∉ l.text := by
  rw [Line.text, formatLine_eq, codeText]
  simp only [List.mem_append, List.mem_cons, not_or]
  refine ⟨by decide, by decide, by decide, dot_not_mem_name _, by decide, fun h => ?_⟩
  rcases Scan.mem_intercalate h with ⟨a, ha, hc⟩ | hc
  · exact (l.writes.token a ha).dot hc
  · exact absurd hc (by decide)

theorem Line.strip_concat (l : Line) : Text.strip (l.text ++ ['\n']) = l.text.strip :=
  Scan.trim_concat (by decide)

theorem Line.instructionLine_eq (l : Line) (py : Runtime) :
    py.instructionLine (Text.strip (l.text ++ ['\n'])) = some (l.op.name, l.op.name :: l.args) := by
  rw [l.strip_concat]
  exact py.instructionLine_formatLine (by decide) (by decide) l.argsOk

theorem Line.adds (l : Line) (py : Runtime) {env : Env} (hK : env.constants = constants) :
    py.Adds env (l.text ++ ['\n']) l.words :=
  Runtime.adds_concat (Runtime.adds_formatLine (by decide) (by decide) l.argsOk
    (l.writes.encode py env hK))

def programText (ls : List Line) : Text := unlines (ls.map Line.text)

theorem not_mem_programText {ls : List Line} {c : Char} (hn : c ≠ '\n')
    (h : ∀ l : Line, c ∉ l.text) : c ∉ programText ls :=
  not_mem_unlines hn (List.forall_mem_map.mpr fun l _ => h l)

theorem readlines_programText (ls : List Line) :
    (programText ls).readlines = ls.map fun l => l.text ++ ['\n'] := by
  rw [programText, readlines_unlines, List.map_map]
  · rfl
  · exact List.forall_mem_map.mpr fun l _ => l.not_mem_text (by decide) (by decide)

namespace Runtime

variable {py : Runtime}

theorem instructionLines_programText (ls : List Line) :
    py.instructionLines (programText ls) = ls.map fun l => (l.op.name, l.op.name :: l.args) := by
  have hr : '\r' ∉ programText ls :=
    not_mem_programText (by decide) fun l => l.not_mem_text (by decide) (by decide)
  rw [instructionLines, Text.universalNewlines_of_not_mem hr, readlines_programText]
  rw [List.filterMap_map, ← List.filterMap_eq_map]
  exact List.filterMap_congr fun l _ => l.instructionLine_eq py

theorem parseImpasFile_programText (py : Runtime) (ls : List Line) :
    ∃ p, py.parseImpasFile constants (programText ls) = (.ok p, constants) ∧
      p.instructions = (ls.map Line.words).flatten := by
  have hr : '\r' ∉ programText ls :=
    not_mem_programText (by decide) fun l => l.not_mem_text (by decide) (by decide)
  have hdot : '.' ∉ programText ls := not_mem_programText (by decide) Line.dot_not_mem
  have hadds : List.Forall₂ (py.Adds ⟨constants, ∅, ∅⟩) (programText ls).readlines
      (ls.map Line.words) := by
    rw [readlines_programText, List.forall₂_map_left_iff, List.forall₂_map_right_iff,
      List.forall₂_same]
    exact fun l _ => l.adds py rfl
  obtain ⟨p, hp, hi⟩ := foldlM_adds hadds { data := [] }
  refine ⟨p, ?_, hi⟩
  rw [parseImpasFile_of_not_mem hr hdot, hp]

theorem exists_line {u : List Instruction} (h : Writable u) :
    ∃ l : Line, l.words = u ∧ (space l.op).isSome := by
  obtain ⟨op, s, o, hs, ho, rfl⟩ := h
  obtain ⟨args, hw⟩ := exists_writes hs ho
  exact ⟨⟨op, o, args, hw⟩, rfl, Option.isSome_of_eq_some hs⟩

theorem exists_lines {units : List (List Instruction)} (hu : ∀ u ∈ units, Writable u) :
    ∃ ls : List Line, ls.map Line.words = units ∧ ∀ l ∈ ls, (space l.op).isSome := by
  induction units with
  | nil => exact ⟨[], rfl, fun _ h => absurd h List.not_mem_nil⟩
  | cons u units ih =>
    obtain ⟨hu, hus⟩ := List.forall_mem_cons.mp hu
    obtain ⟨l, rfl, hl⟩ := exists_line hu
    obtain ⟨ls, rfl, hls⟩ := ih hus
    exact ⟨l :: ls, rfl, List.forall_mem_cons.mpr ⟨hl, hls⟩⟩

/-- The words that texts are assembled to are those of operands in the spaces of mnemonics, one
unit after the other, as long as no line loads from the data or a float. -/
theorem assembles_iff (py : Runtime) (ws : List Instruction) :
    (∃ text p K', py.parseImpasFile constants text = (.ok p, K') ∧ p.instructions = ws ∧
      ∀ l ∈ py.instructionLines text, ∀ op, Op.ofName? l.1 = some op → (space op).isSome) ↔
    ∃ units : List (List Instruction), units.flatten = ws ∧ ∀ u ∈ units, Writable u := by
  constructor
  · rintro ⟨text, p, K', h, rfl, hspace⟩
    obtain ⟨env, units, data, -, ha⟩ := exists_units h
    refine ⟨units, ha.instructions_eq.symm, fun u hu => ?_⟩
    obtain ⟨l, hl, op, hop, he⟩ := ExceptFold.exists_of_mem_right ha.encodes hu
    exact writable_of_encode (hspace l hl op hop) he
  · rintro ⟨units, rfl, hu⟩
    obtain ⟨ls, hls, hspace⟩ := exists_lines hu
    obtain ⟨p, hp, hi⟩ := parseImpasFile_programText py ls
    refine ⟨programText ls, p, constants, hp, hls ▸ hi, ?_⟩
    rw [instructionLines_programText]
    intro l' hl' op hop
    obtain ⟨l, hl, rfl⟩ := List.mem_map.mp hl'
    obtain rfl : l.op = op := Option.some.inj ((Op.ofName?_name l.op).symm.trans hop)
    exact hspace l hl

end Runtime

end ImpulseTools

import ImpulseTools.Asm.Operand
import ImpulseTools.Asm.Unit
import ImpulseTools.Fuzz.Generate

/-! # The words of a generated program

What each turn of the generator adds, and the word that each added line is assembled to.
-/

namespace ImpulseTools

/-- The emission of a chosen contract, in the given state, with its mnemonic and operands. -/
structure Emits (table : List Contract) (pc : ℕ) (s : RegState) (e : Emission) (op : Op)
    (args : List Text) : Prop where
  contract_mem : e.contract ∈ table
  op_eq : e.contract.op = some op
  dst_mem : 10 ≤ e.dst ∧ e.dst ≤ 31
  src_lt : e.src < 64
  operands : ∃ aux1 n, aux1 < 64 ∧ formatOperands op e.dst e.src aux1 n = some args
  line_eq : e.line = formatLine (hexPc pc) op (24 - op.name.length + 1) args
  regState_eq : ∃ aux1 n, e.regState = recordTypes s e.contract e.dst e.src aux1 n

variable {table : List Contract}

theorem choice_mem {α : Type} {l : List α} {n : ℕ} {a : α} (h : choice l n = some a) : a ∈ l :=
  List.mem_of_getElem? h

theorem randint_mem {a b : ℕ} (h : a ≤ b) (n : ℕ) : a ≤ randint a b n ∧ randint a b n ≤ b := by
  have := Nat.mod_lt n (show 0 < b + 1 - a by omega)
  unfold randint
  omega

theorem pick_lt (s : RegState) (allowed n : ℕ) : (choice (validRegs s allowed) n).getD 0 < 64 := by
  cases h : choice (validRegs s allowed) n with
  | none => decide
  | some r => exact List.mem_range.mp (List.mem_of_mem_filter (choice_mem h))

theorem turn_cases {s s' : FuzzState} {d : Draw} (h : turn table s d = some s') :
    s' = s ∨ ∃ e op args, Emits table s.pc s.regState e op args ∧
      s' = ⟨s.pc + 1, e.regState, s.emitted ++ [e]⟩ := by
  unfold turn at h
  obtain ⟨c, hc, h⟩ := Option.bind_eq_some_iff.mp h
  have hmem : c ∈ table := List.mem_of_mem_filter (List.mem_of_mem_filter (choice_mem hc))
  dsimp only at h
  split at h
  · exact .inl (Option.some.inj h).symm
  · rename_i line hline
    obtain rfl := Option.some.inj h
    obtain ⟨op, hop, hline⟩ := Option.bind_eq_some_iff.mp hline
    obtain ⟨args, hargs, hline⟩ := Option.bind_eq_some_iff.mp hline
    refine .inr ⟨⟨c, _, _, _, _⟩, op, args, ?_, rfl⟩
    refine ⟨hmem, hop, ?_, ?_, ⟨_, _, ?_, hargs⟩, (Option.some.inj hline).symm, ⟨_, _, rfl⟩⟩
    · exact randint_mem (by decide) _
    · dsimp only
      split
      · decide
      · exact pick_lt _ _ _
    · split
      · decide
      · split
        · decide
        · exact pick_lt _ _ _

/-- The emissions of a run, each in the state the one before it left. -/
inductive Trace (table : List Contract) (s : RegState) : List Emission → RegState → Prop where
  | nil : Trace table s [] s
  | snoc {es : List Emission} {s' : RegState} {e : Emission} {op : Op} {args : List Text} :
    Trace table s es s' → Emits table (7 + es.length) s' e op args →
      Trace table s (es ++ [e]) e.regState

theorem trace_generate {draws : List Draw} {s : FuzzState} {s₀ : RegState}
    (h : Trace table s₀ s.emitted s.regState) (hpc : s.pc = 7 + s.emitted.length) :
    Trace table s₀ (generate table draws s).emitted (generate table draws s).regState ∧
      (generate table draws s).pc = 7 + (generate table draws s).emitted.length := by
  induction draws generalizing s with
  | nil => exact ⟨h, hpc⟩
  | cons d draws ih =>
    rw [generate]
    split
    · rename_i s' hs
      rcases turn_cases hs with rfl | ⟨e, op, args, he, rfl⟩
      · exact ih h hpc
      · refine ih (.snoc h (hpc ▸ he)) ?_
        simp only [List.length_append, List.length_singleton, hpc]
        rfl
    · exact ⟨h, hpc⟩

theorem trace_fuzzRun (table : List Contract) (draws : List Draw) :
    Trace table preambleTypes (fuzzRun table draws).emitted (fuzzRun table draws).regState :=
  (trace_generate .nil rfl).1

theorem Trace.exists_emits {s s' : RegState} {es : List Emission} (h : Trace table s es s') :
    ∀ e ∈ es, ∃ pc s op args, Emits table pc s e op args := by
  induction h with
  | nil => exact fun e he => nomatch he
  | snoc _ he ih =>
    intro e' he'
    rcases List.mem_append.mp he' with he' | he'
    · exact ih e' he'
    · rw [List.mem_singleton.mp he']
      exact ⟨_, _, _, _, he⟩

theorem token_regText (r : ℕ) : Token (regText r) :=
  .append (s := ['R']) (by decide) (token_decimalText r)

theorem mem_centText {k : ℕ} {c : Char} (hc : c ∈ centText k) : c = '.' ∨ c.isDigit := by
  have hd (m : ℕ) : (Nat.digitChar (m % 10)).isDigit := by
    simpa using Nat.mod_lt m (by decide)
  rcases List.mem_append.mp hc with hc | hc
  · exact .inr (isDigit_of_mem_decimalText hc)
  · rcases List.mem_cons.mp hc with hc | hc
    · exact .inl hc
    · split at hc
      · rw [List.mem_singleton.mp hc]
        exact .inr (hd _)
      · simp only [List.mem_cons, List.not_mem_nil, or_false] at hc
        rcases hc with rfl | rfl
        · exact .inr (hd _)
        · exact .inr (hd _)

theorem token_centText (k : ℕ) : Token (centText k) := by
  refine ⟨by simp [centText], fun c hc => ?_⟩
  rcases mem_centText hc with rfl | hc
  · decide
  · exact isTokenChar_of_isDigit hc

theorem mem_toDigits {b n : ℕ} {c : Char} (hb : 1 < b) (hc : c ∈ Nat.toDigits b n) :
    ∃ d < b, c = Nat.digitChar d := by
  induction n using Nat.strong_induction_on with
  | _ n ih =>
    rw [Nat.toDigits_eq_if hb] at hc
    split at hc
    · rename_i hn
      exact ⟨n, hn, List.mem_singleton.mp hc⟩
    · rename_i hn
      rcases List.mem_append.mp hc with hc | hc
      · exact ih (n / b) (Nat.div_lt_self (by omega) hb) hc
      · exact ⟨n % b, Nat.mod_lt n (by omega), List.mem_singleton.mp hc⟩

theorem mem_intText {i : ℤ} {c : Char} (hc : c ∈ intText i) : c = '-' ∨ c.isDigit := by
  unfold intText at hc
  split at hc
  · rcases List.mem_cons.mp hc with hc | hc
    · exact .inl hc
    · exact .inr (isDigit_of_mem_decimalText hc)
  · exact .inr (isDigit_of_mem_decimalText hc)

theorem mem_hexPc {pc : ℕ} {c : Char} (hc : c ∈ hexPc pc) : c ∈ chars "x0123456789ABCDEF" := by
  have hx : ∀ d < 16, (Nat.digitChar d).toUpper ∈ chars "x0123456789ABCDEF" := by decide
  rcases List.mem_append.mp hc with hc | hc
  · rcases List.mem_append.mp hc with hc | hc
    · have : ∀ c ∈ chars "0x", c ∈ chars "x0123456789ABCDEF" := by decide
      exact this c hc
    · rw [List.eq_of_mem_replicate hc]
      decide
  · obtain ⟨d, hd, rfl⟩ := List.mem_map.mp hc
    obtain ⟨k, hk, rfl⟩ := mem_toDigits (by decide) hd
    exact hx k hk

theorem isTokenChar_hexPc {pc : ℕ} {c : Char} (hc : c ∈ hexPc pc) : isTokenChar c := by
  have h : ∀ c ∈ chars "x0123456789ABCDEF", isTokenChar c := by decide
  exact h c (mem_hexPc hc)

theorem formatOperands_ne_nil {op : Op} {dst src aux1 n : ℕ} {args : List Text}
    (h : formatOperands op dst src aux1 n = some args) : args ≠ [] := by
  rintro rfl
  unfold formatOperands at h
  split at h <;> cases h

/-- No format is for a mnemonic that ends the program or goes elsewhere. -/
theorem straight_of_some {op : Op} {dst src aux1 n : ℕ} {args : List Text}
    (h : formatOperands op dst src aux1 n = some args) :
    op ≠ .halt ∧ op.transfersControl = false := by
  unfold formatOperands at h
  split at h
  all_goals first | exact ⟨by decide, rfl⟩ | cases h

theorem mem_formatOperands {op : Op} {dst src aux1 n : ℕ} {args : List Text}
    (h : formatOperands op dst src aux1 n = some args) {a : Text} (ha : a ∈ args) :
    (∃ r ∈ [dst, src, aux1], a = regText r) ∨ (∃ k, a = decimalText k) ∨ ∃ k, a = centText k := by
  have h0 : chars "0" = decimalText 0 := rfl
  have h1 : chars "1" = decimalText 1 := rfl
  have h2 : chars "2" = decimalText 2 := rfl
  unfold formatOperands at h
  split at h
  all_goals cases h
  all_goals
    simp only [List.mem_cons, List.not_mem_nil, or_false] at ha
    rcases ha with rfl | rfl | rfl | rfl | rfl
    all_goals simp [h0, h1, h2]

theorem argsOk_formatOperands {op : Op} {dst src aux1 n blanks : ℕ} {args : List Text}
    (h : formatOperands op dst src aux1 n = some args) (hb : blanks ≠ 0) :
    ArgsOk blanks args := by
  refine ⟨fun hn => absurd hn (formatOperands_ne_nil h), fun _ => hb, fun a ha => ?_⟩
  rcases mem_formatOperands h ha with ⟨r, -, rfl⟩ | ⟨k, rfl⟩ | ⟨k, rfl⟩
  · exact token_regText r
  · exact token_decimalText k
  · exact token_centText k

/-- Decimal literals with at most two decimals up to ten are floats, of single precision too. -/
def Runtime.ReadsCents (py : Runtime) : Prop :=
  ∀ k, 10 ≤ k → k ≤ 1000 → ∃ f b, py.float (centText k) = some f ∧ py.packFloat f = some b

theorem Runtime.floatLiteral_centText (py : Runtime) {k : ℕ} {f : BitVec 64}
    (hf : py.float (centText k) = some f) : py.floatLiteral (centText k) = .ok f := by
  have hlow : py.lowerText (centText k) = centText k := by
    have hdigit : ∀ c ∈ chars ".0123456789", c.toNat < 128 ∧ c.toLower = c := by decide
    apply py.lowerText_of_forall
    intro c hc
    rcases mem_centText hc with rfl | hc
    · decide
    · exact hdigit c (List.mem_cons_of_mem _ (mem_of_isDigit hc))
  have hne {t : Text} (ht : 'n' ∈ t) : centText k ≠ t := by
    intro h
    rw [← h] at ht
    rcases mem_centText ht with h | h
    · exact absurd h (by decide)
    · exact absurd h (by decide)
  have hinf : centText k ∉ [chars "inf", chars "+inf", chars "infinity", chars "+infinity"] := by
    intro h
    have : ∀ t ∈ [chars "inf", chars "+inf", chars "infinity", chars "+infinity"], 'n' ∈ t := by
      decide
    exact hne (this _ h) rfl
  have hneg : centText k ∉ [chars "-inf", chars "-infinity"] := by
    intro h
    have : ∀ t ∈ [chars "-inf", chars "-infinity"], 'n' ∈ t := by decide
    exact hne (this _ h) rfl
  unfold floatLiteral
  dsimp only
  rw [hlow, if_neg (hne (by decide)), if_neg hinf, if_neg hneg, hf]

namespace Runtime

variable {py : Runtime}

abbrev Values (py : Runtime) (toks : List Text) (vs : List ℤ) : Prop :=
  List.Forall₂ (fun t v => py.parseVal constants t = .ok v) toks vs

variable {toks : List Text} {vs : List ℤ}

theorem getElem?_values (h : py.Values toks vs) (i : ℕ) :
    (∃ t v, toks[i]? = some t ∧ vs[i]? = some v ∧ py.parseVal constants t = .ok v) ∨
      toks[i]? = none ∧ vs[i]? = none := by
  induction h generalizing i with
  | nil => exact .inr ⟨rfl, rfl⟩
  | @cons t v _ _ hv _ ih =>
    cases i with
    | zero => exact .inl ⟨t, v, rfl, rfl, hv⟩
    | succ i => exact ih i

theorem evaluates_values (h : py.Values toks vs) (i : ℕ) : py.Evaluates constants toks i := by
  intro t ht
  rcases getElem?_values h i with ⟨t', v, ht', -, hv⟩ | ⟨hn, -⟩
  · obtain rfl := Option.some.inj (ht.symm.trans ht')
    exact ⟨v, hv⟩
  · rw [ht] at hn
    cases hn

theorem valueAt_values (h : py.Values toks vs) (i : ℕ) :
    py.valueAt constants toks i = vs.getD i 0 := by
  rw [valueAt, List.getD_eq_getElem?_getD]
  rcases getElem?_values h i with ⟨t, v, ht, hvs, hv⟩ | ⟨ht, hvs⟩
  · rw [ht, hvs, Option.map_some, hv]
    rfl
  · rw [ht, hvs]
    rfl

theorem valueOr_values (h : py.Values toks vs) (i : Option ℕ) (d : ℤ) :
    py.valueOr constants toks i d = (i.bind (vs[·]?)).getD d := by
  cases i with
  | none => rfl
  | some i =>
    rw [valueOr, valueAt_values h, List.getD_eq_getElem?_getD, Option.bind_some]
    rcases Nat.lt_or_ge i toks.length with hi | hi
    · rw [if_pos hi, List.getElem?_eq_getElem (h.length_eq ▸ hi)]
      rfl
    · rw [if_neg (Nat.not_lt.mpr hi), List.getElem?_eq_none (h.length_eq ▸ hi)]
      rfl

def payloadOf (f : Form) (vs : List ℤ) : ℤ :=
  f.fields.foldl (fun q g => q.lor (mask g.width (vs.getD g.tok 0) * 2 ^ g.shift))
    ((f.whole.bind (vs[·]?)).getD f.base)

theorem encode_values {env : Env} {op : Op} {f : Form} (hK : env.constants = constants)
    (h : py.Values toks vs) (hb : branch op toks = .form f)
    (hx : extendable op → payloadOf f vs < 2 ^ 16) :
    py.encode env op toks = .ok [.ofInts op.code ((f.flags.bind (vs[·]?)).getD f.flagsElse)
      ((f.dst.bind (vs[·]?)).getD 0) (mask 32 (payloadOf f vs))] := by
  have hp : (py.formOperands constants toks f).payload = payloadOf f vs := by
    simp only [formOperands, payloadOf, fieldValue, valueAt_values h, valueOr_values h]
  have ho : py.operands env op toks = .ok (py.formOperands constants toks f) := by
    rw [operands_eq_ok_of_form hb, hK]
    exact ⟨fun i _ => evaluates_values h i, rfl⟩
  rw [encode, ho]
  refine congrArg Except.ok ?_
  obtain ⟨he, hlt, -⟩ | ⟨-, he⟩ := emit_cases op (py.formOperands constants toks f)
  · have := hx he
    rw [hp, Int.shiftRight_eq_div_pow] at hlt
    omega
  · rw [he, hp]
    simp only [formOperands, valueOr_values h]

theorem length_decimalText_le {n : ℕ} (hn : n < 1000) :
    (decimalText n).length ≤ maxStrDigits :=
  ((Nat.length_toDigits_le_iff (by decide) (by decide)).mpr hn : _ ≤ 3).trans (by decide)

theorem value_number {n : ℕ} (hn : n < 1000) :
    py.parseVal constants (decimalText n) = .ok n :=
  py.parseVal_decimalText (length_decimalText_le hn)

theorem value_register {r : ℕ} (hr : r < 64) : py.parseVal constants (regText r) = .ok r :=
  py.parseVal_register (length_decimalText_le (hr.trans (by decide)))

/-- A mnemonic in the place of an operand has some value too. -/
theorem value_name (op : Op) : ∃ v, py.parseVal constants op.name = .ok v := by
  have h : ∀ o ∈ Op.opcodes ++ Op.opcodeAliases, o.name.head? ∉ [some 'S', some 'B'] ∧
      ¬ o.name.startsWith (chars "0x") ∧ ¬ o.name.startsWith (chars "R") := by decide +kernel
  obtain ⟨hl, hx, hr⟩ := h op (Op.mem_names op)
  unfold parseVal
  rw [lookup_constants hl]
  dsimp only
  rw [if_neg hx, if_neg hr]
  cases py.int op.name with
  | ok v => exact ⟨v, rfl⟩
  | error e => exact ⟨0, rfl⟩

structure WordFields (op : Op) (dst src : ℕ) (w : Instruction) : Prop where
  opcode : w.opcode = op.code
  flags : w.flags = if op = .floatVectorScale then 1 else 0
  dst : w.dstReg.toNat = if op = .assert then src else dst
  src : op = .mov → w.payload.toNat % 2 ^ 16 = src

theorem exists_word {env : Env} {op : Op} {f : Form} {dst src : ℕ}
    (hK : env.constants = constants) (h : py.Values toks vs) (hb : branch op toks = .form f)
    (hp : extendable op ∨ op = .mov → payloadOf f vs = src)
    (hf : (f.flags.bind (vs[·]?)).getD f.flagsElse = if op = .floatVectorScale then 1 else 0)
    (hd : (f.dst.bind (vs[·]?)).getD 0 = ((if op = .assert then src else dst : ℕ) : ℤ))
    (hdst : dst < 64) (hsrc : src < 64) :
    ∃ w, py.encode env op toks = .ok [w] ∧ WordFields op dst src w := by
  refine ⟨_, encode_values hK h hb fun hx => ?_, rfl, ?_, ?_, fun ho => ?_⟩
  · rw [hp (.inl hx)]
    omega
  · rw [Instruction.ofInts_flags, hf]
    split <;> rfl
  · rw [Instruction.ofInts_dstReg, hd, BitVec.ofInt_natCast, BitVec.toNat_ofNat]
    refine Nat.mod_eq_of_lt ?_
    split <;> omega
  · rw [Instruction.ofInts_payload, toNat_ofInt_mask, hp (.inr ho), toNat_mask_natCast]
    omega

theorem payload_src {src : ℕ} (h : src < 64) :
    ((0 : ℤ).lor (mask 16 src * 2 ^ 0)).lor (mask 16 0 * 2 ^ 16) = src := by
  have : ∀ s < 64, ((0 : ℤ).lor (mask 16 (s : ℕ) * 2 ^ 0)).lor (mask 16 0 * 2 ^ 16) = s := by
    decide
  exact this src h

theorem encode_loadConstFloat {env : Env} {dst src n : ℕ} (hpy : py.ReadsCents)
    (hK : env.constants = constants) (hdst : dst < 64) :
    ∃ w, py.encode env .loadConstFloat
        [Op.loadConstFloat.name, regText dst, centText (randint 10 1000 n)] = .ok [w] ∧
      WordFields .loadConstFloat dst src w := by
  have hd : py.parseVal constants (regText dst) = .ok dst := value_register hdst
  obtain ⟨hlo, hhi⟩ := randint_mem (a := 10) (b := 1000) (by decide) n
  obtain ⟨f, b, hfl, hb⟩ := hpy _ hlo hhi
  refine ⟨.ofInts Op.loadConstFloat.code 0 dst (mask 32 b.toNat), ?_, rfl, rfl, ?_, nofun⟩
  · have ho : py.operands env .loadConstFloat
        [Op.loadConstFloat.name, regText dst, centText (randint 10 1000 n)] =
        .ok ⟨dst, b.toNat, 0⟩ := by
      show py.evalFloat env.constants _ 2 = _
      simp [evalFloat, hK, tokVal, hd, hfl, floatBits, hb, bind, Except.bind, pure, Except.pure]
    obtain ⟨hx, -⟩ | ⟨-, he⟩ := emit_cases .loadConstFloat ⟨dst, b.toNat, 0⟩
    · exact absurd hx (by decide)
    · rw [encode, ho]
      exact congrArg Except.ok he
  · rw [Instruction.ofInts_dstReg, BitVec.ofInt_natCast, BitVec.toNat_ofNat, if_neg (by decide)]
    omega

theorem encode_operands {env : Env} {op : Op} {dst src aux1 n : ℕ} {args : List Text}
    (hpy : py.ReadsCents) (hK : env.constants = constants)
    (h : formatOperands op dst src aux1 n = some args) (hdst : dst < 64) (hsrc : src < 64)
    (haux : aux1 < 64) :
    ∃ w, py.encode env op (op.name :: args) = .ok [w] ∧ WordFields op dst src w := by
  obtain ⟨v, hv⟩ : ∃ v, py.parseVal constants op.name = .ok v := value_name op
  have hd : py.parseVal constants (regText dst) = .ok dst := value_register hdst
  have hs : py.parseVal constants (regText src) = .ok src := value_register hsrc
  have ha : py.parseVal constants (regText aux1) = .ok aux1 := value_register haux
  have h0 : py.parseVal constants (chars "0") = .ok (0 : ℕ) :=
    value_number (n := 0) (by decide)
  have h1 : py.parseVal constants (chars "1") = .ok (1 : ℕ) :=
    value_number (n := 1) (by decide)
  have h2 : py.parseVal constants (chars "2") = .ok (2 : ℕ) :=
    value_number (n := 2) (by decide)
  have hsub {b : ℕ} (hb : b ≤ 100) : py.parseVal constants (decimalText (randint 0 b n)) =
      .ok (randint 0 b n) :=
    value_number ((randint_mem (Nat.zero_le b) n).2.trans_lt (by omega))
  unfold formatOperands at h
  split at h
  all_goals cases h
  -- walks and degrees, over relation 0
  case h_1 | h_2 | h_4 =>
    exact exists_word hK (.cons hv (.cons hd (.cons hs (.cons h0 .nil)))) rfl
      (fun _ => payload_src hsrc) rfl rfl hdst hsrc
  case h_3 | h_21 | h_22 =>
    exact exists_word hK (.cons hv (.cons hd (.cons hs (.cons h0 .nil)))) rfl
      (fun h => absurd h (by decide)) rfl rfl hdst hsrc
  -- three registers
  case h_5 | h_6 | h_7 | h_11 | h_12 | h_13 =>
    exact exists_word hK (.cons hv (.cons hd (.cons hs (.cons ha .nil)))) rfl
      (fun h => absurd h (by decide)) rfl rfl hdst hsrc
  -- two registers
  case h_9 =>
    exact exists_word hK (.cons hv (.cons hd (.cons hs .nil))) rfl
      (fun _ => payload_src hsrc) rfl rfl hdst hsrc
  case h_8 | h_16 | h_18 | h_20 | h_24 =>
    exact exists_word hK (.cons hv (.cons hd (.cons hs .nil))) rfl
      (fun h => absurd h (by decide)) rfl rfl hdst hsrc
  case h_10 =>
    exact exists_word hK (.cons hv (.cons hd .nil)) rfl
      (fun h => absurd h (by decide)) rfl rfl hdst hsrc
  -- a sub-operation
  case h_14 =>
    exact exists_word hK (.cons hv (.cons hd (.cons hs (.cons (hsub (by decide)) .nil)))) rfl
      (fun h => absurd h (by decide)) rfl rfl hdst hsrc
  case h_15 =>
    exact exists_word hK
      (.cons hv (.cons hd (.cons hs (.cons ha (.cons (hsub (by decide)) .nil))))) rfl
      (fun h => absurd h (by decide)) rfl rfl hdst hsrc
  -- fixed numbers
  case h_17 =>
    exact exists_word hK (.cons hv (.cons hd (.cons hs (.cons h2 .nil)))) rfl
      (fun h => absurd h (by decide)) rfl rfl hdst hsrc
  case h_19 =>
    exact exists_word hK (.cons hv (.cons hd (.cons h0 .nil))) rfl
      (fun h => absurd h (by decide)) rfl rfl hdst hsrc
  case h_23 =>
    exact exists_word hK (.cons hv (.cons hd (.cons hs (.cons h1 .nil)))) rfl
      (fun h => absurd h (by decide)) rfl rfl hdst hsrc
  case h_25 =>
    exact exists_word hK
      (.cons hv (.cons hd (.cons hs (.cons h2 (.cons h0 (.cons h0 .nil)))))) rfl
      (fun h => absurd h (by decide)) rfl rfl hdst hsrc
  case h_26 =>
    exact exists_word hK
      (.cons hv (.cons hd (.cons hs (.cons ha (.cons h0 (.cons h0 .nil)))))) rfl
      (fun h => absurd h (by decide)) rfl rfl hdst hsrc
  case h_29 =>
    exact exists_word hK (.cons hv (.cons hs (.cons h0 .nil))) rfl
      (fun h => absurd h (by decide)) rfl rfl hdst hsrc
  -- constants
  case h_27 =>
    have hval : py.parseVal constants (decimalText (randint 1 100 n)) = .ok (randint 1 100 n) :=
      value_number ((randint_mem (by decide) n).2.trans_lt (by decide))
    exact exists_word hK (.cons hv (.cons hd (.cons hval .nil))) rfl
      (fun h => absurd h (by decide)) rfl rfl hdst hsrc
  case h_28 => exact encode_loadConstFloat hpy hK hdst

end Runtime

end ImpulseTools

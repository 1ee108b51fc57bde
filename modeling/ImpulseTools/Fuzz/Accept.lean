import ImpulseTools.Asm.Accept
import ImpulseTools.Asm.DataBlocks
import ImpulseTools.Fuzz.Assemble

/-! # Generated programs are accepted

The assembler takes every text of the generator: seven words for the preamble, one for each
emission, and the word of `OP_HALT`.
-/

namespace ImpulseTools

namespace Runtime

variable {py : Runtime} {env : Env}

theorem hexPc_head (pc : ℕ) : (hexPc pc).head? ∉ [none, some '.'] := by
  simp [hexPc, chars]

/-- A word that stands alone, of the given mnemonic and with one of the registers. -/
structure PlainWord (op : Op) (w : Instruction) : Prop where
  opcode : w.opcode = op.code
  extended : w.extended = false
  dst_lt : w.dstReg.toNat < 64

/-- A line the generator printed with an address, and the word the assembler makes of it. -/
structure Written (py : Runtime) (env : Env) (pc : ℕ) (line : Text) (op : Op) (args : List Text)
    (w : Instruction) : Prop where
  line_eq : ∃ blanks, ArgsOk blanks args ∧ line = formatLine (hexPc pc) op blanks args
  encode_eq : py.encode env op (op.name :: args) = .ok [w]
  plain : PlainWord op w
  register : ∀ a ∈ args, a.startsWith ['R'] → ∃ r < 64, a = regText r

section

variable {pc : ℕ} {line : Text} {op : Op} {args : List Text} {w : Instruction}

theorem Written.strip_eq (h : Written py env pc line op args w) : line.strip = line := by
  obtain ⟨blanks, hargs, rfl⟩ := h.line_eq
  exact strip_formatLine (fun c hc => isTokenChar_hexPc hc)
    (fun hn => hexPc_head pc (by simp [hn])) hargs

theorem Written.instructionLine_eq (h : Written py env pc line op args w) :
    py.instructionLine line = some (op.name, op.name :: args) := by
  obtain ⟨blanks, hargs, hline⟩ := h.line_eq
  rw [← h.strip_eq, hline]
  exact py.instructionLine_formatLine (fun c hc => isTokenChar_hexPc hc) (hexPc_head pc) hargs

theorem Written.adds (h : Written py env pc line op args w) : py.Adds env line [w] := by
  obtain ⟨blanks, hargs, rfl⟩ := h.line_eq
  exact adds_formatLine (fun c hc => isTokenChar_hexPc hc) (hexPc_head pc) hargs h.encode_eq

theorem plainWord_ofInts {f q : ℤ} {r : ℕ} (hf : f = 0 ∨ f = 1) (hr : r < 64) :
    PlainWord op (.ofInts op.code f r q) := by
  refine ⟨rfl, ?_, ?_⟩
  · rcases hf with rfl | rfl
    · exact (rfl : BitVec.getLsbD (0 : BitVec 8) 7 = false)
    · exact (rfl : BitVec.getLsbD (1 : BitVec 8) 7 = false)
  · rw [Instruction.ofInts_dstReg, BitVec.ofInt_natCast, BitVec.toNat_ofNat]
    omega

theorem WordFields.plain {dst src : ℕ} (h : WordFields op dst src w) (hdst : dst < 64)
    (hsrc : src < 64) : PlainWord op w := by
  refine ⟨h.opcode, ?_, ?_⟩
  · rw [Instruction.extended, h.flags]
    split <;> rfl
  · rw [h.dst]
    split <;> assumption

end

def Straight (py : Runtime) (env : Env) (l : Text × ℕ) (w : Instruction) : Prop :=
  ∃ op args, Written py env l.2 l.1 op args w ∧ op ≠ .halt ∧ op.transfersControl = false

theorem written_emission {table : List Contract} {pc : ℕ} {s : RegState} {e : Emission} {op : Op}
    {args : List Text} (hpy : py.ReadsCents) (hK : env.constants = constants)
    (h : Emits table pc s e op args) :
    ∃ w, Written py env pc e.line op args w ∧ WordFields op e.dst e.src w := by
  obtain ⟨aux1, n, haux, hargs⟩ := h.operands
  have hdst : e.dst < 64 := h.dst_mem.2.trans_lt (by decide)
  obtain ⟨w, hw, hf⟩ := encode_operands hpy hK hargs hdst h.src_lt haux
  refine ⟨w, ⟨?_, hw, hf.plain hdst h.src_lt, ?_⟩, hf⟩
  · exact ⟨_, argsOk_formatOperands hargs (Nat.succ_ne_zero _), h.line_eq⟩
  · intro a ha hR
    have hnum {t : Text} (ht : 'R' ∉ t) : ¬ t.startsWith ['R'] :=
      not_startsWith_of_mem List.mem_cons_self ht
    rcases mem_formatOperands hargs ha with ⟨r, hr, rfl⟩ | ⟨k, rfl⟩ | ⟨k, rfl⟩
    · have hall : ∀ r ∈ [e.dst, e.src, aux1], r < 64 := by
        simp only [List.forall_mem_cons]
        exact ⟨hdst, h.src_lt, haux, fun _ h => absurd h List.not_mem_nil⟩
      exact ⟨r, hall r hr, rfl⟩
    · refine absurd hR (hnum fun hc => ?_)
      exact absurd (isDigit_of_mem_decimalText hc) (by decide)
    · refine absurd hR (hnum fun hc => ?_)
      exact absurd (mem_centText hc) (by decide)

theorem adds_fuel (hK : env.constants = constants) :
    py.Adds env (chars ".fuel 5000") [] := by
  have hs : ';' ∉ Text.strip (chars ".fuel 5000") := by decide
  have hf : Text.startsWith (Text.strip (chars ".fuel 5000")) (chars ".fuel") := by decide
  have hw : (Text.words (Text.strip (chars ".fuel 5000")))[1]? = some (decimalText 5000) := by
    decide +kernel
  have hv : py.parseVal constants (decimalText 5000) = .ok (5000 : ℕ) :=
    py.parseVal_decimalText (by decide)
  intro p
  refine ⟨{ p with expectations := { p.expectations with fuel := some 5000 } }, ?_,
    (List.append_nil _).symm⟩
  simp only [parseLine, expectLine_of_nil (findIter_expectAt hs), bind, Except.bind, if_pos hf,
    fuelLine, hw, hK, hv, pure, Except.pure]
  rfl

theorem strip_header (seed : ℤ) :
    (chars "; CONTRACT-GUIDED FUZZ TEST (Seed: " ++ intText seed ++ chars ")").strip =
      chars "; CONTRACT-GUIDED FUZZ TEST (Seed: " ++ intText seed ++ chars ")" := by
  apply Scan.trim_eq_self
  · intro c hc
    obtain rfl : ';' = c := Option.some.inj hc
    decide
  · intro c hc
    rw [List.getLast?_append_of_ne_nil _ (by decide)] at hc
    obtain rfl : ')' = c := Option.some.inj hc
    decide

theorem adds_header (seed : ℤ) : py.Adds env
    (chars "; CONTRACT-GUIDED FUZZ TEST (Seed: " ++ intText seed ++ chars ")") [] := by
  have hrest : ';' ∉ chars " CONTRACT-GUIDED FUZZ TEST (Seed: " ++ intText seed ++ chars ")" := by
    intro hc
    rcases List.mem_append.mp hc with hc | hc
    · rcases List.mem_append.mp hc with hc | hc
      · exact absurd hc (by decide)
      · rcases mem_intText hc with hc | hc
        · exact absurd hc (by decide)
        · exact absurd hc (by decide)
    · exact absurd hc (by decide)
  refine adds_none (fun e => ⟨e, expectLine_of_nil ?_⟩) ?_ ?_
  · rw [strip_header]
    exact (Scan.findIter_cons_of_none rfl).trans (findIter_expectAt hrest)
  · rw [strip_header]
    intro h
    cases h
  · rw [strip_header]
    exact if_pos (.inr (.inl rfl))

theorem adds_status : py.Adds env (chars "; \x7bEXPECT: STATUS = IMPULSE_VM_OK\x7d") [] := by
  have hfind : (Scan.findIter expectAt
      (Text.strip (chars "; \x7bEXPECT: STATUS = IMPULSE_VM_OK\x7d"))).head?.bind keyValue =
      some (chars "STATUS", chars "IMPULSE_VM_OK") := by decide +kernel
  refine adds_none (fun e => ⟨{ e with status := chars "IMPULSE_VM_OK" }, ?_⟩) (by decide)
    (if_pos (.inr (.inl (by decide))))
  rw [expectLine, hfind]
  rfl

def Counted (syms : Symbols) : Prop := ∀ name s, syms.lookup name = some s → ∃ n, s.cnt = .num n

theorem encode_load {op : Op} {r : ℕ} {sym : Text} (hK : env.constants = constants)
    (hsyms : Counted env.symbols) (hr : r < 64) (hx : extendable op = false)
    (hb : branch op [op.name, regText r, sym] = .inlineLoad) :
    ∃ w, py.encode env op [op.name, regText r, sym] = .ok [w] ∧ PlainWord op w := by
  obtain ⟨v, hv⟩ : ∃ v, namedPayload env sym.strip = .ok v := by
    unfold namedPayload
    cases hl : env.symbols.lookup sym.strip with
    | none => exact ⟨0, rfl⟩
    | some s =>
      obtain ⟨n, hn⟩ := hsyms _ s hl
      exact ⟨s.off.lor (n * 2 ^ 16), by simp only [symbolPayload, hn]⟩
  have hd : py.tokVal env.constants [op.name, regText r, sym] (some 1) 0 = .ok (r : ℤ) := by
    rw [hK]
    exact value_register hr
  obtain ⟨o, ho, hdst, hflags⟩ : ∃ o, py.operands env op [op.name, regText r, sym] = .ok o ∧
      o.dst = r ∧ (o.flags = 0 ∨ o.flags = 1) := by
    rw [operands, hb]
    refine ⟨⟨r, v, if op = .loadInlineIntArray ∨
      (op = .loadInlineArray ∧ sym.strip ∈ env.intSymbols) then 1 else 0⟩, ?_, rfl, ?_⟩
    · simp only [evalInlineLoad, hd, bind, Except.bind, List.getElem?_cons_succ,
        List.getElem?_cons_zero, hv, pure, Except.pure]
    · dsimp only
      split
      · exact .inr rfl
      · exact .inl rfl
  rw [encode, ho]
  obtain ⟨he, -⟩ | ⟨-, he⟩ := emit_cases op o
  · rw [hx] at he
    cases he
  · exact ⟨_, congrArg Except.ok he, hdst ▸ plainWord_ofInts hflags hr⟩

theorem straight_line (line : Text) (op : Op) (pc blanks : ℕ) (args : List Text)
    (hline : formatLine (hexPc pc) op blanks args = line)
    (hop : op ≠ .halt ∧ op.transfersControl = false)
    (hargs : args ≠ [] ∧ blanks ≠ 0 ∧ ∀ a ∈ args, a ≠ [] ∧ (∀ c ∈ a, isTokenChar c) ∧
      (a.startsWith ['R'] → ∃ r < 64, a = regText r))
    (h : ∃ w, py.encode env op (op.name :: args) = .ok [w] ∧ PlainWord op w) :
    ∃ w, Straight py env (line, pc) w := by
  obtain ⟨w, hw, hplain⟩ := h
  obtain ⟨hne, hb, htok⟩ := hargs
  have hok : ArgsOk blanks args :=
    ⟨fun hn => absurd hn hne, fun _ => hb, fun a ha => ⟨(htok a ha).1, (htok a ha).2.1⟩⟩
  exact ⟨w, op, args, ⟨⟨blanks, hok, hline.symm⟩, hw, hplain, fun a ha => (htok a ha).2.2⟩, hop⟩

theorem straight_preamble (hpy : py.ReadsCents) (hK : env.constants = constants)
    (hsyms : Counted env.symbols) : ∀ l ∈ ((preamble 0).drop 15).zipIdx,
      ∃ w, Straight py env l w := by
  have henc {op : Op} {dst n : ℕ} {args : List Text} (hdst : dst < 64)
      (h : formatOperands op dst 0 0 n = some args) :
      ∃ w, py.encode env op (op.name :: args) = .ok [w] ∧ PlainWord op w := by
    obtain ⟨w, hw, hf⟩ := encode_operands hpy hK h hdst (by decide) (by decide)
    exact ⟨w, hw, hf.plain hdst (by decide)⟩
  have hinput {op : Op} (dst : ℕ) {toks : List Text} (hdst : dst < 64)
      (h : ∃ w, py.encode env op toks = .ok [w] ∧ WordFields op dst 0 w) :
      ∃ w, py.encode env op toks = .ok [w] ∧ PlainWord op w := by
    obtain ⟨w, hw, hf⟩ := h
    exact ⟨w, hw, hf.plain hdst (by decide)⟩
  have h3 : py.parseVal constants (regText 3) = .ok (3 : ℕ) := value_register (by decide)
  have h4 : py.parseVal constants (regText 4) = .ok (4 : ℕ) := value_register (by decide)
  have h0 : py.parseVal constants (chars "0") = .ok (0 : ℕ) := value_number (n := 0) (by decide)
  obtain ⟨v, hv⟩ : ∃ v, py.parseVal constants Op.initInputNode.name = .ok v := value_name _
  obtain ⟨v', hv'⟩ : ∃ v, py.parseVal constants Op.initInputSet.name = .ok v := value_name _
  simp only [preamble, List.drop_succ_cons, List.drop_zero, List.zipIdx_cons, List.zipIdx_nil,
    List.forall_mem_cons]
  refine ⟨?_, ?_, ?_, ?_, ?_, ?_, ?_, fun _ h => absurd h List.not_mem_nil⟩
  · exact straight_line _ .initMockGraph 0 9 [regText 0, chars "FUZZ_GRAPH"] (by decide +kernel)
      (by decide) (by decide +kernel) (encode_load hK hsyms (by decide) rfl rfl)
  · exact straight_line _ .loadConstInt 1 10 [regText 1, chars "42"] (by decide +kernel)
      (by decide) (by decide +kernel) (henc (n := 41) (by decide) rfl)
  · exact straight_line _ .loadConstFloat 2 8 [regText 2, chars "3.5"] (by decide +kernel)
      (by decide) (by decide +kernel) (henc (n := 340) (by decide) rfl)
  · exact straight_line _ .initInputNode 3 9 [regText 3, chars "0"] (by decide +kernel)
      (by decide) (by decide +kernel) (hinput 3 (by decide) (exists_word hK
        (.cons hv (.cons h3 (.cons h0 .nil))) rfl (fun h => absurd h (by decide)) rfl rfl
        (by decide) (by decide)))
  · exact straight_line _ .initInputSet 4 10 [regText 4] (by decide +kernel)
      (by decide) (by decide +kernel) (hinput 4 (by decide) (exists_word hK
        (.cons hv' (.cons h4 .nil)) rfl (fun h => absurd h (by decide)) rfl rfl (by decide)
        (by decide)))
  · exact straight_line _ .loadInlineArray 5 7 [regText 5, chars "ATTR_FLOAT"] (by decide +kernel)
      (by decide) (by decide +kernel) (encode_load hK hsyms (by decide) rfl rfl)
  · exact straight_line _ .loadInlineIntArray 6 3 [regText 6, chars "ATTR_INT"] (by decide +kernel)
      (by decide) (by decide +kernel) (encode_load hK hsyms (by decide) rfl rfl)

theorem adds_head (hK : env.constants = constants) (seed : ℤ) :
    ∃ wss, List.Forall₂ (py.Adds env) ((preamble seed).take 15) wss ∧ wss.flatten = [] := by
  refine ⟨List.replicate 15 [], ?_, rfl⟩
  refine .cons (adds_header seed) (.cons adds_status (.cons (adds_fuel hK) ?_))
  refine .cons (adds_directive (by decide) (by decide) (by decide)) ?_
  refine .cons (adds_directive (by decide) (by decide) (by decide)) ?_
  refine .cons (adds_directive (by decide) (by decide) (by decide)) ?_
  -- the rows of the graph and the brace after them
  refine .cons (adds_row (t := chars "[1") (by decide) (by decide) (by decide +kernel)
    (by decide) (by decide)) ?_
  refine .cons (adds_row (t := chars "[2") (by decide) (by decide) (by decide +kernel)
    (by decide) (by decide)) ?_
  refine .cons (adds_row (t := chars "[3]") (by decide) (by decide) (by decide +kernel)
    (by decide) (by decide)) ?_
  refine .cons (adds_row (t := chars "[]") (by decide) (by decide) (by decide +kernel)
    (by decide) (by decide)) ?_
  refine .cons (adds_row (t := chars "\x7d") (by decide) (by decide) (by decide +kernel)
    (by decide) (by decide)) ?_
  refine .cons (adds_directive (by decide) (by decide) (by decide)) ?_
  refine .cons (adds_directive (by decide) (by decide) (by decide)) ?_
  refine .cons (adds_directive (by decide) (by decide) (by decide)) ?_
  exact .cons (adds_directive (by decide) (by decide) (by decide)) .nil

theorem written_halt (hK : env.constants = constants) (pc : ℕ) :
    Written py env pc (formatLine (hexPc pc) .halt 0 []) .halt [] (.ofInts Op.halt.code 0 0 0) := by
  obtain ⟨v, hv⟩ : ∃ v, py.parseVal constants Op.halt.name = .ok v := value_name _
  have hb : branch .halt [Op.halt.name] = .form { dst := none, whole := some 1 } := rfl
  have hw : py.encode env .halt [Op.halt.name] = .ok [.ofInts Op.halt.code 0 0 0] :=
    encode_values hK (.cons hv .nil) hb fun h => absurd h (by decide)
  refine ⟨⟨0, ⟨fun _ => rfl, fun h => absurd rfl h, nofun⟩, rfl⟩, hw, ?_, nofun⟩
  exact plainWord_ofInts (r := 0) (.inl rfl) (by decide)

end Runtime

end ImpulseTools

import ImpulseTools.Asm.Run
import ImpulseTools.Lib.Split

/-! # Lines the tools write

What every runtime makes of ASCII text: decimal numbers, registers, mnemonics, and
instruction lines put together from them.
-/

namespace ImpulseTools

theorem toNat_of_isDigit {c : Char} (h : c.isDigit) : 48 ≤ c.toNat ∧ c.toNat ≤ 57 := by
  simp only [Char.isDigit, Bool.and_eq_true, decide_eq_true_eq, ge_iff_le,
    UInt32.le_iff_toNat_le] at h
  exact h

theorem mem_of_isDigit {c : Char} (h : c.isDigit) : c ∈ chars "0123456789" := by
  have hall : ∀ n < 58, 48 ≤ n → Char.ofNat n ∈ chars "0123456789" := by decide
  obtain ⟨hlo, hhi⟩ := toNat_of_isDigit h
  rw [← Char.ofNat_toNat c]
  exact hall _ (by omega) hlo

theorem isSpace_of_isDigit {c : Char} (h : c.isDigit) : isSpace c = false := by
  by_contra hs
  have := isAlphanum_not_space (Bool.not_eq_false _ ▸ hs)
  simp [Char.isAlphanum, h] at this

theorem isDigit_of_mem_decimalText {n : ℕ} {c : Char} (hc : c ∈ decimalText n) : c.isDigit :=
  Nat.isDigit_of_mem_toDigits (b := 10) (n := n) (by decide) (by decide) hc

theorem not_startsWith_of_mem {t p : Text} {c : Char} (hc : c ∈ p) (ht : c ∉ t) :
    ¬ t.startsWith p := by
  intro h
  obtain ⟨r, hr⟩ := Option.isSome_iff_exists.mp h
  rw [Scan.lit_eq_some.mp hr] at ht
  exact ht (List.mem_append_left _ hc)

namespace Runtime

variable (py : Runtime)

theorem digitRun_of_isDigit {t : Text} (ht : ∀ c ∈ t, c.isDigit) {b : Bool} (hb : b ∨ t ≠ []) :
    digitRun py.decimal b t = some (t.map fun c => c.toNat - '0'.toNat) := by
  induction t generalizing b with
  | nil =>
    obtain rfl : b = true := hb.resolve_right fun h => h rfl
    rfl
  | cons c t ih =>
    obtain ⟨hc, ht⟩ := List.forall_mem_cons.mp ht
    have hu : (c == '_') = false := by
      rw [beq_eq_false_iff_ne]
      rintro rfl
      exact absurd hc (by decide)
    have hlt : c.toNat < 128 := by
      have := toNat_of_isDigit hc
      omega
    rw [digitRun, hu, Bool.and_false, if_neg Bool.false_ne_true, py.decimal_ascii c hlt,
      if_pos hc, ih ht (.inl rfl)]
    rfl

theorem int_decimalText_eq (n : ℕ) : py.int (decimalText n) =
    if maxStrDigits < (decimalText n).length then .error (.tooManyDigits (decimalText n).length)
    else .ok n := by
  have hd : ∀ c ∈ decimalText n, c.isDigit := fun c hc => isDigit_of_mem_decimalText hc
  have hv : digitsValue 10 ((decimalText n).map fun c => c.toNat - '0'.toNat) = n := by
    rw [digitsValue, List.foldl_map, ← Nat.ofDigitChars_eq_foldl]
    exact Nat.ofDigitChars_ten_toDigits
  have hs : signed (decimalText n) = (1, decimalText n) := by
    unfold signed
    split
    · rename_i h
      exact absurd (hd '+' (h ▸ List.mem_cons_self)) (by decide)
    · rename_i h
      exact absurd (hd '-' (h ▸ List.mem_cons_self)) (by decide)
    · rfl
  have htrim : Scan.trim intSpace (decimalText n) = decimalText n :=
    Scan.trim_of_forall fun c hc => by rw [intSpace, isSpace_of_isDigit (hd c hc), Bool.false_and]
  unfold int
  rw [htrim, hs]
  dsimp only
  rw [digitRun_of_isDigit py hd (.inr Nat.toDigits_ne_nil)]
  dsimp only
  rw [List.length_map, hv, one_mul]

theorem int_decimalText {n : ℕ} (hn : (decimalText n).length ≤ maxStrDigits) :
    py.int (decimalText n) = .ok n := by
  rw [int_decimalText_eq, if_neg (Nat.not_lt.mpr hn)]

theorem upperText_of_forall {t : Text} (h : ∀ c ∈ t, c.toNat < 128 ∧ c.toUpper = c) :
    py.upperText t = t := by
  induction t with
  | nil => rfl
  | cons c t ih =>
    obtain ⟨⟨hlt, hup⟩, ht⟩ := List.forall_mem_cons.mp h
    rw [upperText, List.flatMap_cons, py.upper_ascii c hlt, hup, ← upperText, ih ht]
    rfl

theorem lowerText_of_forall {t : Text} (h : ∀ c ∈ t, c.toNat < 128 ∧ c.toLower = c) :
    py.lowerText t = t := by
  induction t with
  | nil => rfl
  | cons c t ih =>
    obtain ⟨⟨hlt, hlow⟩, ht⟩ := List.forall_mem_cons.mp h
    rw [lowerText, List.flatMap_cons, py.lower_ascii c hlt, hlow, ← lowerText, ih ht]
    rfl

theorem upperText_name (op : Op) : py.upperText op.name = op.name := by
  have h : ∀ o ∈ Op.opcodes ++ Op.opcodeAliases, ∀ c ∈ o.name, c.toNat < 128 ∧ c.toUpper = c := by
    decide +kernel
  exact py.upperText_of_forall (h op (Op.mem_names op))

/-- The constants of the module are not named like numbers, registers or mnemonics. -/
theorem lookup_constants {t : Text} (h : t.head? ∉ [some 'S', some 'B']) :
    constants.lookup t = none := by
  rw [constants, AList.lookup_to_alist, List.dlookup_eq_none]
  intro ht
  have hk : ∀ k ∈ constants.keys, k.head? ∈ [some 'S', some 'B'] := by decide
  exact h (hk t ht)

theorem parseVal_decimalText {n : ℕ} (hn : (decimalText n).length ≤ maxStrDigits) :
    py.parseVal constants (decimalText n) = .ok n := by
  have hne : ∀ c : Char, c.isDigit = false → c ∉ decimalText n := by
    intro c hc hmem
    rw [isDigit_of_mem_decimalText hmem] at hc
    exact Bool.false_ne_true hc.symm
  have hlookup : constants.lookup (decimalText n) = none := by
    refine lookup_constants fun h => ?_
    simp only [List.mem_cons, List.not_mem_nil, or_false] at h
    rcases h with h | h
    · exact hne 'S' (by decide) (List.mem_of_mem_head? h)
    · exact hne 'B' (by decide) (List.mem_of_mem_head? h)
  rw [parseVal, hlookup]
  dsimp only
  rw [if_neg (not_startsWith_of_mem (c := 'x') (by decide) (hne _ (by decide))),
    if_neg (not_startsWith_of_mem (c := 'R') (by decide) (hne _ (by decide))),
    py.int_decimalText hn]

theorem parseVal_register {n : ℕ} (hn : (decimalText n).length ≤ maxStrDigits) :
    py.parseVal constants ('R' :: decimalText n) = .ok n := by
  rw [parseVal, lookup_constants (by simp)]
  dsimp only
  rw [if_neg (by simp [Text.startsWith, chars, Scan.lit]),
    if_pos (by simp [Text.startsWith, chars, Scan.lit])]
  exact py.int_decimalText hn

end Runtime

def formatLine (addr : Text) (op : Op) (blanks : ℕ) (args : List Text) : Text :=
  addr ++ chars ": " ++ (op.name ++ (List.replicate blanks ' ' ++ (chars ", ").intercalate args))

def isTokenChar (c : Char) : Bool := !isSpace c && c != ',' && c != ':' && c != ';'

structure Token (t : Text) : Prop where
  ne_nil : t ≠ []
  isTokenChar : ∀ c ∈ t, isTokenChar c

/-- The operands of a written line are tokens, set off by blanks if there are any. -/
structure ArgsOk (blanks : ℕ) (args : List Text) : Prop where
  blanks_eq : args = [] → blanks = 0
  blanks_pos : args ≠ [] → blanks ≠ 0
  token : ∀ a ∈ args, Token a

theorem ArgsOk.ne_nil {blanks : ℕ} {args : List Text} (h : ArgsOk blanks args) :
    ∀ a ∈ args, a ≠ [] := fun a ha => (h.token a ha).ne_nil

theorem isSpace_of_isTokenChar {c : Char} (h : isTokenChar c) : isSpace c = false := by
  simp only [isTokenChar, Bool.and_eq_true, Bool.not_eq_true'] at h
  exact h.1.1.1

theorem sep_of_isTokenChar {c : Char} (h : isTokenChar c) : (isSpace c || c == ',') = false := by
  have hs := isSpace_of_isTokenChar h
  simp only [isTokenChar, Bool.and_eq_true, bne_iff_ne] at h
  simpa [hs] using h.1.1.2

theorem token_name (op : Op) : Token op.name := by
  have h : ∀ o ∈ Op.opcodes ++ Op.opcodeAliases, o.name ≠ [] ∧ ∀ c ∈ o.name, isTokenChar c := by
    decide +kernel
  obtain ⟨hne, hc⟩ := h op (Op.mem_names op)
  exact ⟨hne, hc⟩

theorem isTokenChar_of_isDigit {c : Char} (h : c.isDigit) : isTokenChar c := by
  have hne : ∀ d : Char, d.isDigit = false → (c != d) = true := by
    intro d hd
    rw [bne_iff_ne]
    rintro rfl
    rw [h] at hd
    exact Bool.false_ne_true hd.symm
  simp [isTokenChar, isSpace_of_isDigit h, hne ',' (by decide), hne ':' (by decide),
    hne ';' (by decide)]

theorem token_decimalText (n : ℕ) : Token (decimalText n) :=
  ⟨Nat.toDigits_ne_nil, fun _ hc => isTokenChar_of_isDigit (isDigit_of_mem_decimalText hc)⟩

theorem Token.append {s t : Text} (hs : ∀ c ∈ s, ImpulseTools.isTokenChar c) (ht : Token t) :
    Token (s ++ t) := by
  refine ⟨fun h => ht.ne_nil (List.append_eq_nil_iff.mp h).2, fun c hc => ?_⟩
  rcases List.mem_append.mp hc with hc | hc
  · exact hs c hc
  · exact ht.isTokenChar c hc

theorem startsWith_name (op : Op) : op.name.startsWith (chars "OP_") := by
  have h : ∀ o ∈ Op.opcodes ++ Op.opcodeAliases, o.name.startsWith (chars "OP_") := by
    decide +kernel
  exact h op (Op.mem_names op)

section

variable {addr : Text} {op : Op} {blanks : ℕ} {args : List Text}

def codeText (op : Op) (blanks : ℕ) (args : List Text) : Text :=
  op.name ++ (List.replicate blanks ' ' ++ (chars ", ").intercalate args)

theorem mem_codeText (h : ArgsOk blanks args) {c : Char} (hc : c ∈ codeText op blanks args) :
    isTokenChar c ∨ c = ' ' ∨ c = ',' := by
  rcases List.mem_append.mp hc with hc | hc
  · exact .inl ((token_name op).isTokenChar c hc)
  rcases List.mem_append.mp hc with hc | hc
  · exact .inr (.inl (List.eq_of_mem_replicate hc))
  rcases Scan.mem_intercalate hc with ⟨a, ha, hca⟩ | hc
  · exact .inl ((h.token a ha).isTokenChar c hca)
  · right
    simpa [chars, or_comm] using hc

theorem codeText_ne_nil : codeText op blanks args ≠ [] := by
  simp [codeText, (token_name op).ne_nil]

theorem getLast?_codeText (h : ArgsOk blanks args) {c : Char}
    (hc : c ∈ (codeText op blanks args).getLast?) : isSpace c = false := by
  unfold codeText at hc
  by_cases ha : args = []
  · rw [h.blanks_eq ha, ha] at hc
    simp only [List.replicate_zero, List.intercalate_nil, List.append_nil] at hc
    exact isSpace_of_isTokenChar ((token_name op).isTokenChar c (List.mem_of_mem_getLast? hc))
  · have hne : (chars ", ").intercalate args ≠ [] := by
      obtain ⟨a, args, rfl⟩ := List.exists_cons_of_ne_nil ha
      have hane := h.ne_nil a List.mem_cons_self
      cases args <;> simp [List.intercalate_cons_cons, hane]
    rw [← List.append_assoc, List.getLast?_append_of_ne_nil _ hne] at hc
    obtain ⟨a, ha, hca⟩ := Scan.getLast?_intercalate h.ne_nil hc
    exact isSpace_of_isTokenChar ((h.token a ha).isTokenChar c hca)

theorem strip_codeText (h : ArgsOk blanks args) :
    Text.strip (codeText op blanks args) = codeText op blanks args := by
  refine Scan.trim_eq_self (fun c hc => ?_) fun c hc => getLast?_codeText h hc
  rw [codeText, List.head?_append_of_ne_nil _ (token_name op).ne_nil] at hc
  exact isSpace_of_isTokenChar ((token_name op).isTokenChar c (List.mem_of_mem_head? hc))

theorem splitRuns_codeText (h : ArgsOk blanks args) :
    Scan.splitRuns (fun c => isSpace c || c == ',') (codeText op blanks args) =
      op.name :: args := by
  have hname : ∀ c ∈ op.name, (isSpace c || c == ',') = false := fun c hc =>
    sep_of_isTokenChar ((token_name op).isTokenChar c hc)
  unfold codeText
  by_cases ha : args = []
  · rw [h.blanks_eq ha, ha]
    simpa using Scan.splitRuns_of_forall hname
  · have hjoin := Scan.splitRuns_intercalate (p := fun c => isSpace c || c == ',')
      (s := chars ", ") (by decide) (by decide) h.ne_nil
      (fun a ha c hc => sep_of_isTokenChar ((h.token a ha).isTokenChar c hc)) ha
    rw [Scan.splitRuns_append hname, hjoin]
    · intro c hc
      rw [List.eq_of_mem_replicate hc]
      decide
    · exact fun hn => h.blanks_pos ha (by simpa using hn)
    · intro c hc
      obtain ⟨a, ha, hca⟩ := Scan.head?_intercalate h.ne_nil hc
      exact sep_of_isTokenChar ((h.token a ha).isTokenChar c hca)

theorem formatLine_eq : formatLine addr op blanks args =
    addr ++ ':' :: ' ' :: codeText op blanks args := by
  rw [formatLine, List.append_assoc]
  rfl

theorem mem_formatLine (haddr : ∀ c ∈ addr, isTokenChar c) (h : ArgsOk blanks args) {c : Char}
    (hc : c ∈ formatLine addr op blanks args) : isTokenChar c ∨ c ∈ chars ": ," := by
  rw [formatLine_eq] at hc
  rcases List.mem_append.mp hc with hc | hc
  · exact .inl (haddr c hc)
  rcases List.mem_cons.mp hc with rfl | hc
  · exact .inr (by decide)
  rcases List.mem_cons.mp hc with rfl | hc
  · exact .inr (by decide)
  rcases mem_codeText h hc with hc | rfl | rfl
  · exact .inl hc
  · exact .inr (by decide)
  · exact .inr (by decide)

theorem not_mem_formatLine (haddr : ∀ c ∈ addr, isTokenChar c) (h : ArgsOk blanks args) {c : Char}
    (ht : ¬ isTokenChar c) (hc : c ∉ chars ": ,") : c ∉ formatLine addr op blanks args := by
  intro hmem
  rcases mem_formatLine haddr h hmem with h | h
  · exact ht h
  · exact hc h

theorem strip_formatLine (haddr : ∀ c ∈ addr, isTokenChar c) (hne : addr ≠ [])
    (h : ArgsOk blanks args) :
    (formatLine addr op blanks args).strip = formatLine addr op blanks args := by
  rw [formatLine_eq]
  refine Scan.trim_eq_self (fun c hc => ?_) fun c hc => ?_
  · rw [List.head?_append_of_ne_nil _ hne] at hc
    exact isSpace_of_isTokenChar (haddr c (List.mem_of_mem_head? hc))
  · rw [List.getLast?_append_of_ne_nil _ (List.cons_ne_nil _ _), List.getLast?_cons_cons,
      List.getLast?_cons_of_ne_nil codeText_ne_nil] at hc
    exact getLast?_codeText h hc

theorem codePart_formatLine (haddr : ∀ c ∈ addr, isTokenChar c) (hne : addr ≠ [])
    (h : ArgsOk blanks args) :
    Text.strip ((formatLine addr op blanks args).takeWhile (· ≠ ';')) =
        formatLine addr op blanks args ∧
      codePart (formatLine addr op blanks args) = codeText op blanks args := by
  have htake : (formatLine addr op blanks args).takeWhile (· ≠ ';') =
      formatLine addr op blanks args := by
    rw [List.takeWhile_eq_self_iff]
    intro c hc
    rw [decide_eq_true_iff]
    rintro rfl
    exact not_mem_formatLine haddr h (by decide) (by decide) hc
  have hstrip : Text.strip (' ' :: codeText op blanks args) = codeText op blanks args :=
    (Scan.trim_append (p := isSpace) (s := [' ']) (by decide)).trans (strip_codeText h)
  refine ⟨by rw [htake, strip_formatLine haddr hne h], ?_⟩
  unfold codePart
  rw [htake, strip_formatLine haddr hne h, formatLine_eq, Scan.cut_append]
  · exact hstrip
  · intro hc
    exact absurd (haddr ':' hc) (by decide)

theorem Runtime.instructionLine_formatLine (py : Runtime) (haddr : ∀ c ∈ addr, isTokenChar c)
    (hdot : addr.head? ∉ [none, some '.']) (h : ArgsOk blanks args) :
    py.instructionLine (formatLine addr op blanks args).strip =
      some (op.name, op.name :: args) := by
  have hne : addr ≠ [] := fun hn => hdot (by simp [hn])
  obtain ⟨htake, hcode⟩ := codePart_formatLine haddr hne h
  have hline : formatLine addr op blanks args ≠ [] := by simp [formatLine_eq]
  rw [strip_formatLine haddr hne h]
  unfold Runtime.instructionLine
  rw [if_neg, htake, if_neg hline, hcode, splitRuns_codeText h]
  · simp only [List.headD_cons, py.upperText_name, if_pos (startsWith_name op)]
  · obtain ⟨c, addr, rfl⟩ := List.exists_cons_of_ne_nil hne
    have hsemi : c ≠ ';' := by
      rintro rfl
      exact absurd (haddr ';' List.mem_cons_self) (by decide)
    have hdot : c ≠ '.' := by simpa using hdot
    rintro (hn | hn | hn)
    · exact hline hn
    · simp [Text.startsWith, formatLine_eq, Scan.lit, Ne.symm hsemi] at hn
    · simp [Text.startsWith, formatLine_eq, Scan.lit, Ne.symm hdot] at hn

end

end ImpulseTools

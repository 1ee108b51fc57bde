import ImpulseTools.Asm.Tokens

/-! # What becomes of each line

A line whose first token is a mnemonic contributes words, a directive that one of the five
expressions finds contributes to the tables or the data, and a `.fuel` line with a value sets the
fuel. Every other line is passed over.
-/

namespace ImpulseTools

/-- The searches of `parse_impas_file` over the whole text. -/
inductive Pass where
  | csrInline
  | arrayFloat
  | arrayInt
  | rel
  | vrel
  deriving DecidableEq

namespace Runtime

section

variable (py : Runtime)

def passAt : Pass → Scan.Matcher Char (Text × Text)
  | .csrInline => py.csrInlineAt
  | .arrayFloat => py.arrayFloatAt
  | .arrayInt => py.arrayIntAt
  | .rel => py.relAt
  | .vrel => py.vrelAt

/-- The first token of a line, after its address, in upper case. -/
def mnemonic (line : Text) : Text :=
  py.upperText ((Scan.splitRuns (fun c => isSpace c || c == ',') (codePart line)).headD [])

def HasMnemonic (line : Text) : Prop :=
  ¬ line.startsWith [';'] ∧ ¬ line.startsWith ['.'] ∧ (py.mnemonic line).startsWith (chars "OP_")

inductive LineWords (env : Env) (line : Text) : List Instruction → Prop
  | instruction {l : Text × List Text} {op : Op} {o : Operands} (hm : py.HasMnemonic line.strip)
      (hl : py.instructionLine line.strip = some l) (hop : Op.ofName? l.1 = some op)
      (ho : py.LineReads env op l.2 o) : LineWords env line (emit op o)
  | passed (hm : ¬ py.HasMnemonic line.strip) : LineWords env line []

def Contributes (env : Env) (blocks : List Block) (name body : Text) : Pass → Prop
  | .csrInline => name ∈ env.symbols ∧ ∃ b ∈ blocks, py.Describes (.csrInline name body) b
  | .arrayFloat => name ∈ env.symbols ∧ ∃ b ∈ blocks, py.Describes (.arrayFloat name body) b
  | .arrayInt => name ∈ env.symbols ∧ ∃ b ∈ blocks, py.Describes (.arrayInt name body) b
  | .rel | .vrel => name ∈ env.symbols ∧ name ∈ env.constants

def fuelToken (line : Text) : Option Text :=
  if line.startsWith (chars ".fuel") then line.words[1]? else none

end

variable {py : Runtime} {K K' : Constants} {text : Text} {p p' : Program} {env : Env}

theorem mnemonic_of_strip_eq_nil {line : Text} (h : Text.strip (line.takeWhile (· ≠ ';')) = []) :
    py.mnemonic line = [] := by
  have hcode : codePart line = [] := by
    unfold codePart
    rw [h]
    rfl
  rw [mnemonic, hcode]
  rfl

theorem instructionLine_isSome {line : Text} :
    (py.instructionLine line).isSome ↔ py.HasMnemonic line := by
  have hblank (h : Text.strip (line.takeWhile (· ≠ ';')) = []) : ¬ py.HasMnemonic line := by
    rintro ⟨-, -, hop⟩
    rw [mnemonic_of_strip_eq_nil h] at hop
    cases hop
  unfold instructionLine
  split
  · rename_i hline
    refine iff_of_false Bool.false_ne_true fun hm => ?_
    rcases hline with rfl | hline | hline
    · exact hblank rfl hm
    · exact hm.1 hline
    · exact hm.2.1 hline
  · rename_i hline
    rw [not_or, not_or] at hline
    split
    · exact iff_of_false Bool.false_ne_true (hblank ‹_›)
    · dsimp only
      split
      · exact iff_of_true rfl ⟨hline.2.1, hline.2.2, ‹_›⟩
      · exact iff_of_false Bool.false_ne_true fun hm => ‹¬ _› hm.2.2

theorem lineWords_of_parseLine {line : Text} (h : py.parseLine env p line = .ok p') :
    ∃ u, py.LineWords env line u ∧ p'.instructions = p.instructions ++ u := by
  obtain ⟨-, ⟨hl, hi, -⟩ | ⟨l, op, ws, hl, hop, hws, hi, -⟩⟩ := parseLine_cases h
  · refine ⟨[], .passed ?_, hi.trans (List.append_nil _).symm⟩
    rw [← instructionLine_isSome, hl]
    exact Bool.false_ne_true
  · obtain ⟨o, ho, rfl⟩ := encode_eq_ok.mp hws
    have hm : py.HasMnemonic line.strip := instructionLine_isSome.mp (by rw [hl]; rfl)
    exact ⟨_, .instruction hm hl hop (operands_eq_ok_iff.mp ho), hi⟩

theorem foldlM_lineWords {lines : List Text} {data : List Byte}
    (h : lines.foldlM (py.parseLine env) { data := data } = .ok p) :
    ∃ units, List.Forall₂ (py.LineWords env) lines units ∧ p.instructions = units.flatten := by
  refine ExceptFold.foldlM_induction (P := fun lines (p : Program) => ∃ units,
    List.Forall₂ (py.LineWords env) lines units ∧ p.instructions = units.flatten)
    ⟨[], .nil, rfl⟩ ?_ h
  rintro lines line p p' ⟨units, hu, hp⟩ hstep
  obtain ⟨u, hl, hi⟩ := lineWords_of_parseLine hstep
  refine ⟨units ++ [u], List.rel_append hu (.cons hl .nil), ?_⟩
  rw [hi, hp, List.flatten_append, List.flatten_singleton]

theorem passAt_nil (pass : Pass) : py.passAt pass [] = none := by
  cases pass <;> rfl

theorem contributes {blocks : List Block} (ht : py.Tables K text env)
    (hb : List.Forall₂ py.Describes (py.directives text.universalNewlines) blocks)
    {pass : Pass} {name body : Text}
    (h : (name, body) ∈ Scan.findIter (py.passAt pass) text.universalNewlines) :
    py.Contributes env blocks name body pass := by
  have hblock (dir : Directive) (hdir : dir ∈ py.directives text.universalNewlines) :
      dir.name ∈ env.symbols ∧ ∃ b ∈ blocks, py.Describes dir b :=
    ⟨(ht.mem_symbols _).mpr (.inl ⟨dir, hdir, rfl⟩), ExceptFold.exists_of_mem_left hb hdir⟩
  have hbound (hn : name ∈ py.boundNames text) : name ∈ env.symbols ∧ name ∈ env.constants :=
    ⟨(ht.mem_symbols _).mpr (.inr hn), (ht.mem_constants _).mpr (.inr hn)⟩
  cases pass with
  | csrInline =>
    apply hblock (.csrInline name body)
    exact List.mem_append_left _ (List.mem_append_left _ (List.mem_map.mpr ⟨_, h, rfl⟩))
  | arrayFloat =>
    apply hblock (.arrayFloat name body)
    exact List.mem_append_left _ (List.mem_append_right _ (List.mem_map.mpr ⟨_, h, rfl⟩))
  | arrayInt =>
    apply hblock (.arrayInt name body)
    exact List.mem_append_right _ (List.mem_map.mpr ⟨_, h, rfl⟩)
  | rel =>
    apply hbound
    exact List.mem_append_left _ (List.mem_map.mpr ⟨_, h, rfl⟩)
  | vrel =>
    apply hbound
    exact List.mem_append_right _ (List.mem_map.mpr ⟨_, h, rfl⟩)

/-- If the program returns a record, its fuel is that of `e`. -/
def KeepsFuel (e : Expectations) (x : Except PyErr Expectations) : Prop :=
  ∀ e', x = .ok e' → e'.fuel = e.fuel

theorem keepsFuel_ok {e e' : Expectations} (h : e'.fuel = e.fuel) : KeepsFuel e (.ok e') := by
  intro e'' he
  cases he
  exact h

theorem KeepsFuel.ite {e : Expectations} {c : Prop} [Decidable c]
    {x y : Except PyErr Expectations} (hx : KeepsFuel e x) (hy : KeepsFuel e y) :
    KeepsFuel e (if c then x else y) := by
  split
  · exact hx
  · exact hy

theorem KeepsFuel.bind {e : Expectations} {x : Except PyErr ℤ} {f : ℤ → Except PyErr Expectations}
    (h : ∀ v, KeepsFuel e (f v)) : KeepsFuel e (x >>= f) := by
  intro e' he
  obtain ⟨v, -, he⟩ := ExceptFold.bind_eq_ok.mp he
  exact h v e' he

theorem record_fuel (e : Expectations) (key val : Text) : KeepsFuel e (py.record e key val) := by
  have hset (f : ℤ → Expectations) (hf : ∀ v, (f v).fuel = e.fuel) :
      KeepsFuel e (do return f (← py.int val)) :=
    .bind fun v => keepsFuel_ok (hf v)
  unfold record
  refine .ite (keepsFuel_ok rfl) (.ite ?_ (.ite (hset _ fun _ => rfl) (.ite (hset _ fun _ => rfl)
    (.ite (hset _ fun _ => rfl) (.ite (hset _ fun _ => rfl) (.ite (hset _ fun _ => rfl)
      (.ite ?_ (keepsFuel_ok rfl))))))))
  · exact .bind fun _ => .bind fun _ => keepsFuel_ok rfl
  · exact .ite (keepsFuel_ok rfl) (.ite (keepsFuel_ok rfl) (.ite (keepsFuel_ok rfl)
      (.ite (keepsFuel_ok rfl) (keepsFuel_ok rfl))))

theorem expectLine_fuel {e e' : Expectations} {line : Text} (h : py.expectLine e line = .ok e') :
    e'.fuel = e.fuel := by
  unfold expectLine at h
  split at h
  · exact record_fuel _ _ _ _ h
  · cases h
    rfl

theorem parseLine_fuel {line : Text} (h : py.parseLine env p line = .ok p') :
    (∀ t, fuelToken line.strip = some t →
      ∃ v, py.parseVal env.constants t = .ok v ∧ p'.expectations.fuel = some v) ∧
    (fuelToken line.strip = none → p'.expectations.fuel = p.expectations.fuel) := by
  obtain ⟨e, he, ⟨hf, hfuel⟩ | ⟨hf, hkeep⟩⟩ := parseLine_expectations h
  · rw [fuelToken, if_pos hf]
    obtain ⟨hnone, hkeep⟩ | ⟨t, v, ht, hv, hset⟩ := fuelLine_eq_ok hfuel
    · rw [hnone, hkeep]
      refine ⟨fun t ht => ?_, fun _ => expectLine_fuel he⟩
      cases ht
    · rw [ht, hset]
      refine ⟨fun t' ht' => ?_, fun hnone => ?_⟩
      · obtain rfl := Option.some.inj ht'
        exact ⟨v, hv, rfl⟩
      · cases hnone
  · rw [fuelToken, if_neg hf, hkeep]
    refine ⟨fun t ht => ?_, fun _ => expectLine_fuel he⟩
    cases ht

theorem foldlM_no_fuel {lines : List Text} (h : lines.foldlM (py.parseLine env) p = .ok p')
    (hlines : ∀ line ∈ lines, fuelToken line.strip = none) :
    p'.expectations.fuel = p.expectations.fuel := by
  induction lines generalizing p with
  | nil =>
    cases h
    rfl
  | cons line lines ih =>
    obtain ⟨hline, hlines⟩ := List.forall_mem_cons.mp hlines
    rw [List.foldlM_cons, ExceptFold.bind_eq_ok] at h
    obtain ⟨p₁, h₁, h⟩ := h
    exact (ih h hlines).trans ((parseLine_fuel h₁).2 hline)

/-- The value of the last `.fuel` line that has one stays. -/
theorem foldlM_fuel {lines : List Text} (h : lines.foldlM (py.parseLine env) p = .ok p') {k : ℕ}
    {line t : Text} (hk : lines[k]? = some line) (ht : fuelToken line.strip = some t) :
    ∃ v, py.parseVal env.constants t = .ok v ∧
      ((∀ line' ∈ lines.drop (k + 1), fuelToken line'.strip = none) →
        p'.expectations.fuel = some v) := by
  obtain ⟨p₀, p₁, hline, -, hrest⟩ := ExceptFold.foldlM_around h hk
  obtain ⟨v, hv, hp₁⟩ := (parseLine_fuel hline).1 t ht
  refine ⟨v, hv, fun hlast => ?_⟩
  rw [← hp₁]
  exact foldlM_no_fuel hrest hlast

/-- No line that an accepted file has is lost, but for lines without a mnemonic, directives that
no expression finds, and `.fuel` lines without a value. -/
theorem parseImpasFile_lines (h : py.parseImpasFile K text = (.ok p, K')) :
    ∃ env units blocks, env.constants = K' ∧ py.Tables K text env ∧
      p.instructions = units.flatten ∧
      List.Forall₂ (py.LineWords env) text.universalNewlines.readlines units ∧
      p.data = (blocks.map (·.content.bytes)).flatten ∧
      List.Forall₂ py.Describes (py.directives text.universalNewlines) blocks ∧
      (∀ pass pre s name body rest, text.universalNewlines = pre ++ s →
        py.passAt pass s = some ((name, body), rest) →
          py.Contributes env blocks name body pass ∨ Scan.Inside (py.passAt pass) pre s) ∧
      ∀ k line t, text.universalNewlines.readlines[k]? = some line →
        fuelToken line.strip = some t →
          ∃ v, py.parseVal K' t = .ok v ∧
            ((∀ line' ∈ text.universalNewlines.readlines.drop (k + 1),
              fuelToken line'.strip = none) → p.expectations.fuel = some v) := by
  obtain ⟨d, s₁, K₁, s₂, hd, hr, hv, hp⟩ := parseImpasFile_eq_ok.mp h
  obtain ⟨units, hu, hi⟩ := foldlM_lineWords hp
  obtain ⟨_, ha⟩ := foldlM_parseLine hp
  obtain ⟨blocks, hblocks⟩ := tiled_dataSection hd
  have ht := tables_of_passes hd hr hv
  refine ⟨_, units, blocks, rfl, ht, hi, hu, ha.data_eq.trans hblocks.bytes_eq,
    hblocks.describes, ?_, fun k line t hk => foldlM_fuel hp hk⟩
  intro pass pre s name body rest htext hs
  have hne : s ≠ [] := by
    rintro rfl
    rw [passAt_nil] at hs
    cases hs
  refine (Scan.mem_findIter_or_inside hne hs).imp (fun hm => ?_) id
  rw [← htext] at hm
  exact contributes ht hblocks.describes hm

def everyKind : Text :=
  chars ".data\n.set s = [5]\n.rel KNOWS = 1\n.fuel 9\n.text\n0x00: OP_CSR_WALK R1, R0, KNOWS"

theorem parseImpasFile_lines_walk :
    ∃ p K', Runtime.ascii.parseImpasFile constants everyKind = (.ok p, K') ∧
      ∃ env, ∃ units : List (List Instruction), Runtime.ascii.Tables constants everyKind env ∧
        p.instructions = units.flatten ∧ units.length = 6 := by
  obtain ⟨p, hp⟩ := exists_program Runtime.ascii constants everyKind (by decide +kernel)
  obtain ⟨env, units, -, -, ht, hi, hu, -⟩ := parseImpasFile_lines hp
  exact ⟨p, _, hp, env, units, ht, hi, hu.length_eq.symm.trans (by decide +kernel)⟩

/-- A directive that no expression finds and a line without a colon after its address leave no
trace. -/
theorem lines_vanish :
    (Runtime.ascii.parseImpasFile constants
        (chars ".data\n.max_dop 1\n.text\n0x00 OP_NOP")).1.toOption.map
          (fun p => (p.instructions, p.data, p.expectations.maxDop, p.expectations.fuel)) =
        some ([], [], none, none) ∧
      (Runtime.ascii.parseImpasFile constants
        (chars ".data\n.max_dop 1\n.text\n0x00 OP_NOP")).2.entries = constants.entries := by
  constructor <;> decide +kernel

end Runtime

end ImpulseTools

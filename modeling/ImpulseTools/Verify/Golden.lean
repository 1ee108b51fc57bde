import ImpulseTools.Asm.Spell
import ImpulseTools.Verify.Verdict

/-! # Test files that pin a run down

A file can be written for any instructions and any outcome on which the suite passes the outcomes
that look the same to it, and no others.
-/

namespace ImpulseTools

/-- The line `; {EXPECT: key = val}`. -/
def noteLine (key val : Text) : Text :=
  chars "; \x7bEXPECT: " ++ (key ++ (chars " = " ++ (val ++ ['}'])))

/-- A text that can stand on either side of the equation. -/
structure NoteText (t : Text) : Prop where
  ne_nil : t ≠ []
  plain : ∀ c ∈ t, isSpace c = false ∧ c ∉ ['=', '}', '.']

theorem NoteText.strip {t : Text} (h : NoteText t) : Text.strip t = t :=
  Scan.trim_of_forall fun c hc => (h.plain c hc).1

theorem NoteText.not_mem {t : Text} (h : NoteText t) {c : Char} (hc : c ∈ ['=', '}', '.']) :
    c ∉ t :=
  fun ht => (h.plain c ht).2 hc

theorem NoteText.not_mem_space {t : Text} (h : NoteText t) {c : Char} (hc : isSpace c) : c ∉ t :=
  fun ht => Bool.false_ne_true ((h.plain c ht).1.symm.trans hc)

theorem NoteText.append {s t : Text} (hs : NoteText s) (ht : NoteText t) : NoteText (s ++ t) where
  ne_nil h := hs.ne_nil (List.append_eq_nil_iff.mp h).1
  plain := List.forall_mem_append.mpr ⟨hs.plain, ht.plain⟩

theorem noteText_decimal (n : ℕ) : NoteText (decimalText n) where
  ne_nil := Nat.toDigits_ne_nil
  plain c hc := by
    have hd : c.isDigit := isDigit_of_mem_decimalText hc
    refine ⟨isSpace_of_isDigit hd, fun h => ?_⟩
    have hnot : ∀ d ∈ ['=', '}', '.'], d.isDigit = false := by decide
    exact Bool.false_ne_true ((hnot c h).symm.trans hd)

variable {key val : Text}

theorem mem_noteLine (hk : NoteText key) (hv : NoteText val) {c : Char}
    (hc : c ∈ ['\n', '\r', '.']) : c ∉ noteLine key val := by
  have hall : ∀ d ∈ ['\n', '\r', '.'], d ∉ key ∧ d ∉ val ∧
      d ∉ chars "; \x7bEXPECT: " ∧ d ∉ chars " = " ∧ d ≠ '}' := by
    simp only [List.forall_mem_cons]
    refine ⟨⟨hk.not_mem_space rfl, hv.not_mem_space rfl, by decide, by decide, by decide⟩,
      ⟨hk.not_mem_space rfl, hv.not_mem_space rfl, by decide, by decide, by decide⟩,
      ⟨hk.not_mem (by decide), hv.not_mem (by decide), by decide, by decide, by decide⟩,
      fun _ h => absurd h List.not_mem_nil⟩
  obtain ⟨h1, h2, h3, h4, h5⟩ := hall c hc
  simp only [noteLine, List.mem_append, List.mem_singleton, not_or]
  exact ⟨h3, h1, h4, h2, h5⟩

theorem strip_noteLine (key val : Text) :
    Text.strip (noteLine key val ++ ['\n']) = noteLine key val := by
  have hconcat : Text.strip (noteLine key val ++ ['\n']) = (noteLine key val).strip :=
    Scan.trim_concat (by decide)
  rw [hconcat]
  apply Scan.trim_eq_self
  · intro c hc
    obtain rfl := Option.some.inj hc
    rfl
  · intro c hc
    rw [noteLine, ← List.append_assoc, ← List.append_assoc, ← List.append_assoc,
      List.getLast?_concat] at hc
    obtain rfl := Option.some.inj hc
    rfl

theorem findIter_noteLine (hk : NoteText key) (hv : NoteText val) :
    Scan.findIter expectAt (noteLine key val) = [' ' :: (key ++ (chars " = " ++ val))] := by
  have hbody : ∀ c ∈ ' ' :: (key ++ (chars " = " ++ val)), decide (c ≠ '}') = true := by
    intro c hc
    rw [decide_eq_true_eq]
    rintro rfl
    rcases List.mem_cons.mp hc with h | h
    · cases h
    rcases List.mem_append.mp h with h | h
    · exact hk.not_mem (by decide) h
    rcases List.mem_append.mp h with h | h
    · exact absurd h (by decide)
    · exact hv.not_mem (by decide) h
  have hline : noteLine key val = [';'] ++ (' ' :: (chars "\x7bEXPECT:" ++
      (' ' :: (key ++ (chars " = " ++ val)) ++ ['}']))) := by
    simp [noteLine, chars]
  have hlit (q t : Text) : Scan.lit q (q ++ t) = some t := Scan.lit_eq_some.mpr rfl
  have hm : expectAt (noteLine key val ++ []) =
      some (' ' :: (key ++ (chars " = " ++ val)), []) := by
    obtain ⟨htake, hdrop⟩ := Scan.takeWhile_append_stop (t := []) (c := '}') hbody (by decide)
    have hskip (t : Text) : (' ' :: (chars "\x7bEXPECT:" ++ t)).dropWhile isSpace =
        chars "\x7bEXPECT:" ++ t := rfl
    have hend : Scan.lit ['}'] ['}'] = some ([] : Text) := rfl
    rw [List.append_nil, hline, expectAt, hlit]
    simp only [Option.bind_eq_bind, Option.bind_some, hskip, hlit, htake, hdrop, hend]
    rfl
  have := Scan.findIter_append_of_match (by rw [hline]; exact List.cons_ne_nil _ _) hm
  rwa [List.append_nil] at this

theorem keyValue_note (hk : NoteText key) (hv : NoteText val) :
    keyValue (' ' :: (key ++ (chars " = " ++ val))) = some (key, val) := by
  have hstrip : Text.strip (' ' :: (key ++ (chars " = " ++ val))) =
      key ++ (chars " = " ++ val) := by
    have htrim : Text.strip ([' '] ++ (key ++ (chars " = " ++ val))) =
        Text.strip (key ++ (chars " = " ++ val)) := Scan.trim_append (by decide)
    refine htrim.trans (Scan.trim_eq_self ?_ ?_)
    · intro c hc
      rw [List.head?_append_of_ne_nil _ hk.ne_nil] at hc
      exact (hk.plain c (List.mem_of_mem_head? hc)).1
    · intro c hc
      rw [← List.append_assoc, List.getLast?_append_of_ne_nil _ hv.ne_nil] at hc
      exact (hv.plain c (List.mem_of_mem_getLast? hc)).1
  have hcut : Scan.cut '=' (key ++ (chars " = " ++ val)) =
      (key ++ [' '], some (' ' :: val)) := by
    have hsplit : key ++ (chars " = " ++ val) = (key ++ [' ']) ++ '=' :: (' ' :: val) := by
      simp [chars]
    rw [hsplit, Scan.cut_append]
    rw [List.mem_append, not_or]
    exact ⟨hk.not_mem (by decide), by decide⟩
  have hkey : Text.strip (key ++ [' ']) = key := (Scan.trim_concat (by decide)).trans hk.strip
  have hval : Text.strip (' ' :: val) = val := by
    have htrim : Text.strip ([' '] ++ val) = Text.strip val := Scan.trim_append (by decide)
    exact htrim.trans hv.strip
  rw [keyValue, hstrip, hcut]
  simp only [hkey, hval]

/-- An annotation, and the expectation it is recorded as whatever the runtime. -/
structure Note where
  key : Text
  val : Text
  target : Target
  value : Value
  key_text : NoteText key
  val_text : NoteText val
  record_ok : ∀ (py : Runtime) (e : Expectations), ∃ e', py.record e key val = .ok e'
  assignment_eq : ∀ py : Runtime,
    (py.keyCondition key val).bind Condition.assignment = some (target, value)

def Note.text (n : Note) : Text := noteLine n.key n.val

theorem Note.adds (n : Note) (py : Runtime) (env : Env) : py.Adds env (n.text ++ ['\n']) [] := by
  have hstrip : Text.strip (n.text ++ ['\n']) = n.text := strip_noteLine _ _
  apply Runtime.adds_none
  · intro e
    obtain ⟨e', he⟩ := n.record_ok py e
    refine ⟨e', ?_⟩
    rw [hstrip, Note.text, Runtime.expectLine, findIter_noteLine n.key_text n.val_text,
      List.head?_cons, Option.bind_some, keyValue_note n.key_text n.val_text]
    exact he
  · rw [hstrip]
    exact Bool.false_ne_true
  · rw [hstrip]
    exact if_pos (.inr (.inl rfl))

theorem Note.lineAssignment_eq (n : Note) (py : Runtime) :
    py.lineAssignment (Scan.findIter expectAt (Text.strip (n.text ++ ['\n']))) =
      some (n.target, n.value) := by
  have hstrip : Text.strip (n.text ++ ['\n']) = n.text := strip_noteLine _ _
  rw [hstrip, Note.text, findIter_noteLine n.key_text n.val_text, Runtime.lineAssignment,
    List.head?_cons, Option.bind_some, Runtime.condition, keyValue_note n.key_text n.val_text]
  exact n.assignment_eq py

def goldenText (notes : List Note) (ls : List Line) : Text :=
  unlines (notes.map Note.text ++ ls.map Line.text)

section

variable {py : Runtime} {notes : List Note} {ls : List Line}

theorem not_mem_goldenText {c : Char} (hc : c ∈ ['\r', '.']) : c ∉ goldenText notes ls := by
  have hnote : c ∈ ['\n', '\r', '.'] := List.mem_cons_of_mem _ hc
  have hline : c ≠ '\n' ∧ ∀ l : Line, c ∉ l.text := by
    rcases List.mem_pair.mp hc with rfl | rfl
    · exact ⟨by decide, fun l => l.not_mem_text (by decide) (by decide)⟩
    · exact ⟨by decide, Line.dot_not_mem⟩
  refine not_mem_unlines hline.1 (List.forall_mem_append.mpr ⟨?_, ?_⟩)
  · exact List.forall_mem_map.mpr fun n _ => mem_noteLine n.key_text n.val_text hnote
  · exact List.forall_mem_map.mpr fun l _ => hline.2 l

theorem readlines_goldenText : (goldenText notes ls).readlines =
    (notes.map fun n => n.text ++ ['\n']) ++ ls.map fun l => l.text ++ ['\n'] := by
  rw [goldenText, readlines_unlines, List.map_append, List.map_map, List.map_map]
  · rfl
  · refine List.forall_mem_append.mpr ⟨?_, ?_⟩
    · exact List.forall_mem_map.mpr fun n _ => mem_noteLine n.key_text n.val_text (by decide)
    · exact List.forall_mem_map.mpr fun l _ => l.not_mem_text (by decide) (by decide)

theorem parseImpasFile_goldenText (py : Runtime) (notes : List Note) (ls : List Line) :
    ∃ p, py.parseImpasFile constants (goldenText notes ls) = (.ok p, constants) ∧
      p.instructions = (ls.map Line.words).flatten := by
  have hadds : List.Forall₂ (py.Adds ⟨constants, ∅, ∅⟩) (goldenText notes ls).readlines
      (notes.map (fun _ => []) ++ ls.map Line.words) := by
    rw [readlines_goldenText]
    apply List.rel_append
    · rw [List.forall₂_map_left_iff, List.forall₂_map_right_iff, List.forall₂_same]
      exact fun n _ => n.adds py _
    · rw [List.forall₂_map_left_iff, List.forall₂_map_right_iff, List.forall₂_same]
      exact fun l _ => l.adds py rfl
  obtain ⟨p, hp, hi⟩ := Runtime.foldlM_adds hadds { data := [] }
  have hnil : (notes.map fun _ => ([] : List Instruction)).flatten = [] := by
    rw [List.flatten_eq_nil_iff]
    exact List.forall_mem_map.mpr fun _ _ => rfl
  refine ⟨p, ?_, ?_⟩
  · rw [Runtime.parseImpasFile_of_not_mem (not_mem_goldenText (by decide))
      (not_mem_goldenText (by decide)), hp]
  · rw [hi, List.flatten_append, hnil]
    rfl

theorem foldl_keep_iff {get : Target → Option Value} {ws : List (Target × Value)} {t : Target}
    {v : Value} (h : (ws.map Prod.fst).Nodup) : (ws.map some).foldl keep get t = some v ↔
      (t, v) ∈ ws ∨ t ∉ ws.map Prod.fst ∧ get t = some v := by
  induction ws generalizing get with
  | nil => simp
  | cons w ws ih =>
    obtain ⟨t', v'⟩ := w
    rw [List.map_cons, List.nodup_cons] at h
    rw [List.map_cons, List.foldl_cons, ih h.2, keep, List.mem_cons, List.map_cons,
      List.mem_cons, Prod.mk.injEq]
    by_cases ht : t = t'
    · subst ht
      have hnot : (t, v) ∉ ws := fun hmem => h.1 (List.mem_map.mpr ⟨_, hmem, rfl⟩)
      rw [Function.update_self, Option.some.injEq]
      simp [hnot, h.1, eq_comm]
    · rw [Function.update_of_ne ht]
      simp [ht]

theorem kept_goldenText (hn : (notes.map Note.target).Nodup) {t : Target} {v : Value} :
    py.kept (goldenText notes ls) t = some v ↔ (∃ n ∈ notes, (n.target, n.value) = (t, v)) ∨
      t ∉ notes.map Note.target ∧ Expectations.get {} t = some v := by
  have hnotes : (notes.map fun n => n.text ++ ['\n']).map
      (fun line => py.lineAssignment (Scan.findIter expectAt (Text.strip line))) =
        (notes.map fun n => (n.target, n.value)).map some := by
    rw [List.map_map, List.map_map]
    exact List.map_congr_left fun n _ => n.lineAssignment_eq py
  have hlines : (ls.map fun l => l.text ++ ['\n']).map
      (fun line => py.lineAssignment (Scan.findIter expectAt (Text.strip line))) =
        List.replicate ls.length none := by
    rw [List.eq_replicate_iff, List.length_map, List.length_map]
    refine ⟨rfl, List.forall_mem_map.mpr (List.forall_mem_map.mpr fun l _ => ?_)⟩
    have hnone : ';' ∉ Text.strip (l.text ++ ['\n']) := by
      rw [l.strip_concat]
      exact fun h => l.not_mem_text (by decide) (by decide) (Scan.mem_of_mem_trim h)
    rw [Runtime.findIter_expectAt hnone]
    rfl
  have hnone (get : Target → Option Value) (k : ℕ) :
      (List.replicate k none).foldl keep get = get := by
    induction k with
    | zero => rfl
    | succ k ih => rw [List.replicate_succ, List.foldl_cons, keep, ih]
  have hfst : (notes.map fun n => (n.target, n.value)).map Prod.fst = notes.map Note.target := by
    rw [List.map_map]
    rfl
  have hassign : ((annotationLines (goldenText notes ls)).map py.lineAssignment) =
      (notes.map fun n => (n.target, n.value)).map some ++ List.replicate ls.length none := by
    rw [annotationLines, Text.universalNewlines_of_not_mem (not_mem_goldenText (by decide)),
      readlines_goldenText, List.map_map, List.map_append, ← hnotes, ← hlines]
    rfl
  rw [Runtime.kept, hassign, List.foldl_append, hnone, foldl_keep_iff (hfst ▸ hn), hfst,
    List.mem_map]

end

/-- The outcomes look the same to the suite. Its check of `ST` reads the flag bit 1. -/
structure LooksLike (o o' : Outcome) : Prop where
  status : o.status = o'.status
  registers : o.state.registers = o'.state.registers
  zf : o.state.flags.getLsbD 0 = o'.state.flags.getLsbD 0
  st : o.state.flags.getLsbD 1 = o'.state.flags.getLsbD 1
  pc : o.state.pc = o'.state.pc
  callStackDepth : o.state.callStackDepth = o'.state.callStackDepth

theorem passes_of_looksLike {get : Target → Option Value} {o o' : Outcome} (h : LooksLike o o')
    (hp : Passes (checks suiteCheck get) o) : Passes (checks suiteCheck get) o' := by
  rw [passes_checks] at hp ⊢
  intro t v hv c hc
  rw [← hp t v hv c hc]
  cases t with
  | status =>
    obtain rfl := Option.some.inj hc
    exact congrArg Value.text h.status.symm
  | register i =>
    obtain rfl := Option.some.inj hc
    unfold registerCheck
    cases registerIndex i with
    | none => exact congrArg Value.text h.status.symm
    | some j => simp only [Outcome.read, h.registers]
  | throwCode =>
    obtain rfl := Option.some.inj hc
    simp only [Outcome.read, h.registers]
  | flagZf =>
    obtain rfl := Option.some.inj hc
    exact congrArg Value.bit h.zf.symm
  | flagSt =>
    obtain rfl := Option.some.inj hc
    exact congrArg Value.bit h.st.symm
  | pc =>
    obtain rfl := Option.some.inj hc
    simp only [Outcome.read, h.pc]
  | callStackDepth =>
    obtain rfl := Option.some.inj hc
    simp only [Outcome.read, h.callStackDepth]
  | scratchBytes | maxDop => cases hc

theorem statusName_cases (c : ℤ) : statusName c ∈ statusNames.map Prod.snd ∨
    statusName c = chars "UNKNOWN(" ++ intText c ++ chars ")" := by
  rw [statusName]
  cases h : statusNames.lookup c with
  | none => exact .inr rfl
  | some t =>
    obtain ⟨l, l', heq, -⟩ := List.lookup_eq_some_iff.mp h
    refine .inl (List.mem_map.mpr ⟨(c, t), ?_, rfl⟩)
    rw [heq]
    exact List.mem_append_right _ List.mem_cons_self

theorem noteText_int (i : ℤ) : NoteText (intText i) := by
  rw [intText]
  split
  · exact .append (s := ['-']) ⟨List.cons_ne_nil _ _, by decide⟩ (noteText_decimal _)
  · exact noteText_decimal _

theorem noteText_statusName (c : ℤ) : NoteText (statusName c) := by
  rcases statusName_cases c with h | h
  · have hall : ∀ t ∈ statusNames.map Prod.snd, t ≠ [] ∧
        ∀ c ∈ t, isSpace c = false ∧ c ∉ ['=', '}', '.'] := by decide +kernel
    exact ⟨(hall _ h).1, (hall _ h).2⟩
  · rw [h]
    exact .append (.append ⟨by decide, by decide⟩ (noteText_int c)) ⟨by decide, by decide⟩

theorem statusOf_statusName (c : ℤ) : statusOf (statusName c) = statusName c := by
  rcases statusName_cases c with h | h
  · have hall : ∀ t ∈ statusNames.map Prod.snd, statusOf t = t := by decide +kernel
    exact hall _ h
  · rw [h]
    exact if_neg (by simp [chars])

theorem int_decimalText_word (py : Runtime) {n : ℕ} (hn : n < 2 ^ 64) :
    py.int (decimalText n) = .ok n :=
  py.int_decimalText (((Nat.length_toDigits_le_iff (k := 20) (by decide) (by decide)).mpr
    (hn.trans (by decide)) : _ ≤ 20).trans (by decide))

def statusNote (c : ℤ) : Note where
  key := chars "STATUS"
  val := statusName c
  target := .status
  value := .text (statusName c)
  key_text := ⟨by decide, by decide⟩
  val_text := noteText_statusName c
  record_ok py e := ⟨_, rfl⟩
  assignment_eq py := by
    rw [Runtime.keyCondition, if_pos rfl, statusOf_statusName]
    rfl

def flagNote (st b : Bool) : Note where
  key := chars "FLAG"
  val := (if b then [] else ['!']) ++ if st then chars "ST" else chars "ZF"
  target := if st then .flagSt else .flagZf
  value := .bit b
  key_text := ⟨by decide, by decide⟩
  val_text := by cases st <;> cases b <;> exact ⟨by decide, by decide⟩
  record_ok py e := by cases st <;> cases b <;> exact ⟨_, rfl⟩
  assignment_eq py := by cases st <;> cases b <;> rfl

def numberNote (key : Text) (target : Target) (set : Expectations → ℤ → Expectations)
    (make : ℤ → Condition) (hkey : NoteText key)
    (hrecord : ∀ (py : Runtime) e t, py.record e key t = (do return set e (← py.int t)))
    (hcond : ∀ (py : Runtime) t,
      py.keyCondition key t = (do return make (← (py.int t).toOption)))
    (hmake : ∀ v, (make v).assignment = some (target, .num v)) (n : ℕ) (hn : n < 2 ^ 64) :
    Note where
  key
  val := decimalText n
  target
  value := .num n
  key_text := hkey
  val_text := noteText_decimal n
  record_ok py e := ⟨set e n, by rw [hrecord, int_decimalText_word py hn]; rfl⟩
  assignment_eq py := by
    rw [hcond, int_decimalText_word py hn]
    exact hmake n

def pcNote (pc : BitVec 32) : Note :=
  numberNote (chars "PC") .pc (fun e v => { e with pc := some v }) .pc ⟨by decide, by decide⟩
    (fun _ _ _ => rfl) (fun _ _ => rfl) (fun _ => rfl) pc.toNat (pc.isLt.trans (by decide))

def depthNote (depth : BitVec 32) : Note :=
  numberNote (chars "CALL_STACK_DEPTH") .callStackDepth
    (fun e v => { e with callStackDepth := some v }) .callStackDepth ⟨by decide, by decide⟩
    (fun _ _ _ => rfl) (fun _ _ => rfl) (fun _ => rfl) depth.toNat (depth.isLt.trans (by decide))

theorem int_index (py : Runtime) (i : Fin 64) : py.int (decimalText i) = .ok (i : ℕ) :=
  int_decimalText_word py (i.isLt.trans (by decide))

theorem record_register (py : Runtime) (e : Expectations) (i : Fin 64) (t : Text) :
    py.record e ('R' :: decimalText i) t =
      (do return { e with registers := e.registers.insert (i : ℕ) (← py.int t) }) := by
  have hrecord : py.record e ('R' :: decimalText i) t = (do
      let reg ← py.int (decimalText i)
      let v ← py.int t
      return { e with registers := e.registers.insert reg v }) := rfl
  rw [hrecord, int_index]
  rfl

theorem keyCondition_register (py : Runtime) (i : Fin 64) (t : Text) :
    py.keyCondition ('R' :: decimalText i) t =
      (do return .register (i : ℕ) (← (py.int t).toOption)) := by
  have hcond : py.keyCondition ('R' :: decimalText i) t = (do
      return .register (← (py.int (decimalText i)).toOption) (← (py.int t).toOption)) := rfl
  rw [hcond, int_index]
  rfl

def registerNote (i : Fin 64) (v : BitVec 64) : Note :=
  numberNote ('R' :: decimalText i) (.register (i : ℕ))
    (fun e v => { e with registers := e.registers.insert (i : ℕ) v }) (.register (i : ℕ))
    (.append (s := ['R']) ⟨by decide, by decide⟩ (noteText_decimal i))
    (fun py e t => record_register py e i t) (fun py t => keyCondition_register py i t)
    (fun _ => rfl) v.toNat v.isLt

def outcomeNotes (o : Outcome) : List Note :=
  statusNote o.statusCode.toInt :: flagNote false (o.state.flags.getLsbD 0) ::
    flagNote true (o.state.flags.getLsbD 1) :: pcNote o.state.pc ::
    depthNote o.state.callStackDepth ::
    (List.finRange 64).map fun i => registerNote i (o.state.registers i)

theorem nodup_outcomeNotes (o : Outcome) : ((outcomeNotes o).map Note.target).Nodup := by
  have hregisters : ((List.finRange 64).map fun i : Fin 64 =>
      Target.register ((i : ℕ) : ℤ)).Nodup := by
    apply (List.nodup_finRange 64).map
    intro i j h
    have := Target.register.inj h
    omega
  have hmap : (outcomeNotes o).map Note.target =
      [.status, .flagZf, .flagSt, .pc, .callStackDepth] ++
        (List.finRange 64).map fun i : Fin 64 => Target.register ((i : ℕ) : ℤ) := by
    rw [outcomeNotes]
    simp only [List.map_cons, List.map_map]
    rfl
  rw [hmap, List.nodup_append]
  refine ⟨by decide, hregisters, ?_⟩
  intro t ht t' ht' heq
  obtain ⟨i, -, rfl⟩ := List.mem_map.mp ht'
  subst heq
  simp at ht

theorem passes_goldenText {py : Runtime} {ls : List Line} {o o' : Outcome} :
    Passes (checks suiteCheck (py.kept (goldenText (outcomeNotes o) ls))) o' ↔ LooksLike o o' := by
  have hnotes (o' : Outcome) :
      Passes (checks suiteCheck (py.kept (goldenText (outcomeNotes o) ls))) o' ↔
        ∀ n ∈ outcomeNotes o, ∀ c, suiteCheck n.target n.value = some c → o'.read c.1 = c.2 := by
    rw [passes_checks]
    simp only [kept_goldenText (nodup_outcomeNotes o)]
    constructor
    · exact fun h n hn => h _ _ (.inl ⟨n, hn, rfl⟩)
    · rintro h t v (⟨n, hn, heq⟩ | ⟨hnot, hget⟩)
      · obtain ⟨rfl, rfl⟩ := Prod.mk.inj heq
        exact h n hn
      · cases t with
        | status => exact absurd List.mem_cons_self hnot
        | _ => cases hget
  have hregister (i : Fin 64) (v : Value) :
      suiteCheck (.register ((i : ℕ) : ℤ)) v = some (.register i, v) := by
    rw [suiteCheck, registerCheck, registerIndex_natCast]
  have hword {w : ℕ} {b b' : BitVec w} : Value.num b.toNat = .num b'.toNat ↔ b = b' := by
    rw [Value.num.injEq, Int.natCast_inj, BitVec.toNat_inj]
  rw [hnotes]
  simp only [outcomeNotes, List.forall_mem_cons, List.forall_mem_map]
  constructor
  · rintro ⟨hs, hzf, hst, hpc, hdepth, hregisters⟩
    exact {
      status := (Value.text.inj (hs _ rfl)).symm
      registers := by
        funext i
        exact (hword.mp (hregisters i (List.mem_finRange i) _ (hregister i _))).symm
      zf := (Value.bit.inj (hzf _ rfl)).symm
      st := (Value.bit.inj (hst _ rfl)).symm
      pc := (hword.mp (hpc _ rfl)).symm
      callStackDepth := (hword.mp (hdepth _ rfl)).symm }
  · intro h
    refine ⟨fun c hc => ?_, fun c hc => ?_, fun c hc => ?_, fun c hc => ?_, fun c hc => ?_,
      fun i _ c hc => ?_⟩
    · obtain rfl := Option.some.inj hc
      exact congrArg Value.text h.status.symm
    · obtain rfl := Option.some.inj hc
      exact congrArg Value.bit h.zf.symm
    · obtain rfl := Option.some.inj hc
      exact congrArg Value.bit h.st.symm
    · obtain rfl := Option.some.inj hc
      exact hword.mpr h.pc.symm
    · obtain rfl := Option.some.inj hc
      exact hword.mpr h.callStackDepth.symm
    · obtain rfl := Option.some.inj ((hregister i _).symm.trans hc)
      exact hword.mpr (congrFun h.registers i).symm

/-- The suite passes on a file with the annotations of an outcome exactly if the run looks like
that outcome. -/
theorem verdict_goldenText {py : Runtime} {ls : List Line} (hne : (ls.map Line.words).flatten ≠ [])
    (o o' : Outcome) :
    py.verdict constants (goldenText (outcomeNotes o) ls) o' = .pass ↔ LooksLike o o' := by
  obtain ⟨p, hp, hi⟩ := parseImpasFile_goldenText py (outcomeNotes o) ls
  have hruns : py.Runs constants (goldenText (outcomeNotes o) ls) :=
    ⟨p, congrArg Prod.fst hp, hi ▸ hne⟩
  rw [Runtime.verdict_eq_pass, and_iff_right hruns, passes_goldenText]

theorem writable_halt : Writable (emit .halt ⟨0, 0, 0⟩) :=
  ⟨.halt, _, ⟨0, 0, 0⟩, rfl, ⟨by decide, .inl ⟨by decide, by decide, rfl⟩⟩, rfl⟩

namespace Runtime

/-- For any words that can be written and any outcome there is a file that the suite passes on the
runs that look like the outcome, and on no others. -/
theorem verdict_pins (py : Runtime) {units : List (List Instruction)}
    (hne : units.flatten ≠ []) (hu : ∀ u ∈ units, Writable u) (o : Outcome) :
    ∃ text p, py.parseImpasFile constants text = (.ok p, constants) ∧
      p.instructions = units.flatten ∧
      ∀ o', py.verdict constants text o' = .pass ↔ LooksLike o o' := by
  obtain ⟨ls, rfl, -⟩ := exists_lines hu
  obtain ⟨p, hp, hi⟩ := parseImpasFile_goldenText py (outcomeNotes o) ls
  exact ⟨_, p, hp, hi, verdict_goldenText hne o⟩

theorem verdict_pins_gather :
    ∃ text p, Runtime.ascii.parseImpasFile constants text = (.ok p, constants) ∧
      p.instructions =
        [emit .gatherNodeAttr ⟨1, 300 * 2 ^ 16 + 2, 0⟩, emit .halt ⟨0, 0, 0⟩].flatten ∧
      ∀ o', Runtime.ascii.verdict constants text o' = .pass ↔
        LooksLike (registerOutcome 42) o' := by
  have hgather : Writable (emit .gatherNodeAttr ⟨1, 300 * 2 ^ 16 + 2, 0⟩) := by
    refine ⟨.gatherNodeAttr, _, ⟨1, 300 * 2 ^ 16 + 2, 0⟩, rfl, ?_, rfl⟩
    exact ⟨by decide, .inl ⟨by decide, by decide, by decide, by decide⟩⟩
  have hwritable : ∀ u ∈ [emit .gatherNodeAttr ⟨1, 300 * 2 ^ 16 + 2, 0⟩, emit .halt ⟨0, 0, 0⟩],
      Writable u :=
    List.forall_mem_cons.mpr ⟨hgather, List.forall_mem_singleton.mpr writable_halt⟩
  exact verdict_pins .ascii (by decide) hwritable _

/-- No file tells two outcomes apart that look alike, and some file does if they do not. -/
theorem verdict_separates (py : Runtime) (o o' : Outcome) :
    (∀ text, py.verdict constants text o = .pass → py.verdict constants text o' = .pass) ↔
      LooksLike o o' := by
  constructor
  · intro h
    have hlooks : LooksLike o o := ⟨rfl, rfl, rfl, rfl, rfl, rfl⟩
    obtain ⟨l, hl, -⟩ := exists_line writable_halt
    have hne : ([l].map Line.words).flatten ≠ [] := by
      rw [List.map_singleton, hl]
      decide
    exact (verdict_goldenText hne o o').mp (h _ ((verdict_goldenText hne o o).mpr hlooks))
  · intro h text hpass
    rw [verdict_eq_pass] at hpass ⊢
    exact ⟨hpass.1, passes_of_looksLike h hpass.2⟩

end Runtime

end ImpulseTools

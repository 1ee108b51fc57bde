import ImpulseTools.Asm.Run
import ImpulseTools.Verify.Suite

/-! # Annotations and the verdict

What the annotations of a file ask of a run, what the suite keeps of them, and the files on
which a `PASS` means that all of them are true.
-/

namespace ImpulseTools

inductive Condition where
  | status (t : Text)
  | register (i v : ℤ)
  | throwCode (v : ℤ)
  | flag (k : Fin 64) (b : Bool)
  | pc (v : ℤ)
  | callStackDepth (v : ℤ)
  | scratchBytes (v : ℤ)
  | maxDop (v : ℤ)

/-- The flags of the specification and their bits. -/
def flagBits : List (Text × Fin 64) :=
  [(chars "ZF", 0), (chars "LT", 1), (chars "GT", 2), (chars "EQ", 3), (chars "ST", 4)]

def flagCondition : Text → Option Condition
  | '!' :: name => (flagBits.lookup name).map (.flag · false)
  | name => (flagBits.lookup name).map (.flag · true)

def numberConditions : List (Text × (ℤ → Condition)) := [
  (chars "THROW_CODE", .throwCode),
  (chars "PC", .pc),
  (chars "CALL_STACK_DEPTH", .callStackDepth),
  (chars "SCRATCH_BYTES", .scratchBytes),
  (chars "MAX_DOP", .maxDop)]

namespace Condition

/-- The check of a condition; register values are compared modulo `2 ^ 64`. -/
def check : Condition → Check
  | status t => (.status, .text t)
  | register i v =>
    if h : 0 ≤ i ∧ i < 64 then (.register ⟨i.toNat, toNat_lt_of_mem h⟩, .num (v % 2 ^ 64))
    else never
  | throwCode v => (.register 0, .num (v % 2 ^ 64))
  | flag k b => (.flag k, .bit b)
  | pc v => (.pc, .num v)
  | callStackDepth v => (.callStackDepth, .num v)
  | scratchBytes v => (.scratchBytes, .num v)
  | maxDop v => (.maxDop, .num v)

def assignment : Condition → Option (Target × Value)
  | status t => some (.status, .text t)
  | register i v => some (.register i, .num v)
  | throwCode v => some (.throwCode, .num v)
  | flag k b =>
    if k = 0 then some (.flagZf, .bit b) else if k = 4 then some (.flagSt, .bit b) else none
  | pc v => some (.pc, .num v)
  | callStackDepth v => some (.callStackDepth, .num v)
  | scratchBytes v => some (.scratchBytes, .num v)
  | maxDop v => some (.maxDop, .num v)

end Condition

/-- A later expectation replaces an earlier one of the same target. -/
def keep (get : Target → Option Value) : Option (Target × Value) → Target → Option Value
  | some (t, v) => Function.update get t (some v)
  | none => get

section

variable (e : Expectations)

theorem get_status (t : Text) :
    Expectations.get { e with status := t } = keep e.get (some (.status, .text t)) := by
  ext1 target
  cases target <;> simp [keep, Expectations.get]

theorem get_throwCode (v : ℤ) :
    Expectations.get { e with throwCode := some v } = keep e.get (some (.throwCode, .num v)) := by
  ext1 target
  cases target <;> simp [keep, Expectations.get]

theorem get_flagZf (b : Bool) :
    Expectations.get { e with flagZf := some b } = keep e.get (some (.flagZf, .bit b)) := by
  ext1 target
  cases target <;> simp [keep, Expectations.get]

theorem get_flagSt (b : Bool) :
    Expectations.get { e with flagSt := some b } = keep e.get (some (.flagSt, .bit b)) := by
  ext1 target
  cases target <;> simp [keep, Expectations.get]

theorem get_pc (v : ℤ) :
    Expectations.get { e with pc := some v } = keep e.get (some (.pc, .num v)) := by
  ext1 target
  cases target <;> simp [keep, Expectations.get]

theorem get_callStackDepth (v : ℤ) :
    Expectations.get { e with callStackDepth := some v } =
      keep e.get (some (.callStackDepth, .num v)) := by
  ext1 target
  cases target <;> simp [keep, Expectations.get]

theorem get_scratchBytes (v : ℤ) :
    Expectations.get { e with scratchBytes := some v } =
      keep e.get (some (.scratchBytes, .num v)) := by
  ext1 target
  cases target <;> simp [keep, Expectations.get]

theorem get_maxDop (v : ℤ) :
    Expectations.get { e with maxDop := some v } = keep e.get (some (.maxDop, .num v)) := by
  ext1 target
  cases target <;> simp [keep, Expectations.get]

theorem get_register (i v : ℤ) :
    Expectations.get { e with registers := e.registers.insert i v } =
      keep e.get (some (.register i, .num v)) := by
  ext1 target
  cases target with
  | register j =>
    by_cases hj : j = i
    · subst hj
      simp [keep, Expectations.get]
    · simp [keep, Expectations.get, AList.lookup_insert_ne hj, hj]
  | _ => simp [keep, Expectations.get]

end

def annotationLines (text : Text) : List (List Text) :=
  text.universalNewlines.readlines.map fun line => Scan.findIter expectAt line.strip

inductive Verdict where
  | pass
  | fail
  | skip
  deriving DecidableEq

namespace Runtime

variable (py : Runtime)

def keyCondition (key val : Text) : Option Condition :=
  if key = chars "STATUS" then some (.status (statusOf val))
  else if key = chars "FLAG" then flagCondition val
  else if key.startsWith (chars "R") then do
    return .register (← (py.int (key.drop 1)).toOption) (← (py.int val).toOption)
  else do
    let condition ← numberConditions.lookup key
    return condition (← (py.int val).toOption)

def condition (body : Text) : Option Condition :=
  (keyValue body).bind fun kv => py.keyCondition kv.1 kv.2

/-- The check an annotation asks for; nothing satisfies one without a condition. -/
def asks (body : Text) : Check :=
  match py.condition body with
  | some c => c.check
  | none => never

/-- The checks the annotations of a file ask for. The status is `OK` if they ask for none. -/
def required (text : Text) : Set Check :=
  {c | (∃ a ∈ (annotationLines text).flatten, c = py.asks a) ∨
    c = (.status, .text (chars "IMPULSE_VM_OK")) ∧
      ∀ a ∈ (annotationLines text).flatten, ∀ t, py.condition a ≠ some (.status t)}

/-- What a line sets: its first annotation is read. -/
def lineAssignment (line : List Text) : Option (Target × Value) :=
  (line.head?.bind py.condition).bind Condition.assignment

def kept (text : Text) : Target → Option Value :=
  ((annotationLines text).map py.lineAssignment).foldl keep (Expectations.get {})

/-- The verdict of `main` on a file, for a run of its instructions with the given outcome. -/
def verdict (K : Constants) (text : Text) (o : Outcome) : Verdict :=
  match (py.parseImpasFile K text).1 with
  | .error _ => .fail
  | .ok p =>
    if p.instructions = [] then .skip
    else
      match verify p.expectations o with
      | .ok [] => .pass
      | _ => .fail

def Runs (K : Constants) (text : Text) : Prop :=
  ∃ p, (py.parseImpasFile K text).1 = .ok p ∧ p.instructions ≠ []

variable {py}

theorem mem_of_lookup {α : Type} {l : List (Text × α)} {k : Text} {a : α}
    (h : l.lookup k = some a) : (k, a) ∈ l := by
  obtain ⟨_, _, rfl, -⟩ := List.lookup_eq_some_iff.mp h
  simp

theorem flagCondition_assignment {val : Text} (hz : val ≠ chars "ZF") (hnz : val ≠ chars "!ZF")
    (hst : val ≠ chars "ST") (hnst : val ≠ chars "!ST") :
    (flagCondition val).bind Condition.assignment = none := by
  have hbits : ∀ {name k}, flagBits.lookup name = some k →
      name ≠ chars "ZF" → name ≠ chars "ST" → ∀ b, (Condition.flag k b).assignment = none := by
    intro name k hk hz hst b
    have hmem := mem_of_lookup hk
    simp only [flagBits, List.mem_cons, Prod.mk.injEq, hz, hst, false_and, List.not_mem_nil,
      or_false, false_or] at hmem
    rcases hmem with ⟨-, rfl⟩ | ⟨-, rfl⟩ | ⟨-, rfl⟩ <;> rfl
  rw [Option.bind_eq_none_iff]
  intro c hc
  unfold flagCondition at hc
  split at hc
  · obtain ⟨k, hk, rfl⟩ := Option.map_eq_some_iff.mp hc
    exact hbits hk (fun h => hnz (congrArg ('!' :: ·) h)) (fun h => hnst (congrArg ('!' :: ·) h)) _
  · obtain ⟨k, hk, rfl⟩ := Option.map_eq_some_iff.mp hc
    exact hbits hk hz hst _

theorem get_of_flag {e e₁ e' : Expectations} {val name : Text} {a : Option (Target × Value)}
    (hval : val = name) (ha : (flagCondition name).bind Condition.assignment = a)
    (hget : e₁.get = keep e.get a) (h : Except.ok e₁ = (.ok e' : Except PyErr Expectations)) :
    e'.get = keep e.get ((flagCondition val).bind Condition.assignment) := by
  cases h
  rw [hget, hval, ha]

theorem record_flag {e e' : Expectations} {val : Text}
    (h : (if val = chars "ZF" then Except.ok { e with flagZf := some true }
      else if val = chars "!ZF" then .ok { e with flagZf := some false }
      else if val = chars "ST" then .ok { e with flagSt := some true }
      else if val = chars "!ST" then .ok { e with flagSt := some false }
      else .ok e : Except PyErr Expectations) = .ok e') :
    e'.get = keep e.get ((flagCondition val).bind Condition.assignment) := by
  by_cases hz : val = chars "ZF"
  · rw [if_pos hz] at h
    exact get_of_flag hz rfl (get_flagZf e true) h
  rw [if_neg hz] at h
  by_cases hnz : val = chars "!ZF"
  · rw [if_pos hnz] at h
    exact get_of_flag hnz rfl (get_flagZf e false) h
  rw [if_neg hnz] at h
  by_cases hst : val = chars "ST"
  · rw [if_pos hst] at h
    exact get_of_flag hst rfl (get_flagSt e true) h
  rw [if_neg hst] at h
  by_cases hnst : val = chars "!ST"
  · rw [if_pos hnst] at h
    exact get_of_flag hnst rfl (get_flagSt e false) h
  rw [if_neg hnst] at h
  cases h
  rw [flagCondition_assignment hz hnz hst hnst]
  rfl

theorem record_number {e e' : Expectations} {key val : Text} (make : ℤ → Condition)
    {set : ℤ → Expectations} (hs : key ≠ chars "STATUS") (hf : key ≠ chars "FLAG")
    (hr : ¬ key.startsWith (chars "R")) (hlookup : numberConditions.lookup key = some make)
    (hset : ∀ v, (set v).get = keep e.get (make v).assignment)
    (h : (do return set (← py.int val)) = Except.ok e') :
    e'.get = keep e.get ((py.keyCondition key val).bind Condition.assignment) := by
  obtain ⟨v, hv, h⟩ := ExceptFold.bind_eq_ok.mp h
  cases h
  have hc : py.keyCondition key val = some (make v) := by
    unfold keyCondition
    rw [if_neg hs, if_neg hf, if_neg hr, hlookup, hv]
    rfl
  rw [hc, hset]
  rfl

theorem record_get {e e' : Expectations} {key val : Text} (h : py.record e key val = .ok e') :
    e'.get = keep e.get ((py.keyCondition key val).bind Condition.assignment) := by
  unfold record at h
  by_cases hs : key = chars "STATUS"
  · have hc : py.keyCondition key val = some (.status (statusOf val)) := if_pos hs
    rw [if_pos hs] at h
    cases h
    rw [hc]
    exact get_status e _
  rw [if_neg hs] at h
  by_cases hr : key.startsWith (chars "R")
  · rw [if_pos hr] at h
    simp only [ExceptFold.bind_eq_ok, pure, Except.pure, Except.ok.injEq] at h
    obtain ⟨i, hi, v, hv, rfl⟩ := h
    have hf : key ≠ chars "FLAG" := by
      rintro rfl
      exact absurd hr (by decide)
    have hc : py.keyCondition key val = some (.register i v) := by
      unfold keyCondition
      rw [if_neg hs, if_neg hf, if_pos hr, hi, hv]
      rfl
    rw [hc]
    exact get_register e i v
  rw [if_neg hr] at h
  by_cases ht : key = chars "THROW_CODE"
  · rw [if_pos ht] at h
    exact record_number .throwCode hs (by rw [ht]; decide) hr (by rw [ht]; rfl) (get_throwCode e) h
  rw [if_neg ht] at h
  by_cases hp : key = chars "PC"
  · rw [if_pos hp] at h
    exact record_number .pc hs (by rw [hp]; decide) hr (by rw [hp]; rfl) (get_pc e) h
  rw [if_neg hp] at h
  by_cases hd : key = chars "CALL_STACK_DEPTH"
  · rw [if_pos hd] at h
    exact record_number .callStackDepth hs (by rw [hd]; decide) hr (by rw [hd]; rfl)
      (get_callStackDepth e) h
  rw [if_neg hd] at h
  by_cases hb : key = chars "SCRATCH_BYTES"
  · rw [if_pos hb] at h
    exact record_number .scratchBytes hs (by rw [hb]; decide) hr (by rw [hb]; rfl)
      (get_scratchBytes e) h
  rw [if_neg hb] at h
  by_cases hm : key = chars "MAX_DOP"
  · rw [if_pos hm] at h
    exact record_number .maxDop hs (by rw [hm]; decide) hr (by rw [hm]; rfl) (get_maxDop e) h
  rw [if_neg hm] at h
  by_cases hf : key = chars "FLAG"
  · have hc : py.keyCondition key val = flagCondition val := by
      unfold keyCondition
      rw [if_neg hs, if_pos hf]
    rw [if_pos hf] at h
    rw [hc]
    exact record_flag h
  · rw [if_neg hf] at h
    cases h
    have hnone : numberConditions.lookup key = none := by
      simp [numberConditions, List.lookup_eq_none_iff, ht, hp, hd, hb, hm]
    have hc : py.keyCondition key val = none := by
      unfold keyCondition
      rw [if_neg hs, if_neg hf, if_neg hr, hnone]
      rfl
    rw [hc]
    rfl

theorem expectLine_get {e e' : Expectations} {line : Text} (h : py.expectLine e line = .ok e') :
    e'.get = keep e.get (py.lineAssignment (Scan.findIter expectAt line)) := by
  unfold expectLine at h
  unfold lineAssignment
  cases hb : (Scan.findIter expectAt line).head? with
  | none =>
    rw [hb] at h
    cases h
    rfl
  | some body =>
    rw [hb, Option.bind_some] at h
    rw [Option.bind_some, condition]
    cases hkv : keyValue body with
    | none =>
      rw [hkv] at h
      cases h
      rfl
    | some kv =>
      rw [hkv] at h
      exact record_get h

theorem parseLine_get {env : Env} {p p' : Program} {line : Text}
    (h : py.parseLine env p line = .ok p') :
    p'.expectations.get =
      keep p.expectations.get (py.lineAssignment (Scan.findIter expectAt line.strip)) := by
  obtain ⟨e, he, ⟨-, hf⟩ | ⟨-, hf⟩⟩ := parseLine_expectations h
  · rw [← expectLine_get he]
    obtain ⟨-, he'⟩ | ⟨t, v, -, -, he'⟩ := fuelLine_eq_ok hf
    · rw [he']
    · rw [he']
      rfl
  · rw [← expectLine_get he, hf]

theorem expectations_get {K : Constants} {text : Text} {p : Program}
    (h : (py.parseImpasFile K text).1 = .ok p) : p.expectations.get = py.kept text := by
  have hp : py.parseImpasFile K text = (.ok p, (py.parseImpasFile K text).2) := Prod.ext h rfl
  obtain ⟨d, _, _, syms, -, -, -, h⟩ := parseImpasFile_eq_ok.mp hp
  have := ExceptFold.foldlM_induction (P := fun lines (p : Program) => p.expectations.get =
      (lines.map fun line => py.lineAssignment (Scan.findIter expectAt line.strip)).foldl keep
        (Expectations.get {})) rfl
    (fun lines line p p' hp h => ?_) h
  · rw [this, kept, annotationLines, List.map_map]
    rfl
  · rw [parseLine_get h, hp, List.map_append, List.foldl_append]
    rfl

theorem verdict_eq_pass {K : Constants} {text : Text} {o : Outcome} :
    py.verdict K text o = .pass ↔
      py.Runs K text ∧ Passes (checks suiteCheck (py.kept text)) o := by
  unfold verdict Runs
  cases hp : (py.parseImpasFile K text).1 with
  | error e => simp
  | ok p =>
    rw [← expectations_get hp, ← verify_eq_ok_nil]
    by_cases hi : p.instructions = []
    · simp [hi]
    · have hruns : ∃ p', Except.ok p = (.ok p' : Except PyErr Program) ∧ p'.instructions ≠ [] :=
        ⟨p, rfl, hi⟩
      simp only [if_neg hi, hruns, true_and]
      constructor
      · intro h
        split at h
        · assumption
        · cases h
      · intro h
        simp only [h]

theorem foldl_keep_cases {get : Target → Option Value} {ws : List (Option (Target × Value))}
    {t : Target} {v : Value} (h : ws.foldl keep get t = some v) :
    some (t, v) ∈ ws ∨ get t = some v := by
  induction ws generalizing get with
  | nil => exact .inr h
  | cons w ws ih =>
    rcases ih h with hw | hw
    · exact .inl (List.mem_cons_of_mem _ hw)
    · cases w with
      | none => exact .inr hw
      | some w =>
        obtain ⟨t', v'⟩ := w
        by_cases ht : t = t'
        · subst ht
          rw [keep, Function.update_self] at hw
          obtain rfl := Option.some.inj hw
          exact .inl List.mem_cons_self
        · rw [keep, Function.update_of_ne ht] at hw
          exact .inr hw

theorem exists_foldl_keep {get : Target → Option Value} {ws : List (Option (Target × Value))}
    {t : Target} (h : ∃ v, get t = some v) : ∃ v, ws.foldl keep get t = some v := by
  induction ws generalizing get with
  | nil => exact h
  | cons w ws ih =>
    refine ih ?_
    cases w with
    | none => exact h
    | some w =>
      by_cases ht : t = w.1
      · exact ⟨w.2, by rw [keep, ht, Function.update_self]⟩
      · rwa [keep, Function.update_of_ne ht]

theorem kept_cases {text : Text} {t : Target} {v : Value} (h : py.kept text t = some v) :
    (∃ a ∈ (annotationLines text).flatten, ∃ c, py.condition a = some c ∧
      c.assignment = some (t, v)) ∨
    t = .status ∧ v = .text (chars "IMPULSE_VM_OK") := by
  rcases foldl_keep_cases h with h | h
  · left
    obtain ⟨line, hline, hw⟩ := List.mem_map.mp h
    obtain ⟨c, hc, hw⟩ := Option.bind_eq_some_iff.mp hw
    obtain ⟨a, ha, hc⟩ := Option.bind_eq_some_iff.mp hc
    exact ⟨a, List.mem_flatten.mpr ⟨line, hline, List.mem_of_mem_head? ha⟩, c, hc, hw⟩
  · right
    cases t with
    | status => exact ⟨rfl, (Option.some.inj h).symm⟩
    | _ => cases h

theorem flag_four_not_mem {get : Target → Option Value} {v : Value} :
    (.flag 4, v) ∉ checks suiteCheck get := by
  rintro ⟨t, w, -, h⟩
  cases t with
  | register i =>
    simp only [suiteCheck, registerCheck] at h
    split at h <;> cases h
  | _ => cases h

theorem asks_eq {a : Text} {c : Condition} (h : py.condition a = some c) :
    py.asks a = c.check := by
  rw [asks, h]

theorem exists_status_mem_required (text : Text) : ∃ v, (Coord.status, v) ∈ py.required text := by
  by_cases h : ∃ a ∈ (annotationLines text).flatten, ∃ t, py.condition a = some (.status t)
  · obtain ⟨a, ha, t, hc⟩ := h
    exact ⟨.text t, .inl ⟨a, ha, (asks_eq hc).symm⟩⟩
  · exact ⟨_, .inr ⟨rfl, fun a ha t hc => h ⟨a, ha, t, hc⟩⟩⟩

theorem exists_mem_required {text : Text} {c : Check}
    (hS : Checks.Consistent Coord.range (checks suiteCheck (py.kept text)))
    (hM : py.required text ⊆ checks suiteCheck (py.kept text))
    (hc : c ∈ checks suiteCheck (py.kept text)) : ∃ v, (c.1, v) ∈ py.required text := by
  obtain ⟨t, v, hk, hc⟩ := hc
  rcases kept_cases hk with ⟨a, ha, d, hd, hv⟩ | ⟨rfl, rfl⟩
  · have hmem : d.check ∈ py.required text := .inl ⟨a, ha, (asks_eq hd).symm⟩
    cases d with
    | register i w =>
      cases hv
      by_cases hi : 0 ≤ i ∧ i < 64
      · rw [Condition.check, dif_pos hi] at hmem
        rw [suiteCheck, registerCheck, registerIndex_of_mem hi] at hc
        cases hc
        exact ⟨_, hmem⟩
      · rw [Condition.check, dif_neg hi] at hmem
        exact absurd (hM hmem) (never_not_mem hS)
    | flag k b =>
      simp only [Condition.assignment] at hv
      split at hv
      · rename_i hk0
        subst hk0
        cases hv
        cases hc
        exact ⟨_, hmem⟩
      · split at hv
        · rename_i hk4
          subst hk4
          exact absurd (hM hmem) flag_four_not_mem
        · cases hv
    | scratchBytes _ | maxDop _ =>
      cases hv
      cases hc
    | _ =>
      cases hv
      cases hc
      exact ⟨_, hmem⟩
  · cases hc
    exact exists_status_mem_required text

theorem kept_status {text : Text}
    (h : ∀ a ∈ (annotationLines text).flatten, ∀ t, py.condition a ≠ some (.status t)) :
    py.kept text .status = some (.text (chars "IMPULSE_VM_OK")) := by
  obtain ⟨v, hv⟩ : ∃ v, py.kept text .status = some v := exists_foldl_keep ⟨_, rfl⟩
  rcases kept_cases hv with ⟨a, ha, c, hc, hcv⟩ | ⟨-, rfl⟩
  · cases c with
    | status t => exact absurd hc (h a ha t)
    | flag k b =>
      simp only [Condition.assignment] at hcv
      split at hcv
      · cases hcv
      · split at hcv <;> cases hcv
    | _ => cases hcv
  · exact hv

/-- The suite checks what the annotations ask for if it drops none of their checks. -/
theorem checks_eq_required_iff {text : Text}
    (hS : Checks.Consistent Coord.range (checks suiteCheck (py.kept text))) :
    checks suiteCheck (py.kept text) = py.required text ↔
      ∀ a ∈ (annotationLines text).flatten, py.asks a ∈ checks suiteCheck (py.kept text) := by
  constructor
  · intro h a ha
    rw [h]
    exact .inl ⟨a, ha, rfl⟩
  · intro h
    have hM : py.required text ⊆ checks suiteCheck (py.kept text) := by
      rintro c (⟨a, ha, rfl⟩ | ⟨rfl, hno⟩)
      · exact h a ha
      · exact ⟨.status, _, kept_status hno, rfl⟩
    refine Set.Subset.antisymm (fun c hc => ?_) hM
    obtain ⟨v, hv⟩ := exists_mem_required hS hM hc
    rw [hS.unique _ _ _ (hM hv) hc] at hv
    exact hv

variable (py)

/-- A `PASS` means that all annotations of the file are true exactly when the suite can pass the
file and drops no check of an annotation, or nothing satisfies either of them. -/
theorem verdict_iff (K : Constants) (text : Text) :
    (∀ o, py.verdict K text o = .pass ↔ Passes (py.required text) o) ↔
      (py.Runs K text ∧ ¬ Contradictory (checks suiteCheck (py.kept text)) ∧
        ∀ a ∈ (annotationLines text).flatten, py.asks a ∈ checks suiteCheck (py.kept text)) ∨
      (py.Runs K text → Contradictory (checks suiteCheck (py.kept text))) ∧
        Contradictory (py.required text) := by
  simp only [verdict_eq_pass]
  by_cases hr : py.Runs K text
  · simp only [hr, true_and, true_implies]
    rw [independent.forall_holds_iff_iff]
    constructor
    · rintro (h | h)
      · exact .inr h
      · by_cases hS : Contradictory (checks suiteCheck (py.kept text))
        · exact .inr ⟨hS, h ▸ hS⟩
        · exact .inl ⟨hS, (checks_eq_required_iff (not_not.mp hS)).mp h⟩
    · rintro (⟨hS, h⟩ | h)
      · exact .inr ((checks_eq_required_iff (not_not.mp hS)).mpr h)
      · exact .inl h
  · have hnone : (∀ o, ¬ Passes (py.required text) o) ↔ Contradictory (py.required text) := by
      have : Nonempty Outcome := ⟨flagsOutcome 0⟩
      rw [← not_exists]
      exact not_congr independent.exists_holds_iff
    simp only [hr, false_and, false_implies, true_and, false_or, false_iff]
    exact hnone

/-- A wrong `SCRATCH_BYTES` annotation. -/
theorem verdict_drops_scratch_bytes :
    Runtime.ascii.verdict constants
        (chars "OP_HALT ; \x7bEXPECT: SCRATCH_BYTES = 4096\x7d") (flagsOutcome 0) = .pass ∧
      ¬ Passes (Runtime.ascii.required
        (chars "OP_HALT ; \x7bEXPECT: SCRATCH_BYTES = 4096\x7d")) (flagsOutcome 0) := by
  constructor
  · decide +kernel
  · intro h
    have := h (.scratchBytes, .num 4096) (.inl ⟨chars " SCRATCH_BYTES = 4096", ?_, ?_⟩)
    · exact absurd this (by decide)
    · decide +kernel
    · decide +kernel

end Runtime

end ImpulseTools

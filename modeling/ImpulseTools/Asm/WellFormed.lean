import ImpulseTools.Asm.Tokens

/-! # Accepted files

A file is accepted exactly if it is well-formed, which does not depend on the process it is read
in, and the process knows the free tokens of the file that are no literals.
-/

namespace ImpulseTools

/-- The keys of annotations that have an integer as their value. -/
def numberKeys : List Text :=
  [chars "THROW_CODE", chars "PC", chars "CALL_STACK_DEPTH", chars "SCRATCH_BYTES",
    chars "MAX_DOP"]

namespace Runtime

def rowItems (tgt : Text) : List Text :=
  listItems (Text.strip ((Text.strip tgt).filter fun c => c ≠ '[' && c ≠ ']'))

def graphItems (body : Text) : List Text := (rowTexts body.splitlines).flatMap rowItems

section

variable (py : Runtime)

/-- A token on which `parse_val` raises, unless it is a name. -/
def Malformed (t : Text) : Prop :=
  t.startsWith (chars "0x") ∧ ¬ (py.int16 t).isOk ∨
    t.startsWith (chars "R") ∧ ¬ (py.int (t.drop 1)).isOk

def IsWord32 (t : Text) : Prop := ∃ w, py.int t = .ok (wordInt w)

def Packs : Directive → Prop
  | .csrInline _ body =>
    (∀ t ∈ graphItems body, py.IsWord32 t) ∧ (graphItems body).length < 2 ^ 32
  | .arrayFloat _ body =>
    ∀ t ∈ listItems body, ∃ x b, py.floatLiteral t = .ok x ∧ py.packFloat x = some b
  | .arrayInt _ body => ∀ t ∈ listItems body, py.IsWord32 t

def Recordable (key val : Text) : Prop :=
  (key.startsWith (chars "R") → (py.int (key.drop 1)).isOk ∧ (py.int val).isOk) ∧
    (key ∈ numberKeys → (py.int val).isOk)

/-- The annotation that is read on a line, if there is one, can be recorded. -/
def AnnotationOk (line : Text) : Prop :=
  ∀ key val, (Scan.findIter expectAt line).head?.bind keyValue = some (key, val) →
    py.Recordable key val

/-- What a branch asks of the tokens that it does not give to `parse_val`: an inline load does
not name a virtual relation, and a float fits 32 bits. -/
def BranchOk (virtual toks : List Text) : Branch → Prop
  | .form _ | .mockAttr => True
  | .inlineLoad => ∀ t, toks[2]? = some t → t.strip ∉ virtual
  | .float i => ∀ t, toks[i]? = some t → ∃ x b, py.float t = some x ∧ py.packFloat x = some b

def InstructionOk (virtual : List Text) (l : Text × List Text) : Prop :=
  ∃ op, Op.ofName? l.1 = some op ∧ py.BranchOk virtual l.2 (branch op l.2)

structure WellFormed (text : Text) : Prop where
  directives : ∀ dir ∈ py.directives text.universalNewlines, py.Packs dir
  relations : ∀ m ∈ Scan.findIter py.relAt text.universalNewlines, m.2.length ≤ maxStrDigits
  annotations : ∀ line ∈ text.universalNewlines.readlines, py.AnnotationOk line.strip
  instructions : ∀ l ∈ py.instructionLines text,
    py.InstructionOk ((Scan.findIter py.vrelAt text.universalNewlines).map Prod.fst) l

end

variable {py : Runtime} {K K₁ : Constants} {env : Env} {text t : Text}

theorem exists_parseVal_iff :
    (∃ v, py.parseVal K t = .ok v) ↔ t ∈ K ∨ ¬ py.Malformed t := by
  simp only [Malformed, ExceptFold.isOk_iff, not_or, not_and, not_not]
  constructor
  · rintro ⟨v, hv⟩
    cases parseVal_eq_ok_iff.mp hv with
    | name h => exact .inl (AList.lookup_isSome.mp (by simp [h]))
    | hex hn hx h => exact .inr ⟨fun _ => ⟨v, h⟩, fun hR => absurd hx (not_startsWith_hex hR)⟩
    | register hn hR h => exact .inr ⟨fun hx => absurd hx (not_startsWith_hex hR), fun _ => ⟨v, h⟩⟩
    | decimal hn hx hR h => exact .inr ⟨fun h => absurd h hx, fun h => absurd h hR⟩
    | other hn hx hR h => exact .inr ⟨fun h => absurd h hx, fun h => absurd h hR⟩
  · intro h
    simp only [parseVal_eq_ok_iff]
    cases hl : K.lookup t with
    | some v => exact ⟨v, .name hl⟩
    | none =>
      have hn : t ∉ K := AList.lookup_eq_none.mp hl
      obtain ⟨hhex, hreg⟩ := h.resolve_left hn
      by_cases hx : t.startsWith (chars "0x")
      · obtain ⟨v, hv⟩ := hhex hx
        exact ⟨v, .hex hn hx hv⟩
      · by_cases hR : t.startsWith (chars "R")
        · obtain ⟨v, hv⟩ := hreg hR
          exact ⟨v, .register hn hR hv⟩
        · by_cases hi : ∃ v, py.int t = .ok v
          · obtain ⟨v, hv⟩ := hi
            exact ⟨v, .decimal hn hx hR hv⟩
          · exact ⟨0, .other hn hx hR (not_exists.mp hi)⟩

theorem readsAt_iff_tokens {toks : List Text} {is : List ℕ} :
    py.ReadsAt K toks is ↔ ∀ t ∈ is.filterMap (toks[·]?), t ∈ K ∨ ¬ py.Malformed t := by
  simp only [readsAt_iff, Evaluates, exists_parseVal_iff, List.mem_filterMap]
  constructor
  · rintro h t ⟨i, hi, ht⟩
    exact h i hi t ht
  · intro h i hi t ht
    exact h t ⟨i, hi, ht⟩

theorem rowTargets_eq_ok {tgt : Text} {row : List ℤ} :
    py.rowTargets tgt = .ok row ↔ List.Forall₂ (fun t v => py.int t = .ok v) (rowItems tgt) row :=
  ExceptFold.mapM_eq_ok

theorem forall₂_graphItems {rows : List (List ℤ)} {tgts : List Text}
    (h : List.Forall₂ (fun t row => py.rowTargets t = .ok row) tgts rows) :
    List.Forall₂ (fun t v => py.int t = .ok v) (tgts.flatMap rowItems) rows.flatten := by
  induction h with
  | nil => exact .nil
  | cons hrow _ ih =>
    simp only [List.flatMap_cons, List.flatten_cons]
    exact List.rel_append (rowTargets_eq_ok.mp hrow) ih

theorem exists_packAll {vs : List ℤ} (h : ∀ v ∈ vs, ∃ w, wordInt w = v) :
    ∃ b, packAll vs = .ok b := by
  obtain ⟨bs, hbs⟩ : ∃ bs, vs.mapM packU32 = .ok bs := by
    apply ExceptFold.exists_mapM_ok
    intro v hv
    obtain ⟨w, hw⟩ := h v hv
    exact ⟨_, packU32_eq_ok.mpr ⟨w, hw, rfl⟩⟩
  exact ⟨_, ExceptFold.map_eq_ok.mpr ⟨bs, hbs, rfl⟩⟩

theorem wordInt_ofNat {n : ℕ} (h : n < 2 ^ 32) : wordInt (BitVec.ofNat 32 n) = n := by
  simp only [wordInt, BitVec.toNat_ofNat, Nat.mod_eq_of_lt h]

theorem packs_of_describes {dir : Directive} {b : Block} (h : py.Describes dir b) :
    py.Packs dir := by
  cases h with
  | @csrInline _ body rows fits h =>
    have hrows := forall₂_graphItems
      (List.forall₂_map_right_iff (f := List.map wordInt).mpr h)
    constructor
    · intro t ht
      obtain ⟨v, hv, hint⟩ := ExceptFold.exists_of_mem_left hrows ht
      simp only [← List.map_flatten, List.mem_map] at hv
      obtain ⟨w, -, rfl⟩ := hv
      exact ⟨w, hint⟩
    · have hlen := hrows.length_eq
      simp only [← List.map_flatten, List.length_map] at hlen
      exact hlen.trans_lt fits
  | arrayFloat h =>
    intro t ht
    obtain ⟨b, -, x, hx, hb⟩ := ExceptFold.exists_of_mem_left h ht
    exact ⟨x, b, hx, hb⟩
  | arrayInt h =>
    intro t ht
    obtain ⟨w, -, hw⟩ := ExceptFold.exists_of_mem_left h ht
    exact ⟨w, hw⟩

theorem exists_csrRows {body : Text} (h : ∀ t ∈ graphItems body, py.IsWord32 t) :
    ∃ acc, py.csrRows body = .ok acc := by
  refine ExceptFold.exists_foldlM_ok (fun line hline acc => ?_) _
  unfold csrLine
  dsimp only
  split
  · exact ⟨acc, rfl⟩
  · rename_i tgt hcut
    have hmem : tgt ∈ rowTexts body.splitlines :=
      List.mem_filterMap.mpr ⟨line, hline, by rw [hcut]⟩
    obtain ⟨row, hrow⟩ : ∃ row, py.rowTargets tgt = .ok row := by
      apply ExceptFold.exists_mapM_ok
      intro t ht
      obtain ⟨w, hw⟩ := h t (List.mem_flatMap.mpr ⟨tgt, hmem, ht⟩)
      exact ⟨_, hw⟩
    simp only [ExceptFold.bind_eq_ok]
    exact ⟨_, row, hrow, rfl⟩

theorem exists_csrInline_of_packs {d : DataSection} {m : Text × Text}
    (h : py.Packs (.csrInline m.1 m.2)) : ∃ d', py.csrInline d m = .ok d' := by
  obtain ⟨hitems, hlen⟩ := h
  obtain ⟨acc, hacc⟩ := exists_csrRows hitems
  obtain ⟨rows, hrows, htgts, hoffs, -⟩ := csrRows_eq_ok hacc
  have hints := forall₂_graphItems hrows
  have hfits : rows.flatten.length < 2 ^ 32 := hints.length_eq ▸ hlen
  obtain ⟨offs, ho⟩ : ∃ offs, packAll acc.offsets = .ok offs := by
    apply exists_packAll
    intro v hv
    simp only [hoffs, List.mem_map] at hv
    obtain ⟨n, hn, rfl⟩ := hv
    exact ⟨_, wordInt_ofNat ((Concat.le_of_mem_offsets hn).trans_lt hfits)⟩
  obtain ⟨tgts, ht⟩ : ∃ tgts, packAll acc.targets = .ok tgts := by
    apply exists_packAll
    intro v hv
    rw [htgts] at hv
    obtain ⟨t, ht, hv⟩ := ExceptFold.exists_of_mem_right hints hv
    obtain ⟨w, hw⟩ := hitems t ht
    exact ⟨w, Except.ok.inj (hw.symm.trans hv)⟩
  simp only [csrInline, ExceptFold.bind_eq_ok]
  exact ⟨_, acc, hacc, offs, ho, tgts, ht, rfl⟩

theorem exists_arrayFloat_of_packs {d : DataSection} {m : Text × Text}
    (h : py.Packs (.arrayFloat m.1 m.2)) : ∃ d', py.arrayFloat d m = .ok d' := by
  obtain ⟨floats, hfloats⟩ : ∃ floats, (listItems m.2).mapM py.floatLiteral = .ok floats := by
    apply ExceptFold.exists_mapM_ok
    intro t ht
    obtain ⟨x, -, hx, -⟩ := h t ht
    exact ⟨x, hx⟩
  obtain ⟨bits, hbits⟩ : ∃ bits, floats.mapM py.floatBits = .ok bits := by
    apply ExceptFold.exists_mapM_ok
    intro x hx
    obtain ⟨t, ht, htx⟩ := ExceptFold.exists_of_mem_right (ExceptFold.mapM_eq_ok.mp hfloats) hx
    obtain ⟨x', b, hx', hb⟩ := h t ht
    obtain rfl := Except.ok.inj (htx.symm.trans hx')
    exact ⟨b, floatBits_eq_ok.mpr hb⟩
  simp only [arrayFloat, ExceptFold.bind_eq_ok]
  exact ⟨_, floats, hfloats, bits, hbits, rfl⟩

theorem exists_arrayInt_of_packs {d : DataSection} {m : Text × Text}
    (h : py.Packs (.arrayInt m.1 m.2)) : ∃ d', py.arrayInt d m = .ok d' := by
  obtain ⟨ints, hints⟩ : ∃ ints, py.intList m.2 = .ok ints := by
    apply ExceptFold.exists_mapM_ok
    intro t ht
    obtain ⟨w, hw⟩ := h t ht
    exact ⟨_, hw⟩
  obtain ⟨packed, hpacked⟩ : ∃ packed, packAll ints = .ok packed := by
    apply exists_packAll
    intro v hv
    obtain ⟨t, ht, htv⟩ := ExceptFold.exists_of_mem_right (ExceptFold.mapM_eq_ok.mp hints) hv
    obtain ⟨w, hw⟩ := h t ht
    exact ⟨w, Except.ok.inj (hw.symm.trans htv)⟩
  simp only [arrayInt, ExceptFold.bind_eq_ok]
  exact ⟨_, ints, hints, packed, hpacked, rfl⟩

theorem exists_dataSection_iff :
    (∃ d, py.dataSection text = .ok d) ↔ ∀ dir ∈ py.directives text, py.Packs dir := by
  constructor
  · rintro ⟨d, hd⟩ dir hdir
    obtain ⟨blocks, ht⟩ := tiled_dataSection hd
    obtain ⟨b, -, hb⟩ := ExceptFold.exists_of_mem_left ht.describes hdir
    exact packs_of_describes hb
  · intro h
    have hfold {f : DataSection → Text × Text → Except PyErr DataSection}
        {ms : List (Text × Text)} (kind : Text × Text → Directive)
        (hf : ∀ d m, py.Packs (kind m) → ∃ d', f d m = .ok d')
        (hms : ∀ m ∈ ms, kind m ∈ py.directives text) (d : DataSection) :
        ∃ d', ms.foldlM f d = .ok d' :=
      ExceptFold.exists_foldlM_ok (fun m hm d => hf d m (h _ (hms m hm))) d
    obtain ⟨d₁, h₁⟩ := hfold (fun m => .csrInline m.1 m.2)
      (fun _ _ => exists_csrInline_of_packs)
      (fun m hm => List.mem_append_left _ (List.mem_append_left _ (List.mem_map_of_mem hm))) {}
    obtain ⟨d₂, h₂⟩ := hfold (fun m => .arrayFloat m.1 m.2)
      (fun _ _ => exists_arrayFloat_of_packs)
      (fun m hm => List.mem_append_left _ (List.mem_append_right _ (List.mem_map_of_mem hm))) d₁
    obtain ⟨d₃, h₃⟩ := hfold (fun m => .arrayInt m.1 m.2)
      (fun _ _ => exists_arrayInt_of_packs)
      (fun m hm => List.mem_append_right _ (List.mem_map_of_mem hm)) d₂
    simp only [dataSection, ExceptFold.bind_eq_ok]
    exact ⟨d₃, d₁, h₁, d₂, h₂, h₃⟩

theorem decimal_eq_none (py : Runtime) {c : Char} (h : c.toNat < 128) (hd : c.isDigit = false) :
    py.decimal c = none := by
  simp [py.decimal_ascii c h, hd]

theorem isSpace_of_decimal {c : Char} (h : (py.decimal c).isSome) : isSpace c = false := by
  by_contra hs
  have := py.isAlnum_not_space c (Bool.not_eq_false _ ▸ hs)
  simp [py.decimal_isAlnum c h] at this

theorem exists_digitRun {ds : Text} (h : ∀ c ∈ ds, (py.decimal c).isSome) {b : Bool}
    (hb : b ∨ ds ≠ []) :
    ∃ vs, digitRun py.decimal b ds = some vs ∧ vs.length = ds.length := by
  induction ds generalizing b with
  | nil =>
    obtain rfl : b = true := hb.resolve_right fun h => h rfl
    exact ⟨[], rfl, rfl⟩
  | cons c ds ih =>
    obtain ⟨hc, hds⟩ := List.forall_mem_cons.mp h
    obtain ⟨v, hv⟩ := Option.isSome_iff_exists.mp hc
    obtain ⟨vs, hvs, hlen⟩ := ih hds (b := true) (.inl rfl)
    have hu : (c == '_') = false := by
      rw [beq_eq_false_iff_ne]
      rintro rfl
      simp [decimal_eq_none py (c := '_') (by decide) (by decide)] at hv
    refine ⟨v :: vs, ?_, by simp [hlen]⟩
    simp [digitRun, hu, hv, hvs]

/-- `int` reads digits of any script, as many as `sys.int_info.default_max_str_digits`. -/
theorem exists_int_digits_iff {ds : Text} (hne : ds ≠ []) (h : ∀ c ∈ ds, (py.decimal c).isSome) :
    (∃ v, py.int ds = .ok v) ↔ ds.length ≤ maxStrDigits := by
  have htrim : Scan.trim intSpace ds = ds :=
    Scan.trim_of_forall fun c hc => by simp [intSpace, isSpace_of_decimal (h c hc)]
  have hsign : signed ds = (1, ds) := by
    unfold signed
    split
    · have := h '+' List.mem_cons_self
      simp [decimal_eq_none py (c := '+') (by decide) (by decide)] at this
    · have := h '-' List.mem_cons_self
      simp [decimal_eq_none py (c := '-') (by decide) (by decide)] at this
    · rfl
  obtain ⟨vs, hvs, hlen⟩ := exists_digitRun h (b := false) (.inr hne)
  simp only [int, htrim, hsign, hvs, hlen]
  split <;> simp <;> omega

theorem digits_of_relAt {m : Text × Text} (h : m ∈ Scan.findIter py.relAt text) :
    m.2 ≠ [] ∧ ∀ c ∈ m.2, (py.decimal c).isSome := by
  obtain ⟨t, rest, hm⟩ := Scan.exists_of_mem_findIter h
  simp only [relAt, bind, Option.bind_eq_some_iff, Prod.exists, pure, Option.some.injEq,
    Prod.mk.injEq] at hm
  obtain ⟨_, -, _, _, -, _, _, -, _, -, ds, _, hds, rfl, -⟩ := hm
  exact ⟨Scan.ne_nil_of_run hds, Scan.of_mem_run hds⟩

theorem exists_bindRels_iff {ms : List (Text × Text)} {s : Symbols} :
    (∃ s₁ K₁, py.bindRels ms s K = (.ok s₁, K₁)) ↔ ∀ m ∈ ms, ∃ id, py.int m.2 = .ok id := by
  induction ms generalizing s K with
  | nil => simp [bindRels]
  | cons m ms ih =>
    simp only [bindRels, List.forall_mem_cons]
    cases hd : py.int m.2 with
    | error e => simp
    | ok id => simp [ih]

theorem not_mem_of_mem_freeComps {bound : List Text} {ms : List (Text × Text)}
    (h : t ∈ freeComps bound ms) : t ∉ bound := by
  induction ms generalizing bound with
  | nil => cases h
  | cons m ms ih =>
    simp only [freeComps, List.mem_append, List.mem_filter, decide_eq_true_eq] at h
    rcases h with h | h
    · exact h.2
    · exact fun hb => ih h (List.mem_cons_of_mem _ hb)

theorem exists_compIds_iff {comps : Text} :
    (∃ ids, py.compIds K comps = .ok ids) ↔ ∀ t ∈ listItems comps, t ∈ K ∨ ¬ py.Malformed t := by
  simp only [compIds, ExceptFold.exists_mapM_iff, exists_parseVal_iff]

theorem exists_bindVrels_iff {bound : List Text} {ms : List (Text × Text)} {s : Symbols}
    (hbound : ∀ t ∈ bound, t ∈ K) :
    (∃ s₁ K₁, py.bindVrels ms s K = (.ok s₁, K₁)) ↔
      ∀ t ∈ freeComps bound ms, t ∈ K ∨ ¬ py.Malformed t := by
  induction ms generalizing s K bound with
  | nil => simp [bindVrels, freeComps]
  | cons m ms ih =>
    obtain ⟨name, comps⟩ := m
    have hfree : (∀ t ∈ (listItems comps).filter (· ∉ bound), t ∈ K ∨ ¬ py.Malformed t) ↔
        ∀ t ∈ listItems comps, t ∈ K ∨ ¬ py.Malformed t := by
      simp only [List.mem_filter, decide_eq_true_eq]
      constructor
      · intro h t ht
        by_cases hb : t ∈ bound
        · exact .inl (hbound t hb)
        · exact h t ⟨ht, hb⟩
      · rintro h t ⟨ht, -⟩
        exact h t ht
    simp only [freeComps, List.forall_mem_append, hfree, ← exists_compIds_iff, bindVrels]
    cases hc : py.compIds K comps with
    | error e => simp
    | ok ids =>
      have hnext (v : ℤ) : ∀ t ∈ name :: bound, t ∈ K.insert name v := by
        intro t ht
        exact (AList.mem_insert K).mpr ((List.mem_cons.mp ht).imp_right (hbound t))
      simp only [ih (hnext _), Except.ok.injEq, exists_eq', true_and, AList.mem_insert]
      refine forall₂_congr fun t ht => ?_
      have hne : t ≠ name := fun h => not_mem_of_mem_freeComps ht (h ▸ List.mem_cons_self)
      simp [hne]

theorem lookup_ids_bindVrels {ms : List (Text × Text)} {s s₁ : Symbols}
    (h : py.bindVrels ms s K = (.ok s₁, K₁)) :
    (∃ off ids, s₁.lookup t = some ⟨off, .ids ids⟩) ↔
      t ∈ ms.map Prod.fst ∨ ∃ off ids, s.lookup t = some ⟨off, .ids ids⟩ := by
  induction ms generalizing s K with
  | nil =>
    cases h
    simp
  | cons m ms ih =>
    obtain ⟨name, comps⟩ := m
    unfold bindVrels at h
    cases hc : py.compIds K comps with
    | error e => simp [hc] at h
    | ok ids =>
      simp only [hc] at h
      simp only [ih h, List.map_cons, List.mem_cons]
      by_cases hn : t = name
      · subst hn
        simp
      · simp [AList.lookup_insert_ne hn, hn]

theorem exists_record_iff {e : Expectations} {key val : Text} :
    (∃ e', py.record e key val = .ok e') ↔ py.Recordable key val := by
  have hset (f : ℤ → Expectations) :
      (∃ e', (do return f (← py.int val)) = (.ok e' : Except PyErr Expectations)) ↔
        ∃ v, py.int val = .ok v := by
    cases py.int val <;> simp [bind, Except.bind, pure, Except.pure]
  simp only [Recordable, ExceptFold.isOk_iff]
  by_cases hR : key.startsWith (chars "R")
  · have hnum : key ∉ numberKeys := by
      intro h
      simp only [numberKeys, List.mem_cons, List.not_mem_nil, or_false] at h
      rcases h with rfl | rfl | rfl | rfl | rfl <;> exact absurd hR (by decide)
    have hs : key ≠ chars "STATUS" := by
      rintro rfl
      exact absurd hR (by decide)
    simp only [record, if_neg hs, hR, hnum, if_true, true_imp_iff, false_imp_iff, and_true]
    cases py.int (key.drop 1) with
    | error e => simp [bind, Except.bind]
    | ok reg =>
      simp only [bind, Except.bind, Except.ok.injEq, exists_eq', true_and]
      exact hset fun v => { e with registers := e.registers.insert reg v }
  · by_cases hnum : key ∈ numberKeys
    · simp only [hR, hnum, true_imp_iff, Bool.false_eq_true, false_imp_iff, true_and]
      simp only [numberKeys, List.mem_cons, List.not_mem_nil, or_false] at hnum
      rcases hnum with rfl | rfl | rfl | rfl | rfl
      · exact hset fun v => { e with throwCode := some v }
      · exact hset fun v => { e with pc := some v }
      · exact hset fun v => { e with callStackDepth := some v }
      · exact hset fun v => { e with scratchBytes := some v }
      · exact hset fun v => { e with maxDop := some v }
    · simp only [hR, hnum, Bool.false_eq_true, false_imp_iff, and_true, iff_true]
      simp only [numberKeys, List.mem_cons, List.not_mem_nil, or_false, not_or] at hnum
      simp only [record, hR, hnum, if_false, Bool.false_eq_true]
      split_ifs <;> exact ⟨_, rfl⟩

theorem exists_expectLine_iff {e : Expectations} {line : Text} :
    (∃ e', py.expectLine e line = .ok e') ↔ py.AnnotationOk line := by
  unfold expectLine AnnotationOk
  cases (Scan.findIter expectAt line).head?.bind keyValue with
  | none => simp
  | some kv =>
    obtain ⟨key, val⟩ := kv
    simp [exists_record_iff]

theorem exists_fuelLine_iff {e : Expectations} {line : Text} :
    (∃ e', py.fuelLine K e line = .ok e') ↔
      ∀ t ∈ line.words[1]?.toList, t ∈ K ∨ ¬ py.Malformed t := by
  unfold fuelLine
  cases line.words[1]? with
  | none => simp
  | some t =>
    simp only [Option.toList_some, List.mem_singleton, forall_eq, ← exists_parseVal_iff]
    cases py.parseVal K t <;> simp [bind, Except.bind, pure, Except.pure]

/-- The names of virtual relations are those whose symbol is a list of components. -/
def Virtual (env : Env) (virtual : List Text) : Prop :=
  ∀ t, (∃ off ids, env.symbols.lookup t = some ⟨off, .ids ids⟩) ↔ t ∈ virtual

variable {virtual : List Text} {op : Op} {toks : List Text}

theorem takes_iff (hv : Virtual env virtual) {b : Branch} :
    py.Takes env toks b ↔ py.BranchOk virtual toks b := by
  cases b with
  | form f => rfl
  | mockAttr => rfl
  | inlineLoad =>
    apply forall₂_congr
    intro t _
    simp [← hv t.strip]
  | float i => rfl

theorem exists_operands_iff_virtual (hv : Virtual env virtual) :
    (∃ o, py.operands env op toks = .ok o) ↔
      (∀ t ∈ (branch op toks).tokens.filterMap (toks[·]?),
        t ∈ env.constants ∨ ¬ py.Malformed t) ∧ py.BranchOk virtual toks (branch op toks) := by
  simp only [exists_operands_iff, takes_iff hv, ← readsAt_iff, readsAt_iff_tokens]

theorem exists_parseLine_iff (hv : Virtual env virtual) {line : Text} {p : Program} :
    (∃ p', py.parseLine env p line = .ok p') ↔
      py.AnnotationOk line.strip ∧
        (∀ t ∈ py.lineTokens line.strip, t ∈ env.constants ∨ ¬ py.Malformed t) ∧
        ∀ l, py.instructionLine line.strip = some l → py.InstructionOk virtual l := by
  rw [← exists_expectLine_iff (e := p.expectations)]
  unfold parseLine lineTokens
  dsimp only
  cases he : py.expectLine p.expectations line.strip with
  | error err => simp [bind, Except.bind]
  | ok e =>
    simp only [bind, Except.bind, Except.ok.injEq, exists_eq', true_and]
    split
    · rename_i hf
      simp only [instructionLine_of_fuel hf, reduceCtorEq, false_imp_iff, implies_true, and_true,
        ← exists_fuelLine_iff (e := e)]
      cases py.fuelLine env.constants e line.strip <;> simp [pure, Except.pure]
    · cases hl : py.instructionLine line.strip with
      | none => simp [pure, Except.pure]
      | some l =>
        simp only [Option.some.injEq, forall_eq', InstructionOk]
        cases hop : Op.ofName? l.1 with
        | none => simp
        | some op =>
          simp only [Option.some.injEq, exists_eq_left', ← exists_operands_iff_virtual hv, encode]
          cases py.operands env op l.2 <;> simp [Functor.map, Except.map, pure, Except.pure]

theorem exists_passes_iff :
    (∃ d s₁ K₁ s₂ K', py.dataSection text = .ok d ∧
      py.bindRels (Scan.findIter py.relAt text) d.symbols K = (.ok s₁, K₁) ∧
      py.bindVrels (Scan.findIter py.vrelAt text) s₁ K₁ = (.ok s₂, K')) ↔
      (∀ dir ∈ py.directives text, py.Packs dir) ∧
        (∀ m ∈ Scan.findIter py.relAt text, m.2.length ≤ maxStrDigits) ∧
        ∀ t ∈ freeComps ((Scan.findIter py.relAt text).map Prod.fst) (Scan.findIter py.vrelAt text),
          t ∈ K ∨ ¬ py.Malformed t := by
  have hdigits : (∀ m ∈ Scan.findIter py.relAt text, ∃ id, py.int m.2 = .ok id) ↔
      ∀ m ∈ Scan.findIter py.relAt text, m.2.length ≤ maxStrDigits := by
    refine forall₂_congr fun m hm => ?_
    obtain ⟨hne, hdec⟩ := digits_of_relAt hm
    exact exists_int_digits_iff hne hdec
  -- The components are looked up after the relations have been bound.
  have hfree {K₁ : Constants} {s s₁ : Symbols}
      (hr : py.bindRels (Scan.findIter py.relAt text) s K = (.ok s₁, K₁)) :
      (∃ s₂ K', py.bindVrels (Scan.findIter py.vrelAt text) s₁ K₁ = (.ok s₂, K')) ↔
        ∀ t ∈ freeComps ((Scan.findIter py.relAt text).map Prod.fst)
          (Scan.findIter py.vrelAt text), t ∈ K ∨ ¬ py.Malformed t := by
    have hmem (t : Text) := (mem_tables_bindRels (t := t) hr).1
    rw [exists_bindVrels_iff fun t ht => (hmem t).mpr (.inr ht)]
    refine forall₂_congr fun t ht => ?_
    simp [hmem t, not_mem_of_mem_freeComps ht]
  constructor
  · rintro ⟨d, s₁, K₁, s₂, K', hd, hr, hv⟩
    exact ⟨exists_dataSection_iff.mp ⟨d, hd⟩, hdigits.mp (exists_bindRels_iff.mp ⟨s₁, K₁, hr⟩),
      (hfree hr).mp ⟨s₂, K', hv⟩⟩
  · rintro ⟨hdirs, hrels, hcomps⟩
    obtain ⟨d, hd⟩ := exists_dataSection_iff.mpr hdirs
    obtain ⟨s₁, K₁, hr⟩ :=
      exists_bindRels_iff (K := K) (s := d.symbols).mpr (hdigits.mpr hrels)
    obtain ⟨s₂, K', hv⟩ := (hfree hr).mpr hcomps
    exact ⟨d, s₁, K₁, s₂, K', hd, hr, hv⟩

theorem virtual_of_passes {d : DataSection} {s₁ s₂ : Symbols} {K' : Constants} {ints : Finset Text}
    (hd : py.dataSection text = .ok d)
    (hr : py.bindRels (Scan.findIter py.relAt text) d.symbols K = (.ok s₁, K₁))
    (hv : py.bindVrels (Scan.findIter py.vrelAt text) s₁ K₁ = (.ok s₂, K')) :
    Virtual ⟨K', s₂, ints⟩ ((Scan.findIter py.vrelAt text).map Prod.fst) := by
  intro t
  have hnum : ¬ ∃ off ids, s₁.lookup t = some ⟨off, .ids ids⟩ := by
    rintro ⟨off, ids, hl⟩
    rcases lookup_symbols_bindRels hr t with ⟨-, h⟩ | ⟨_, _, -, -, h⟩
    · obtain ⟨blocks, ht⟩ := tiled_dataSection hd
      obtain ⟨_, _, -, -, -, hs⟩ := (ht.lookup_iff t _).mp (h.symm.trans hl)
      simp at hs
    · simp [h] at hl
  simp only [lookup_ids_bindVrels hv, hnum, or_false]

/-- The free tokens of the lines, when the names the file binds are counted as known. -/
theorem forall_lineTokens_iff {P : Text → Prop} {bound : List Text} {lines : List Text} :
    (∀ t ∈ (lines.flatMap fun line => py.lineTokens line.strip).filter (· ∉ bound), t ∈ K ∨ P t) ↔
      ∀ line ∈ lines, ∀ t ∈ py.lineTokens line.strip, (t ∈ K ∨ t ∈ bound) ∨ P t := by
  simp only [List.mem_filter, List.mem_flatMap, decide_eq_true_eq]
  constructor
  · intro h line hline t ht
    by_cases hb : t ∈ bound
    · exact .inl (.inr hb)
    · exact (h t ⟨⟨line, hline, ht⟩, hb⟩).imp_left .inl
  · rintro h t ⟨⟨line, hline, ht⟩, hb⟩
    exact (h line hline t ht).imp_left fun h => h.resolve_right hb

/-- A file is accepted exactly if it is well-formed and those of its free tokens on which
`parse_val` raises are names that the process knows. -/
theorem parseImpasFile_isOk_iff :
    (py.parseImpasFile K text).1.isOk ↔
      py.WellFormed text ∧ ∀ t ∈ py.freeTokens text, t ∈ K ∨ ¬ py.Malformed t := by
  have hlines {d : DataSection} {s₁ s₂ : Symbols} {K₁ K' : Constants}
      (hd : py.dataSection text.universalNewlines = .ok d)
      (hr : py.bindRels (Scan.findIter py.relAt text.universalNewlines) d.symbols K = (.ok s₁, K₁))
      (hv : py.bindVrels (Scan.findIter py.vrelAt text.universalNewlines) s₁ K₁ = (.ok s₂, K')) :
      (∃ p, text.universalNewlines.readlines.foldlM (py.parseLine ⟨K', s₂, d.intSymbols⟩)
          { data := d.bytes } = .ok p) ↔
        ∀ line ∈ text.universalNewlines.readlines, py.AnnotationOk line.strip ∧
          (∀ t ∈ py.lineTokens line.strip, (t ∈ K ∨ t ∈ py.boundNames text) ∨ ¬ py.Malformed t) ∧
          ∀ l, py.instructionLine line.strip = some l → py.InstructionOk
            ((Scan.findIter py.vrelAt text.universalNewlines).map Prod.fst) l := by
    simp only [← (tables_of_passes hd hr hv).mem_constants]
    exact ExceptFold.exists_foldlM_iff fun line _ p =>
      exists_parseLine_iff (virtual_of_passes hd hr hv)
  have hinstructions {P : Text × List Text → Prop} :
      (∀ l ∈ py.instructionLines text, P l) ↔ ∀ line ∈ text.universalNewlines.readlines,
        ∀ l, py.instructionLine line.strip = some l → P l := by
    simp only [instructionLines, List.mem_filterMap]
    constructor
    · intro h line hline l hl
      exact h l ⟨line, hline, hl⟩
    · rintro h l ⟨line, hline, hl⟩
      exact h line hline l hl
  rw [ExceptFold.isOk_iff]
  simp only [freeTokens, List.forall_mem_append]
  constructor
  · rintro ⟨p, hp⟩
    obtain ⟨d, s₁, K₁, s₂, hd, hr, hv, hfold⟩ :=
      parseImpasFile_eq_ok.mp (Prod.ext hp (rfl : _ = (py.parseImpasFile K text).2))
    obtain ⟨hdirs, hrels, hcomps⟩ := exists_passes_iff.mp ⟨d, s₁, K₁, s₂, _, hd, hr, hv⟩
    have hall := (hlines hd hr hv).mp ⟨p, hfold⟩
    refine ⟨⟨hdirs, hrels, fun line hline => (hall line hline).1,
      hinstructions.mpr fun line hline => (hall line hline).2.2⟩, hcomps, ?_⟩
    exact forall_lineTokens_iff.mpr fun line hline => (hall line hline).2.1
  · rintro ⟨hwf, hcomps, htokens⟩
    obtain ⟨d, s₁, K₁, s₂, K', hd, hr, hv⟩ :=
      exists_passes_iff.mpr ⟨hwf.directives, hwf.relations, hcomps⟩
    obtain ⟨p, hp⟩ := (hlines hd hr hv).mpr fun line hline => ⟨hwf.annotations line hline,
      forall_lineTokens_iff.mp htokens line hline,
      hinstructions.mp hwf.instructions line hline⟩
    exact ⟨p, congrArg Prod.fst (parseImpasFile_eq_ok.mpr ⟨d, s₁, K₁, s₂, hd, hr, hv, hp⟩)⟩

end Runtime

end ImpulseTools

import ImpulseTools.Asm.Reads

/-! # Files assembled in one process

`CONSTANTS` lives as long as the process and every relation of a file is written into it, so
a file may see the relations of the files before it. It does not when the names it leaves
free mean in the table it finds what they mean in a fresh one.
-/

namespace ImpulseTools

namespace Runtime

variable (py : Runtime)

/-- The tokens of a line that are given to `parse_val`. -/
def lineTokens (line : Text) : List Text :=
  if line.startsWith (chars ".fuel") then line.words[1]?.toList
  else
    match py.instructionLine line with
    | none => []
    | some (name, toks) =>
      match Op.ofName? name with
      | none => []
      | some op => (branch op toks).tokens.filterMap (toks[·]?)

/-- The components of virtual relations that no relation before them binds. -/
def freeComps : List Text → List (Text × Text) → List Text
  | _, [] => []
  | bound, (name, comps) :: ms =>
    (listItems comps).filter (· ∉ bound) ++ freeComps (name :: bound) ms

/-- The tokens of a file that are looked up in `CONSTANTS` and that the file does not bind. -/
def freeTokens (text : Text) : List Text :=
  let text := text.universalNewlines
  let rels := (Scan.findIter py.relAt text).map Prod.fst
  let vrels := Scan.findIter py.vrelAt text
  freeComps rels vrels ++
    (text.readlines.flatMap fun line => py.lineTokens line.strip).filter
      (· ∉ rels ++ vrels.map Prod.fst)

def process (K : Constants) (texts : List Text) : Constants :=
  texts.foldl (fun K text => (py.parseImpasFile K text).2) K

variable {py} {K K' : Constants}

theorem parseVal_insert_congr {n : Text} {v : ℤ} {t : Text}
    (h : t = n ∨ py.parseVal K t = py.parseVal K' t) :
    py.parseVal (K.insert n v) t = py.parseVal (K'.insert n v) t := by
  by_cases ht : t = n
  · rw [ht, parseVal_insert_self, parseVal_insert_self]
  · rw [parseVal_insert_of_ne _ _ _ ht, parseVal_insert_of_ne _ _ _ ht]
    exact h.resolve_left ht

theorem bindRels_congr (py : Runtime) (ms : List (Text × Text)) (syms : Symbols)
    (K K' : Constants) :
    (py.bindRels ms syms K).1 = (py.bindRels ms syms K').1 ∧
      ∀ s, (py.bindRels ms syms K).1 = .ok s → ∀ t,
        t ∈ ms.map Prod.fst ∨ py.parseVal K t = py.parseVal K' t →
        py.parseVal (py.bindRels ms syms K).2 t = py.parseVal (py.bindRels ms syms K').2 t := by
  induction ms generalizing syms K K' with
  | nil => exact ⟨rfl, fun _ _ t ht => ht.resolve_left List.not_mem_nil⟩
  | cons m ms ih =>
    obtain ⟨name, digits⟩ := m
    unfold bindRels
    cases py.int digits with
    | error e => exact ⟨rfl, fun _ h => nomatch h⟩
    | ok id =>
      obtain ⟨h1, h2⟩ := ih (syms.insert name ⟨id, .num 0⟩) (K.insert name id)
        (K'.insert name id)
      refine ⟨h1, fun s hs t ht => h2 s hs t ?_⟩
      rw [List.map_cons, List.mem_cons, or_assoc] at ht
      rcases ht with ht | ht | ht
      · exact .inr (parseVal_insert_congr (.inl ht))
      · exact .inl ht
      · exact .inr (parseVal_insert_congr (.inr ht))

theorem compIds_congr {comps : Text}
    (h : ∀ t ∈ listItems comps, py.parseVal K t = py.parseVal K' t) :
    py.compIds K comps = py.compIds K' comps :=
  ExceptFold.mapM_congr h

theorem bindVrels_congr (py : Runtime) (ms : List (Text × Text)) (syms : Symbols) (K K' : Constants)
    (bound : List Text)
    (hbound : ∀ t ∈ bound, py.parseVal K t = py.parseVal K' t)
    (hfree : ∀ t ∈ freeComps bound ms, py.parseVal K t = py.parseVal K' t) :
    (py.bindVrels ms syms K).1 = (py.bindVrels ms syms K').1 ∧
      ∀ s, (py.bindVrels ms syms K).1 = .ok s → ∀ t,
        t ∈ ms.map Prod.fst ∨ py.parseVal K t = py.parseVal K' t →
        py.parseVal (py.bindVrels ms syms K).2 t =
          py.parseVal (py.bindVrels ms syms K').2 t := by
  induction ms generalizing syms K K' bound with
  | nil => exact ⟨rfl, fun _ _ t ht => ht.resolve_left List.not_mem_nil⟩
  | cons m ms ih =>
    obtain ⟨name, comps⟩ := m
    rw [freeComps, List.forall_mem_append] at hfree
    have hcomps : py.compIds K comps = py.compIds K' comps := by
      refine compIds_congr fun t ht => ?_
      by_cases hb : t ∈ bound
      · exact hbound t hb
      · exact hfree.1 t (List.mem_filter.mpr ⟨ht, by simpa using hb⟩)
    unfold bindVrels
    rw [hcomps]
    cases py.compIds K' comps with
    | error e => exact ⟨rfl, fun _ h => nomatch h⟩
    | ok ids =>
      have hinsert {t : Text} (h : py.parseVal K t = py.parseVal K' t) (v : ℤ) :
          py.parseVal (K.insert name v) t = py.parseVal (K'.insert name v) t :=
        parseVal_insert_congr (.inr h)
      obtain ⟨h1, h2⟩ := ih (syms.insert name ⟨10 + syms.keys.length, .ids ids⟩)
        (K.insert name (10 + syms.keys.length)) (K'.insert name (10 + syms.keys.length))
        (name :: bound)
        (List.forall_mem_cons.mpr ⟨parseVal_insert_congr (.inl rfl), fun t ht =>
          hinsert (hbound t ht) _⟩)
        fun t ht => hinsert (hfree.2 t ht) _
      refine ⟨h1, fun s hs t ht => h2 s hs t ?_⟩
      rw [List.map_cons, List.mem_cons, or_assoc] at ht
      rcases ht with ht | ht | ht
      · exact .inr (parseVal_insert_congr (.inl ht))
      · exact .inl ht
      · exact .inr (hinsert ht _)

theorem tokVal_congr_table {toks : List Text} {i : Option ℕ} {d : ℤ}
    (h : ∀ t, i.bind (toks[·]?) = some t → py.parseVal K t = py.parseVal K' t) :
    py.tokVal K toks i d = py.tokVal K' toks i d := by
  unfold tokVal
  split
  · rename_i t ht
    exact h t ht
  · rfl

theorem orField_congr_table {toks : List Text} {g : Field}
    (h : ∀ t, toks[g.tok]? = some t → py.parseVal K t = py.parseVal K' t) (q : ℤ) :
    py.orField K toks q g = py.orField K' toks q g := by
  unfold orField
  split
  · rename_i t ht
    rw [h t ht]
  · rfl

theorem evalForm_congr_table {toks : List Text} {f : Form}
    (h : ∀ i ∈ f.tokens, ∀ t, toks[i]? = some t → py.parseVal K t = py.parseVal K' t) :
    py.evalForm K toks f = py.evalForm K' toks f := by
  simp only [Form.tokens, List.forall_mem_append, List.forall_mem_map, Option.mem_toList] at h
  obtain ⟨⟨⟨hd, hw⟩, hg⟩, hf⟩ := h
  have hopt {i : Option ℕ} (hi : ∀ j, j ∈ i → ∀ t, toks[j]? = some t →
      py.parseVal K t = py.parseVal K' t) (d : ℤ) :
      py.tokVal K toks i d = py.tokVal K' toks i d := by
    refine tokVal_congr_table fun t ht => ?_
    obtain ⟨j, hj, ht⟩ := Option.bind_eq_some_iff.mp ht
    exact hi j hj t ht
  rw [evalForm, evalForm, hopt hd, hopt hw, hopt hf]
  refine bind_congr fun _ => bind_congr fun q => ?_
  rw [ExceptFold.foldlM_congr fun g hg' q => orField_congr_table (hg g hg') q]

variable {syms : Symbols} {ints : Finset Text}

theorem operands_congr_table {op : Op} {toks : List Text}
    (h : ∀ t ∈ (branch op toks).tokens.filterMap (toks[·]?),
      py.parseVal K t = py.parseVal K' t) :
    py.operands ⟨K, syms, ints⟩ op toks = py.operands ⟨K', syms, ints⟩ op toks := by
  have h : ∀ i ∈ (branch op toks).tokens, ∀ t, toks[i]? = some t →
      py.parseVal K t = py.parseVal K' t :=
    fun i hi t ht => h t (List.mem_filterMap.mpr ⟨i, hi, ht⟩)
  have hd (h1 : 1 ∈ (branch op toks).tokens) :
      py.tokVal K toks (some 1) 0 = py.tokVal K' toks (some 1) 0 :=
    tokVal_congr_table (h 1 h1)
  unfold operands
  cases hb : branch op toks with
  | form f =>
    rw [hb] at h
    exact evalForm_congr_table h
  | inlineLoad =>
    dsimp only [evalInlineLoad]
    rw [hd (by simp [hb, Branch.tokens])]
    rfl
  | float tok =>
    dsimp only [evalFloat]
    rw [hd (by simp [hb, Branch.tokens])]
  | mockAttr =>
    dsimp only [evalMockAttr]
    rw [hd (by simp [hb, Branch.tokens]),
      orField_congr_table (h 2 (by simp [hb, Branch.tokens]))]
    refine bind_congr fun _ => bind_congr fun q => ?_
    split
    · rfl
    · rename_i t ht
      rw [h 3 (by simp [hb, Branch.tokens]) t ht]

theorem parseLine_congr_table {line : Text} (p : Program)
    (h : ∀ t ∈ py.lineTokens line.strip, py.parseVal K t = py.parseVal K' t) :
    py.parseLine ⟨K, syms, ints⟩ p line = py.parseLine ⟨K', syms, ints⟩ p line := by
  unfold lineTokens at h
  unfold parseLine
  refine bind_congr fun e => ?_
  split at h
  · rename_i hf
    rw [if_pos hf, if_pos hf]
    have : py.fuelLine K e line.strip = py.fuelLine K' e line.strip := by
      unfold fuelLine
      split
      · rename_i t ht
        rw [h t (by simp [ht])]
      · rfl
    simp only [this]
  · rename_i hf
    rw [if_neg hf, if_neg hf]
    cases hl : py.instructionLine line.strip with
    | none => rfl
    | some l =>
      obtain ⟨name, toks⟩ := l
      simp only [hl] at h ⊢
      cases hop : Op.ofName? name with
      | none => rfl
      | some op =>
        simp only [hop] at h
        simp only [encode, operands_congr_table h]

theorem parseImpasFile_congr {text : Text}
    (h : ∀ t ∈ py.freeTokens text, py.parseVal K t = py.parseVal K' t) :
    (py.parseImpasFile K text).1 = (py.parseImpasFile K' text).1 := by
  unfold freeTokens at h
  unfold parseImpasFile
  dsimp only at h ⊢
  obtain ⟨hcomps, hlines⟩ := List.forall_mem_append.mp h
  cases py.dataSection text.universalNewlines with
  | error e => rfl
  | ok d =>
    dsimp only
    obtain ⟨hr, hrel⟩ := py.bindRels_congr (Scan.findIter py.relAt text.universalNewlines)
      d.symbols K K'
    rcases hK : py.bindRels (Scan.findIter py.relAt text.universalNewlines) d.symbols K with ⟨r, K₁⟩
    rcases hK' : py.bindRels (Scan.findIter py.relAt text.universalNewlines) d.symbols K' with
      ⟨r', K₁'⟩
    rw [hK, hK'] at hr hrel
    obtain rfl : r = r' := hr
    cases r with
    | error e => rfl
    | ok syms =>
      have hrel := hrel syms rfl
      dsimp only at hrel ⊢
      obtain ⟨hv, hvrel⟩ := py.bindVrels_congr
        (Scan.findIter py.vrelAt text.universalNewlines) syms K₁ K₁'
        ((Scan.findIter py.relAt text.universalNewlines).map Prod.fst)
        (fun t ht => hrel t (.inl ht)) fun t ht => hrel t (.inr (hcomps t ht))
      rcases hL : py.bindVrels (Scan.findIter py.vrelAt text.universalNewlines) syms K₁ with
        ⟨v, K₂⟩
      rcases hL' : py.bindVrels (Scan.findIter py.vrelAt text.universalNewlines) syms K₁' with
        ⟨v', K₂'⟩
      rw [hL, hL'] at hv hvrel
      obtain rfl : v = v' := hv
      cases v with
      | error e => rfl
      | ok syms' =>
        have hvrel := hvrel syms' rfl
        dsimp only at hvrel ⊢
        refine ExceptFold.foldlM_congr
          (fun line hline p => parseLine_congr_table p fun t ht => ?_) _
        by_cases hb : t ∈ (Scan.findIter py.relAt text.universalNewlines).map Prod.fst ++
            (Scan.findIter py.vrelAt text.universalNewlines).map Prod.fst
        · rcases List.mem_append.mp hb with hb | hb
          · exact hvrel t (.inr (hrel t (.inl hb)))
          · exact hvrel t (.inl hb)
        · refine hvrel t (.inr (hrel t (.inr (hlines t ?_))))
          exact List.mem_filter.mpr ⟨List.mem_flatMap.mpr ⟨line, hline, ht⟩, by simpa using hb⟩

/-- A file gives the same result after any others as in a fresh process, if its free tokens
have the values there that they have in a fresh process. -/
theorem parseImpasFile_process (history : List Text) (text : Text)
    (h : ∀ t ∈ py.freeTokens text,
      py.parseVal (py.process constants history) t = py.parseVal constants t) :
    (py.parseImpasFile (py.process constants history) text).1 =
      (py.parseImpasFile constants text).1 :=
  parseImpasFile_congr h

def boundNames (py : Runtime) (text : Text) : List Text :=
  (Scan.findIter py.relAt text.universalNewlines).map Prod.fst ++
    (Scan.findIter py.vrelAt text.universalNewlines).map Prod.fst

theorem parseVal_congr {t : Text} (h : K.lookup t = K'.lookup t) :
    py.parseVal K t = py.parseVal K' t := by
  simp only [parseVal, h]

theorem lookup_bindRels {ms : List (Text × Text)} {syms : Symbols} {t : Text}
    (h : t ∉ ms.map Prod.fst) : (py.bindRels ms syms K).2.lookup t = K.lookup t := by
  induction ms generalizing syms K with
  | nil => rfl
  | cons m ms ih =>
    obtain ⟨name, digits⟩ := m
    rw [List.map_cons, List.mem_cons, not_or] at h
    unfold bindRels
    cases py.int digits with
    | error e => rfl
    | ok id => exact (ih h.2).trans (AList.lookup_insert_ne h.1)

theorem lookup_bindVrels {ms : List (Text × Text)} {syms : Symbols} {t : Text}
    (h : t ∉ ms.map Prod.fst) : (py.bindVrels ms syms K).2.lookup t = K.lookup t := by
  induction ms generalizing syms K with
  | nil => rfl
  | cons m ms ih =>
    obtain ⟨name, comps⟩ := m
    rw [List.map_cons, List.mem_cons, not_or] at h
    unfold bindVrels
    cases py.compIds K comps with
    | error e => rfl
    | ok ids => exact (ih h.2).trans (AList.lookup_insert_ne h.1)

theorem parseVal_parseImpasFile {text t : Text} (h : t ∉ py.boundNames text) (K : Constants) :
    py.parseVal (py.parseImpasFile K text).2 t = py.parseVal K t := by
  obtain ⟨hr, hv⟩ := not_or.mp (mt List.mem_append.mpr h)
  unfold parseImpasFile
  dsimp only
  cases py.dataSection text.universalNewlines with
  | error e => rfl
  | ok d =>
    have h1 : py.parseVal (py.bindRels _ d.symbols K).2 t = py.parseVal K t :=
      parseVal_congr (lookup_bindRels hr)
    dsimp only
    generalize py.bindRels _ d.symbols K = r at h1 ⊢
    obtain ⟨_ | syms, K₁⟩ := r
    · exact h1
    · have h2 : py.parseVal (py.bindVrels _ syms K₁).2 t = py.parseVal K₁ t :=
        parseVal_congr (lookup_bindVrels hv)
      dsimp only at h1 ⊢
      generalize py.bindVrels _ syms K₁ = r at h2 ⊢
      obtain ⟨_ | syms', K₂⟩ := r
      · exact h2.trans h1
      · exact h2.trans h1

/-- A name that no file of the history binds keeps its value. -/
theorem parseVal_process {history : List Text} {t : Text}
    (h : ∀ text ∈ history, t ∉ py.boundNames text) (K : Constants) :
    py.parseVal (py.process K history) t = py.parseVal K t := by
  induction history generalizing K with
  | nil => rfl
  | cons text history ih =>
    obtain ⟨ht, hs⟩ := List.forall_mem_cons.mp h
    exact (ih hs _).trans (parseVal_parseImpasFile ht K)

theorem parseImpasFile_process_walk :
    (Runtime.ascii.parseImpasFile
        (Runtime.ascii.process constants [chars ".rel KNOWS = 1"])
        (chars "OP_CSR_WALK R1, R0, 2")).1 =
      (Runtime.ascii.parseImpasFile constants (chars "OP_CSR_WALK R1, R0, 2")).1 :=
  parseImpasFile_process [chars ".rel KNOWS = 1"] _ (by decide +kernel)

/-- A relation named like a register changes the register of a later file. -/
theorem process_leaks :
    (Runtime.ascii.parseImpasFile constants (chars "OP_MOV R5, R1")).1.toOption.map
        (·.instructions) = some [⟨0x70, 0, 5, 1⟩] ∧
      (Runtime.ascii.parseImpasFile
          (Runtime.ascii.process constants [chars ".rel R5 = 7"])
          (chars "OP_MOV R5, R1")).1.toOption.map (·.instructions) =
        some [⟨0x70, 0, 7, 1⟩] := by
  constructor <;> decide +kernel

end Runtime

end ImpulseTools

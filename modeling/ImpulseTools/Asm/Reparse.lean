import ImpulseTools.Asm.Isolation

/-! # Parsing a file again

A parse leaves the relations of its file in `CONSTANTS`, where the next parse of the same
file finds them before it binds any. Only the components of virtual relations can then
differ, and no instruction of an accepted file reads them.
-/

open ImpulseTools.Runtime

namespace ImpulseTools

/-- Tables of the same names that give an operand the same payload. -/
structure Similar (s s' : Symbols) : Prop where
  keys_eq : s.keys = s'.keys
  payload_eq : ∀ name, (s.lookup name).map symbolPayload = (s'.lookup name).map symbolPayload

variable {s s' : Symbols} {K K' : Constants} {name t : Text}

theorem Similar.refl (s : Symbols) : Similar s s := ⟨rfl, fun _ => rfl⟩

theorem Similar.insert (h : Similar s s') {a b : Symbol} (hab : symbolPayload a = symbolPayload b) :
    Similar (s.insert name a) (s'.insert name b) where
  keys_eq := by simp only [AList.keys_insert, h.keys_eq]
  payload_eq n := by
    by_cases hn : n = name
    · subst hn
      simp [hab]
    · rw [AList.lookup_insert_ne hn, AList.lookup_insert_ne hn, h.payload_eq]

theorem lookup_insert_congr {v : ℤ} (h : t = name ∨ K.lookup t = K'.lookup t) :
    (K.insert name v).lookup t = (K'.insert name v).lookup t := by
  by_cases ht : t = name
  · subst ht
    simp
  · rw [AList.lookup_insert_ne ht, AList.lookup_insert_ne ht, h.resolve_left ht]

namespace Runtime

variable {py : Runtime} {ms : List (Text × Text)} {K₁ : Constants}

/-- A token that has a value keeps one when more names are bound. -/
theorem exists_parseVal {v : ℤ} (hK : t ∈ K → t ∈ K') (h : py.parseVal K t = .ok v) :
    ∃ v', py.parseVal K' t = .ok v' := by
  cases hl : K'.lookup t with
  | some v' => exact ⟨v', by simp [parseVal, hl]⟩
  | none =>
    have hn : t ∉ K := fun hm => by
      have := AList.lookup_isSome.mpr (hK hm)
      simp [hl] at this
    exact ⟨v, (parseVal_congr ((AList.lookup_eq_none.mpr hn).trans hl.symm)).symm.trans h⟩

theorem exists_compIds {comps : Text} {ids : List ℤ} (hK : ∀ t ∈ K, t ∈ K')
    (h : py.compIds K comps = .ok ids) : ∃ ids', py.compIds K' comps = .ok ids' := by
  apply ExceptFold.exists_mapM_ok
  intro t ht
  obtain ⟨v, -, hv⟩ := ExceptFold.exists_of_mem_left (ExceptFold.mapM_eq_ok.mp h) ht
  exact exists_parseVal (hK t) hv

theorem mem_bindRels (h : t ∈ K) : t ∈ (py.bindRels ms s K).2 := by
  induction ms generalizing s K with
  | nil => exact h
  | cons m ms ih =>
    unfold bindRels
    cases py.int m.2 with
    | error e => exact h
    | ok id => exact ih ((AList.mem_insert K).mpr (.inr h))

theorem mem_bindVrels (h : t ∈ K) : t ∈ (py.bindVrels ms s K).2 := by
  induction ms generalizing s K with
  | nil => exact h
  | cons m ms ih =>
    unfold bindVrels
    cases py.compIds K m.2 with
    | error e => exact h
    | ok ids => exact ih ((AList.mem_insert K).mpr (.inr h))

theorem bindRels_again {s₁ : Symbols} (h : py.bindRels ms s K = (.ok s₁, K₁)) (K' : Constants) :
    ∃ K₁', py.bindRels ms s K' = (.ok s₁, K₁') ∧
      ∀ t, t ∈ ms.map Prod.fst ∨ K.lookup t = K'.lookup t → K₁.lookup t = K₁'.lookup t := by
  induction ms generalizing s K K' with
  | nil =>
    cases h
    exact ⟨K', rfl, fun t ht => ht.resolve_left List.not_mem_nil⟩
  | cons m ms ih =>
    obtain ⟨name, digits⟩ := m
    unfold bindRels at h ⊢
    cases hd : py.int digits with
    | error e => simp [hd] at h
    | ok id =>
      simp only [hd] at h ⊢
      obtain ⟨K₁', h', hK⟩ := ih h (K'.insert name id)
      refine ⟨K₁', h', fun t ht => hK t ?_⟩
      rw [List.map_cons, List.mem_cons, or_assoc] at ht
      rcases ht with ht | ht | ht
      · exact .inr (lookup_insert_congr (.inl ht))
      · exact .inl ht
      · exact .inr (lookup_insert_congr (.inr ht))

theorem bindVrels_again {s₁ : Symbols} (h : py.bindVrels ms s K = (.ok s₁, K₁))
    (hs : Similar s s') (hK : ∀ t ∈ K, t ∈ K') :
    ∃ s₁' K₁', py.bindVrels ms s' K' = (.ok s₁', K₁') ∧ Similar s₁ s₁' ∧
      ∀ t, t ∈ ms.map Prod.fst ∨ K.lookup t = K'.lookup t → K₁.lookup t = K₁'.lookup t := by
  induction ms generalizing s s' K K' with
  | nil =>
    cases h
    exact ⟨s', K', rfl, hs, fun t ht => ht.resolve_left List.not_mem_nil⟩
  | cons m ms ih =>
    obtain ⟨name, comps⟩ := m
    unfold bindVrels at h ⊢
    cases hc : py.compIds K comps with
    | error e => simp [hc] at h
    | ok ids =>
      obtain ⟨ids', hc'⟩ := exists_compIds hK hc
      simp only [hc, hc', ← hs.keys_eq] at h ⊢
      have hK' (v : ℤ) : ∀ t ∈ K.insert name v, t ∈ K'.insert name v := by
        intro t ht
        exact (AList.mem_insert K').mpr (((AList.mem_insert K).mp ht).imp_right (hK t))
      have hs' : Similar (s.insert name ⟨10 + s.keys.length, .ids ids⟩)
          (s'.insert name ⟨10 + s.keys.length, .ids ids'⟩) := hs.insert rfl
      obtain ⟨s₁', K₁', h', hs', hl⟩ := ih h hs' (hK' _)
      refine ⟨s₁', K₁', h', hs', fun t ht => hl t ?_⟩
      rw [List.map_cons, List.mem_cons, or_assoc] at ht
      rcases ht with ht | ht | ht
      · exact .inr (lookup_insert_congr (.inl ht))
      · exact .inl ht
      · exact .inr (lookup_insert_congr (.inr ht))

theorem parseLine_congr_symbols {ints : Finset Text} (hs : Similar s s') (p : Program)
    (line : Text) : py.parseLine ⟨K, s, ints⟩ p line = py.parseLine ⟨K, s', ints⟩ p line := by
  have hp (n : Text) : namedPayload ⟨K, s, ints⟩ n = namedPayload ⟨K, s', ints⟩ n := by
    have h := hs.payload_eq n
    unfold namedPayload
    dsimp only
    cases hl : s.lookup n <;> cases hl' : s'.lookup n <;> simp_all
  have ho (op : Op) (toks : List Text) :
      py.operands ⟨K, s, ints⟩ op toks = py.operands ⟨K, s', ints⟩ op toks := by
    simp only [operands, evalInlineLoad, hp]
  simp only [parseLine, encode, ho]

/-- A parse that finds the table as an accepted parse of the same file left it. -/
theorem parseImpasFile_again {text : Text} {p : Program}
    (h : py.parseImpasFile K text = (.ok p, K₁)) (hK : ∀ t, K'.lookup t = K₁.lookup t) :
    ∃ K₂, py.parseImpasFile K' text = (.ok p, K₂) ∧ ∀ t, K₂.lookup t = K₁.lookup t := by
  obtain ⟨d, s₁, Kr, s₂, hd, hr, hv, hp⟩ := parseImpasFile_eq_ok.mp h
  obtain ⟨Kr', hr', hrel⟩ := bindRels_again hr K'
  have hr₁ : (py.bindRels _ d.symbols K).2 = Kr := congrArg Prod.snd hr
  have hr₂ : (py.bindRels _ d.symbols K').2 = Kr' := congrArg Prod.snd hr'
  have hv₂ : (py.bindVrels _ s₁ Kr).2 = K₁ := congrArg Prod.snd hv
  have hsub : ∀ t ∈ Kr, t ∈ Kr' := by
    intro t ht
    have h₁ : t ∈ K₁ := hv₂ ▸ mem_bindVrels ht
    rw [← AList.lookup_isSome, ← hK, AList.lookup_isSome] at h₁
    exact hr₂ ▸ mem_bindRels h₁
  obtain ⟨s₂', K₂, hv', hs, hvrel⟩ := bindVrels_again hv (.refl s₁) hsub
  have hK₂ (t : Text) : K₁.lookup t = K₂.lookup t := by
    apply hvrel t
    by_cases htv : t ∈ (Scan.findIter py.vrelAt text.universalNewlines).map Prod.fst
    · exact .inl htv
    · right
      apply hrel t
      by_cases htr : t ∈ (Scan.findIter py.relAt text.universalNewlines).map Prod.fst
      · exact .inl htr
      · right
        rw [hK, ← hv₂, lookup_bindVrels htv, ← hr₁, lookup_bindRels htr]
  have henv (q : Program) (line : Text) :
      py.parseLine ⟨K₂, s₂', d.intSymbols⟩ q line = py.parseLine ⟨K₁, s₂, d.intSymbols⟩ q line := by
    rw [parseLine_congr_table q fun t _ => parseVal_congr (hK₂ t).symm,
      parseLine_congr_symbols hs]
  refine ⟨K₂, parseImpasFile_eq_ok.mpr ⟨d, s₁, Kr', s₂', hd, hr', hv', ?_⟩, fun t => (hK₂ t).symm⟩
  rw [ExceptFold.foldlM_congr fun line _ q => henv q line]
  exact hp

/-- Every further parse of an accepted file gives the same program and leaves `CONSTANTS` as
the first one did. -/
theorem parseImpasFile_repeat {text : Text} {p : Program}
    (h : py.parseImpasFile K text = (.ok p, K₁)) (n : ℕ) :
    ∃ K₂, py.parseImpasFile (py.process K₁ (List.replicate n text)) text = (.ok p, K₂) ∧
      ∀ t, K₂.lookup t = K₁.lookup t := by
  suffices ∀ K', (∀ t, K'.lookup t = K₁.lookup t) →
      ∀ t, (py.process K' (List.replicate n text)).lookup t = K₁.lookup t from
    parseImpasFile_again h (this K₁ fun _ => rfl)
  intro K' hK
  induction n generalizing K' with
  | zero => exact hK
  | succ n ih =>
    obtain ⟨K₂, h₂, hK₂⟩ := parseImpasFile_again h hK
    rw [List.replicate_succ, process, List.foldl_cons, h₂]
    exact ih K₂ hK₂

theorem parseImpasFile_repeat_vrel :
    ∃ p K₁, Runtime.ascii.parseImpasFile constants
        (chars ".vrel FOAF = [FOAF, KNOWS]\n.vrel KNOWS = [1]\nOP_CSR_WALK R1, R0, FOAF") =
          (.ok p, K₁) ∧
      ∃ K₂, Runtime.ascii.parseImpasFile
          (Runtime.ascii.process K₁ (List.replicate 3
            (chars ".vrel FOAF = [FOAF, KNOWS]\n.vrel KNOWS = [1]\nOP_CSR_WALK R1, R0, FOAF")))
          (chars ".vrel FOAF = [FOAF, KNOWS]\n.vrel KNOWS = [1]\nOP_CSR_WALK R1, R0, FOAF") =
            (.ok p, K₂) ∧
        ∀ t, K₂.lookup t = K₁.lookup t := by
  obtain ⟨p, hp⟩ := exists_program Runtime.ascii constants
    (chars ".vrel FOAF = [FOAF, KNOWS]\n.vrel KNOWS = [1]\nOP_CSR_WALK R1, R0, FOAF")
    (by decide +kernel)
  exact ⟨p, _, hp, parseImpasFile_repeat hp 3⟩

end Runtime

end ImpulseTools

import ImpulseTools.Asm.Reparse
import ImpulseTools.Lib.Numbering

/-! # Ids of virtual relations

A virtual relation is numbered by the symbols of the file so far, graphs and arrays included, and
a relation has the number it is written with. The numbers of a file are all different when none of
its relations is written with one of them and no name is reused before a new one.
-/

namespace ImpulseTools

namespace Runtime

section

variable (py : Runtime)

def dataNames (text : Text) : List Text :=
  (Scan.findIter py.csrInlineAt text).map Prod.fst ++
    (Scan.findIter py.arrayFloatAt text).map Prod.fst ++
    (Scan.findIter py.arrayIntAt text).map Prod.fst

def relIds (text : Text) : List (Text × ℤ) :=
  (Scan.findIter py.relAt text).filterMap fun m => (py.int m.2).toOption.map (m.1, ·)

/-- The names and ids the `.vrel` pass binds, up to the first component without a value. -/
def virtualIds : List (Text × Text) → Symbols → Constants → List (Text × ℤ)
  | [], _, _ => []
  | (name, comps) :: ms, syms, K =>
    match py.compIds K comps with
    | .error _ => []
    | .ok ids =>
      let id : ℤ := 10 + syms.keys.length
      (name, id) :: virtualIds ms (syms.insert name ⟨id, .ids ids⟩) (K.insert name id)

/-- The names of the `.vrel` directives before the first that has a component without a value. -/
def reached : List (Text × Text) → Constants → List Text
  | [], _ => []
  | (name, comps) :: ms, K =>
    if ∀ t ∈ listItems comps, (py.parseVal K t).isOk then name :: reached ms (K.insert name 0)
    else []

def vrelNames (K : Constants) (text : Text) : List Text :=
  match py.dataSection text with
  | .error _ => []
  | .ok d =>
    match py.bindRels (Scan.findIter py.relAt text) d.symbols K with
    | (.error _, _) => []
    | (.ok _, K) => py.reached (Scan.findIter py.vrelAt text) K

def vrelIds (K : Constants) (text : Text) : List (Text × ℤ) :=
  match py.dataSection text with
  | .error _ => []
  | .ok d =>
    match py.bindRels (Scan.findIter py.relAt text) d.symbols K with
    | (.error _, _) => []
    | (.ok syms, K) => py.virtualIds (Scan.findIter py.vrelAt text) syms K

/-- No id a `.vrel` directive of the file binds is that of a relation or of a virtual relation of
another name. -/
def FreshIds (K : Constants) (text : Text) : Prop :=
  ∀ a ∈ py.vrelIds K text.universalNewlines,
    (∀ r ∈ py.relIds text.universalNewlines, a.2 ≠ r.2) ∧
      ∀ b ∈ py.vrelIds K text.universalNewlines, a.1 ≠ b.1 → a.2 ≠ b.2

instance (K : Constants) (text : Text) : Decidable (py.FreshIds K text) :=
  inferInstanceAs (Decidable (∀ a ∈ py.vrelIds K text.universalNewlines, _ ∧ _))

end

variable {py : Runtime} {ms : List (Text × Text)} {syms : Symbols} {K : Constants} {text : Text}

theorem bindVrels_snd : (py.bindVrels ms syms K).2 =
    (py.virtualIds ms syms K).foldl (fun K a => K.insert a.1 a.2) K := by
  induction ms generalizing syms K with
  | nil => rfl
  | cons m ms ih =>
    obtain ⟨name, comps⟩ := m
    rw [bindVrels, virtualIds]
    cases py.compIds K comps with
    | error e => rfl
    | ok ids => simp [ih]

/-- Whether a component has a value depends on the names that are bound, not on their ids. -/
theorem map_fst_virtualIds {K' : Constants} (hK : ∀ t, t ∈ K ↔ t ∈ K') :
    (py.virtualIds ms syms K).map Prod.fst = py.reached ms K' := by
  induction ms generalizing syms K K' with
  | nil => rfl
  | cons m ms ih =>
    obtain ⟨name, comps⟩ := m
    rw [virtualIds, reached]
    cases hc : py.compIds K comps with
    | error e =>
      rw [if_neg fun h => ?_]
      · rfl
      · have hall : ∀ t ∈ listItems comps, ∃ v, py.parseVal K t = .ok v := by
          intro t ht
          obtain ⟨v, hv⟩ := ExceptFold.exists_of_isOk (h t ht)
          exact exists_parseVal (hK t).mpr hv
        obtain ⟨ids, hids⟩ := ExceptFold.exists_mapM_ok hall
        rw [compIds, hids] at hc
        cases hc
    | ok ids =>
      have hall : ∀ t ∈ listItems comps, (py.parseVal K' t).isOk := by
        intro t ht
        obtain ⟨v, -, hv⟩ := ExceptFold.exists_of_mem_left (ExceptFold.mapM_eq_ok.mp hc) ht
        obtain ⟨v', hv'⟩ := exists_parseVal (hK t).mp hv
        rw [hv']
        rfl
      rw [if_pos hall, List.map_cons]
      refine congrArg _ (ih fun t => ?_)
      rw [AList.mem_insert, AList.mem_insert, hK t]

theorem toFinset_keys_insert (name : Text) (s : Symbol) :
    (syms.insert name s).keys.toFinset = insert name syms.keys.toFinset := by
  ext t
  simp only [List.mem_toFinset, ← AList.mem_keys, AList.mem_insert, Finset.mem_insert]

theorem card_toFinset_keys : syms.keys.toFinset.card = syms.keys.length :=
  List.toFinset_card_of_nodup (AList.keys_nodup _)

/-- A virtual relation is numbered by the symbols before it. -/
theorem virtualIds_eq : py.virtualIds ms syms K =
    (Numbering.number syms.keys.toFinset ((py.virtualIds ms syms K).map Prod.fst)).map
      fun p => (p.1, 10 + (p.2 : ℤ)) := by
  induction ms generalizing syms K with
  | nil => rfl
  | cons m ms ih =>
    obtain ⟨name, comps⟩ := m
    rw [virtualIds]
    cases py.compIds K comps with
    | error e => rfl
    | ok ids =>
      simp only [List.map_cons, Numbering.number, card_toFinset_keys]
      rw [← toFinset_keys_insert name ⟨10 + syms.keys.length, .ids ids⟩, ← ih]

theorem toFinset_keys_bindRels {s₁ : Symbols} {K₁ : Constants}
    (h : py.bindRels ms syms K = (.ok s₁, K₁)) :
    s₁.keys.toFinset = syms.keys.toFinset ∪ (ms.map Prod.fst).toFinset := by
  induction ms generalizing syms K with
  | nil =>
    cases h
    simp
  | cons m ms ih =>
    obtain ⟨name, digits⟩ := m
    rw [bindRels] at h
    cases hd : py.int digits with
    | error e => simp [hd] at h
    | ok id =>
      simp only [hd] at h
      rw [ih h, toFinset_keys_insert]
      ext t
      simp

theorem toFinset_keys_foldlM {f : DataSection → Text × Text → Except PyErr DataSection}
    (hf : ∀ d m d', f d m = .ok d' → ∃ s, d'.symbols = d.symbols.insert m.1 s)
    {d d' : DataSection} (h : ms.foldlM f d = .ok d') :
    d'.symbols.keys.toFinset = d.symbols.keys.toFinset ∪ (ms.map Prod.fst).toFinset := by
  refine ExceptFold.foldlM_induction (P := fun ms d' => d'.symbols.keys.toFinset =
    d.symbols.keys.toFinset ∪ (ms.map Prod.fst).toFinset) (by simp) ?_ h
  intro ms m d₁ d₂ ih hm
  obtain ⟨s, hs⟩ := hf d₁ m d₂ hm
  rw [hs, toFinset_keys_insert, ih]
  ext t
  simp

theorem toFinset_keys_dataSection {d : DataSection} (h : py.dataSection text = .ok d) :
    d.symbols.keys.toFinset = (py.dataNames text).toFinset := by
  simp only [dataSection, ExceptFold.bind_eq_ok] at h
  obtain ⟨d₁, h₁, d₂, h₂, h₃⟩ := h
  rw [toFinset_keys_foldlM ?_ h₃, toFinset_keys_foldlM ?_ h₂, toFinset_keys_foldlM ?_ h₁]
  · simp [dataNames]
  · intro d m d' hd
    simp only [csrInline, ExceptFold.bind_eq_ok, pure, Except.pure, Except.ok.injEq] at hd
    obtain ⟨_, -, _, -, _, -, rfl⟩ := hd
    exact ⟨_, rfl⟩
  · intro d m d' hd
    simp only [arrayFloat, ExceptFold.bind_eq_ok, pure, Except.pure, Except.ok.injEq] at hd
    obtain ⟨_, -, _, -, rfl⟩ := hd
    exact ⟨_, rfl⟩
  · intro d m d' hd
    simp only [arrayInt, ExceptFold.bind_eq_ok, pure, Except.pure, Except.ok.injEq] at hd
    obtain ⟨_, -, _, -, rfl⟩ := hd
    exact ⟨_, rfl⟩

theorem vrelIds_of_ok {d : DataSection} {s₁ : Symbols} {K₁ : Constants}
    (hd : py.dataSection text = .ok d)
    (hr : py.bindRels (Scan.findIter py.relAt text) d.symbols K = (.ok s₁, K₁)) :
    py.vrelIds K text = py.virtualIds (Scan.findIter py.vrelAt text) s₁ K₁ := by
  simp only [vrelIds, hd, hr]

theorem snd_parseImpasFile {d : DataSection} {s₁ : Symbols} {K₁ : Constants}
    (hd : py.dataSection text.universalNewlines = .ok d)
    (hr : py.bindRels (Scan.findIter py.relAt text.universalNewlines) d.symbols K = (.ok s₁, K₁)) :
    (py.parseImpasFile K text).2 = (py.vrelIds K text.universalNewlines).foldl
      (fun K a => K.insert a.1 a.2) K₁ := by
  rw [vrelIds_of_ok hd hr, ← bindVrels_snd]
  simp only [parseImpasFile, hd, hr]
  rcases py.bindVrels (Scan.findIter py.vrelAt text.universalNewlines) s₁ K₁ with ⟨_ | s₂, K₂⟩ <;>
    rfl

theorem vrelIds_cases (py : Runtime) (K : Constants) (text : Text) :
    py.vrelIds K text = [] ∨ ∃ d s₁ K₁, py.dataSection text = .ok d ∧
      py.bindRels (Scan.findIter py.relAt text) d.symbols K = (.ok s₁, K₁) := by
  unfold vrelIds
  cases py.dataSection text with
  | error e => exact .inl rfl
  | ok d =>
    dsimp only
    rcases hr : py.bindRels (Scan.findIter py.relAt text) d.symbols K with ⟨_ | s₁, K₁⟩
    · exact .inl rfl
    · exact .inr ⟨d, s₁, K₁, rfl, hr⟩

theorem map_fst_vrelIds : (py.vrelIds K text).map Prod.fst = py.vrelNames K text := by
  unfold vrelIds vrelNames
  cases py.dataSection text with
  | error e => rfl
  | ok d =>
    dsimp only
    rcases py.bindRels (Scan.findIter py.relAt text) d.symbols K with ⟨_ | s₁, K₁⟩
    · rfl
    · exact map_fst_virtualIds fun _ => .rfl

def knownNames (py : Runtime) (text : Text) : Finset Text :=
  (py.dataNames text ++ (Scan.findIter py.relAt text).map Prod.fst).toFinset

theorem vrelIds_eq : py.vrelIds K text =
    (Numbering.number (py.knownNames text) (py.vrelNames K text)).map
      fun p => (p.1, 10 + (p.2 : ℤ)) := by
  rw [← map_fst_vrelIds]
  rcases vrelIds_cases py K text with h | ⟨d, s₁, K₁, hd, hr⟩
  · rw [h]
    rfl
  · have hknown : s₁.keys.toFinset = py.knownNames text := by
      rw [toFinset_keys_bindRels hr, toFinset_keys_dataSection hd, knownNames,
        List.toFinset_append]
    rw [vrelIds_of_ok hd hr, ← hknown]
    exact virtualIds_eq

/-- The ids of a file's virtual relations are fresh exactly if no relation is written with one of
the numbers they run through, and a name is new if another name follows it. -/
theorem freshIds_iff (py : Runtime) (K : Constants) (text : Text) :
    py.FreshIds K text ↔
      (py.vrelNames K text.universalNewlines ≠ [] → ∀ r ∈ py.relIds text.universalNewlines,
        ¬ (10 + ((py.knownNames text.universalNewlines).card : ℤ) ≤ r.2 ∧
          r.2 ≤ 10 + ((py.knownNames text.universalNewlines ∪
            (py.vrelNames K text.universalNewlines).dropLast.toFinset).card : ℤ))) ∧
      Numbering.NewBeforeOther (py.knownNames text.universalNewlines)
        (py.vrelNames K text.universalNewlines) := by
  unfold FreshIds
  generalize text.universalNewlines = t
  rw [vrelIds_eq]
  generalize py.vrelNames K t = names
  generalize py.knownNames t = known
  rw [← Numbering.distinct_number_iff]
  simp only [List.forall_mem_map, forall_and]
  refine and_congr ⟨fun h hne r hr hid => ?_, fun h p hp r hr hid => ?_⟩
    ⟨fun h p hp q hq hne hid => ?_, fun h p hp q hq hne hid => ?_⟩
  · have hn : (r.2 - 10).toNat ∈ (Numbering.number known names).map Prod.snd := by
      rw [Numbering.mem_number_iff hne]
      omega
    obtain ⟨p, hp, hpn⟩ := List.mem_map.mp hn
    exact h p hp r hr (by omega)
  · have hne : names ≠ [] := by
      rintro rfl
      cases hp
    have hn := (Numbering.mem_number_iff hne).mp (List.mem_map_of_mem hp)
    exact h hne r hr (by omega)
  · exact h p hp q hq hne (by rw [hid])
  · exact h p hp q hq hne (by omega)

/-- A relation with the number of the virtual relation behind it, and a virtual relation after a
name that was used twice. The walks along the first two have the same operands. -/
theorem not_freshIds :
    ¬ Runtime.ascii.FreshIds constants
        (chars ".rel KNOWS = 11\n.vrel FOAF = [KNOWS]\nOP_CSR_WALK R1, R0, FOAF") ∧
      ¬ Runtime.ascii.FreshIds constants
        (chars ".vrel FOAF = [1]\n.vrel FOAF = [2]\n.vrel COLLEAGUE = [3]") ∧
      (Runtime.ascii.parseImpasFile constants (chars
        ".rel KNOWS = 11\n.vrel FOAF = [KNOWS]\nOP_CSR_WALK R1, R0, FOAF")).1.toOption.map
          (·.instructions) = some [⟨0x10, 0, 1, 0xB0000⟩] ∧
      (Runtime.ascii.parseImpasFile constants (chars
        ".rel KNOWS = 11\n.vrel FOAF = [KNOWS]\nOP_CSR_WALK R1, R0, KNOWS")).1.toOption.map
          (·.instructions) = some [⟨0x10, 0, 1, 0xB0000⟩] := by
  refine ⟨?_, ?_, ?_, ?_⟩ <;> decide +kernel

end Runtime

end ImpulseTools

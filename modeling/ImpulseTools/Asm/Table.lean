import ImpulseTools.Asm.Reparse

/-! # Tables with the same values

A parse looks names up in `CONSTANTS` and writes to it, and depends on nothing else of it. So files
that are parsed again and again in one process leave it as if each had been parsed once.
-/

namespace ImpulseTools

def SameTable (K K' : Constants) : Prop := ∀ t, K.lookup t = K'.lookup t

variable {K K' K₁ : Constants}

theorem SameTable.refl (K : Constants) : SameTable K K := fun _ => rfl

theorem SameTable.symm (h : SameTable K K') : SameTable K' K := fun t => (h t).symm

theorem SameTable.trans {K'' : Constants} (h : SameTable K K') (h' : SameTable K' K'') :
    SameTable K K'' := fun t => (h t).trans (h' t)

theorem SameTable.insert (h : SameTable K K') (name : Text) (v : ℤ) :
    SameTable (K.insert name v) (K'.insert name v) := fun t => lookup_insert_congr (.inr (h t))

namespace Runtime

variable {py : Runtime} {text : Text} {p : Program}

theorem bindRels_sameTable (py : Runtime) (h : SameTable K K') (ms : List (Text × Text))
    (s : Symbols) :
    (py.bindRels ms s K).1 = (py.bindRels ms s K').1 ∧
      SameTable (py.bindRels ms s K).2 (py.bindRels ms s K').2 := by
  induction ms generalizing s K K' with
  | nil => exact ⟨rfl, h⟩
  | cons m ms ih =>
    unfold bindRels
    cases py.int m.2 with
    | error e => exact ⟨rfl, h⟩
    | ok id => exact ih (h.insert m.1 id) _

theorem bindVrels_sameTable (py : Runtime) (h : SameTable K K') (ms : List (Text × Text))
    (s : Symbols) :
    (py.bindVrels ms s K).1 = (py.bindVrels ms s K').1 ∧
      SameTable (py.bindVrels ms s K).2 (py.bindVrels ms s K').2 := by
  induction ms generalizing s K K' with
  | nil => exact ⟨rfl, h⟩
  | cons m ms ih =>
    unfold bindVrels
    rw [compIds_congr fun t _ => parseVal_congr (h t)]
    cases py.compIds K' m.2 with
    | error e => exact ⟨rfl, h⟩
    | ok ids => exact ih (h.insert m.1 _) _

/-- A parse gives the same result from both tables, and leaves tables that agree again. -/
theorem parseImpasFile_sameTable (py : Runtime) (h : SameTable K K') (text : Text) :
    (py.parseImpasFile K text).1 = (py.parseImpasFile K' text).1 ∧
      SameTable (py.parseImpasFile K text).2 (py.parseImpasFile K' text).2 := by
  refine ⟨parseImpasFile_congr fun t _ => parseVal_congr (h t), ?_⟩
  unfold parseImpasFile
  dsimp only
  cases py.dataSection text.universalNewlines with
  | error e => exact h
  | ok d =>
    obtain ⟨hr, hrel⟩ := bindRels_sameTable py h
      (Scan.findIter py.relAt text.universalNewlines) d.symbols
    dsimp only
    generalize py.bindRels _ d.symbols K = r at hr hrel ⊢
    generalize py.bindRels _ d.symbols K' = r' at hr hrel ⊢
    obtain ⟨r, K₁⟩ := r
    obtain ⟨r', K₁'⟩ := r'
    obtain rfl : r = r' := hr
    cases r with
    | error e => exact hrel
    | ok syms =>
      obtain ⟨hv, hvrel⟩ := bindVrels_sameTable py hrel
        (Scan.findIter py.vrelAt text.universalNewlines) syms
      dsimp only at hv hvrel ⊢
      generalize py.bindVrels _ syms K₁ = v at hv hvrel ⊢
      generalize py.bindVrels _ syms K₁' = v' at hv hvrel ⊢
      obtain ⟨v, K₂⟩ := v
      obtain ⟨v', K₂'⟩ := v'
      obtain rfl : v = v' := hv
      cases v <;> exact hvrel

/-- The second parse of an accepted file, from a table that agrees with what the first one left. -/
theorem parseImpasFile_twice (h : py.parseImpasFile K text = (.ok p, K₁)) (hK : SameTable K' K₁) :
    ∃ K₂, py.parseImpasFile K' text = (.ok p, K₂) ∧ SameTable K₂ K₁ :=
  parseImpasFile_again h hK

variable (py)

/-- The results of the files, each parsed once and one after the other. -/
def parses : Constants → List Text → List (Except PyErr Program)
  | _, [] => []
  | K, text :: texts => (py.parseImpasFile K text).1 :: parses (py.parseImpasFile K text).2 texts

end Runtime

end ImpulseTools

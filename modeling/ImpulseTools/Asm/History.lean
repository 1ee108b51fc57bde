import ImpulseTools.Asm.Comment
import ImpulseTools.Asm.Reparse
import ImpulseTools.Asm.WellFormed

/-! # Histories of a process

What the files that were read before can change about whether a file is accepted: they can make
a token a name, if its characters are those of one, and they never take a name away.
-/

namespace ImpulseTools

namespace Runtime

section

variable (py : Runtime)

/-- A name that a directive can bind. -/
def IsName (t : Text) : Prop := t ≠ [] ∧ ∀ c ∈ t, py.isWord c

def relText (name : Text) : Text := chars ".rel " ++ (name ++ chars " = 0")

end

variable {py : Runtime} {K : Constants} {text t : Text}

theorem isName_of_run {s t rest : Text} (h : Scan.run py.isWord t = some (s, rest)) :
    py.IsName s :=
  ⟨Scan.ne_nil_of_run h, Scan.of_mem_run h⟩

theorem isName_of_mem_boundNames (h : t ∈ py.boundNames text) : py.IsName t := by
  simp only [boundNames, List.mem_append, List.mem_map] at h
  rcases h with ⟨m, hm, rfl⟩ | ⟨m, hm, rfl⟩
  · obtain ⟨s, rest, hm⟩ := Scan.exists_of_mem_findIter hm
    simp only [relAt, bind, Option.bind_eq_some_iff, Prod.exists, pure, Option.some.injEq,
      Prod.mk.injEq] at hm
    obtain ⟨_, -, _, _, -, name, _, hrun, _, -, _, _, -, rfl, -⟩ := hm
    exact isName_of_run hrun
  · obtain ⟨s, rest, hm⟩ := Scan.exists_of_mem_findIter hm
    obtain ⟨⟨⟨name, body⟩, rest'⟩, hblock, hm⟩ := Option.bind_eq_some_iff.mp hm
    dsimp only at hm
    split at hm
    · cases hm
    · cases hm
      simp only [blockAt, bind, Option.bind_eq_some_iff, Prod.exists, pure, Option.some.injEq,
        Prod.mk.injEq] at hblock
      obtain ⟨_, -, _, _, -, name', _, hrun, _, -, _, -, _, -, ⟨rfl, -⟩, -⟩ := hblock
      exact isName_of_run hrun

theorem mem_parseImpasFile (h : t ∈ K) : t ∈ (py.parseImpasFile K text).2 := by
  unfold parseImpasFile
  dsimp only
  cases py.dataSection text.universalNewlines with
  | error e => exact h
  | ok d =>
    have hrel (ms : List (Text × Text)) : t ∈ (py.bindRels ms d.symbols K).2 := mem_bindRels h
    dsimp only
    generalize Scan.findIter py.relAt text.universalNewlines = ms
    rcases hr : py.bindRels ms d.symbols K with ⟨_ | syms, K₁⟩
    · simpa [hr] using hrel ms
    · have h₁ : t ∈ K₁ := by simpa [hr] using hrel ms
      have hvrel (ms : List (Text × Text)) : t ∈ (py.bindVrels ms syms K₁).2 := mem_bindVrels h₁
      dsimp only
      generalize Scan.findIter py.vrelAt text.universalNewlines = ms'
      rcases hv : py.bindVrels ms' syms K₁ with ⟨_ | syms', K₂⟩ <;>
        simpa [hv] using hvrel ms'

theorem mem_of_lookup_eq {K' : Constants} (h : K'.lookup t = K.lookup t) (ht : t ∈ K') : t ∈ K := by
  rwa [← AList.lookup_isSome, ← h, AList.lookup_isSome]

theorem mem_of_mem_parseImpasFile (hn : t ∉ py.boundNames text)
    (h : t ∈ (py.parseImpasFile K text).2) : t ∈ K := by
  simp only [boundNames, List.mem_append, not_or] at hn
  unfold parseImpasFile at h
  dsimp only at h
  cases hd : py.dataSection text.universalNewlines with
  | error e =>
    simp only [hd] at h
    exact h
  | ok d =>
    simp only [hd] at h
    have h₁ : t ∈ (py.bindRels _ d.symbols K).2 → t ∈ K := mem_of_lookup_eq (lookup_bindRels hn.1)
    generalize py.bindRels _ d.symbols K = r at h h₁
    obtain ⟨_ | syms, K₁⟩ := r
    · exact h₁ h
    · have h₂ : t ∈ (py.bindVrels _ syms K₁).2 → t ∈ K₁ := mem_of_lookup_eq (lookup_bindVrels hn.2)
      dsimp only at h
      generalize py.bindVrels _ syms K₁ = r at h h₂
      obtain ⟨_ | syms', K₂⟩ := r <;> exact h₁ (h₂ h)

theorem mem_process {history : List Text} (h : t ∈ K) : t ∈ py.process K history := by
  induction history generalizing K with
  | nil => exact h
  | cons text history ih => exact ih (mem_parseImpasFile h)

theorem mem_or_isName_of_mem_process {history : List Text} (h : t ∈ py.process K history) :
    t ∈ K ∨ py.IsName t := by
  induction history generalizing K with
  | nil => exact .inl h
  | cons text history ih =>
    rcases ih h with h | h
    · by_cases hn : t ∈ py.boundNames text
      · exact .inr (isName_of_mem_boundNames hn)
      · exact .inl (mem_of_mem_parseImpasFile hn h)
    · exact .inr h

theorem not_mem_of_isName {name : Text} {c : Char} (h : py.IsName name) (hc : py.isWord c = false) :
    c ∉ name := by
  intro hmem
  simp [h.2 c hmem] at hc

theorem isWord_eq_false {c : Char} (h : c.toNat < 128) (ha : c.isAlphanum = false) (hu : c ≠ '_') :
    py.isWord c = false := by
  simp [isWord, py.isAlnum_ascii c h, ha, hu]

theorem relAt_relText {name : Text} (h : py.IsName name) :
    py.relAt (relText name) = some ((name, chars "0"), []) := by
  have hlit : Scan.lit (chars ".rel") (relText name) = some (' ' :: (name ++ chars " = 0")) :=
    Scan.lit_eq_some.mpr rfl
  have hblank : Scan.run isSpace (' ' :: (name ++ chars " = 0")) =
      some ([' '], name ++ chars " = 0") := by
    obtain ⟨c, name, rfl⟩ := List.exists_cons_of_ne_nil h.1
    exact Scan.run_append (s := [' ']) (List.cons_ne_nil _ _) (by decide)
      (not_isSpace_of_isWord (h.2 c List.mem_cons_self))
  have hname : Scan.run py.isWord (name ++ chars " = 0") = some (name, chars " = 0") :=
    Scan.run_append h.1 h.2 (not_isWord_of_isSpace (by decide))
  have hdigit : (py.decimal '0').isSome := by simp [py.decimal_ascii '0' (by decide)]
  have hdigits : Scan.run (fun c => (py.decimal c).isSome) (chars "0") = some (chars "0", []) := by
    simp [Scan.run, chars, hdigit]
  have hspace : (chars " = 0").dropWhile isSpace = chars "= 0" := by decide
  have heq : Scan.lit ['='] (chars "= 0") = some (chars " 0") := by decide
  have hzero : (chars " 0").dropWhile isSpace = chars "0" := by decide
  simp only [relAt, hlit, hblank, hname, hspace, heq, hzero, hdigits, bind, Option.bind, pure]
  rfl

theorem findIter_relText {name : Text} (h : py.IsName name) {m : Scan.Matcher Char (Text × Text)}
    (qs : List Text) (hm : ∀ t, (m t).isSome → ∃ q ∈ qs, q <+: t)
    (hqs : ∀ q ∈ qs, q.head? = some '.' ∧ Scan.Avoids q (chars ".rel ")) :
    Scan.findIter m (relText name) = [] := by
  have hdot : '.' ∉ name ++ chars " = 0" := by
    have hname : '.' ∉ name :=
      not_mem_of_isName h (isWord_eq_false (by decide) (by decide) (by decide))
    have htail : '.' ∉ chars " = 0" := by decide
    simp [hname, htail]
  refine Scan.findIter_eq_nil_of_avoids hm fun q hq => ?_
  obtain ⟨hhead, havoids⟩ := hqs q hq
  obtain ⟨q, rfl⟩ := List.head?_eq_some_iff.mp hhead
  exact havoids.append (Scan.avoids_of_not_mem hdot)

theorem parseImpasFile_relText {name : Text} (h : py.IsName name) :
    (py.parseImpasFile K (relText name)).2 = K.insert name 0 := by
  have hreturn : '\r' ∉ relText name := by
    have hname : '\r' ∉ name := not_mem_of_isName h (not_isWord_of_isSpace (by decide))
    have hhead : '\r' ∉ chars ".rel " := by decide
    have htail : '\r' ∉ chars " = 0" := by decide
    simp [relText, hhead, hname, htail]
  have hcsr : Scan.findIter py.csrInlineAt (relText name) = [] :=
    findIter_relText h [chars ".csr_inline"]
      (fun t ht => ⟨_, List.mem_singleton_self _, isSome_fullBlockAt ht⟩) (by decide)
  have hfloat : Scan.findIter py.arrayFloatAt (relText name) = [] :=
    findIter_relText h [chars ".array_float"]
      (fun t ht => ⟨_, List.mem_singleton_self _, isSome_blockAt ht⟩) (by decide)
  have hint : Scan.findIter py.arrayIntAt (relText name) = [] :=
    findIter_relText h intKeywords (fun t ht => isSome_arrayIntAt ht) (by decide)
  have hvrel : Scan.findIter py.vrelAt (relText name) = [] :=
    findIter_relText h [chars ".vrel"]
      (fun t ht => ⟨_, List.mem_singleton_self _, isSome_fullBlockAt ht⟩) (by decide)
  have hrel : Scan.findIter py.relAt (relText name) = [(name, chars "0")] := by
    have hmatch : py.relAt (relText name ++ []) = some ((name, chars "0"), []) := by
      simpa using relAt_relText h
    have hne : relText name ≠ [] := List.cons_ne_nil _ _
    have hfind := Scan.findIter_append_of_match hne hmatch
    rwa [List.append_nil] at hfind
  have hdata : py.dataSection (relText name) = .ok {} := by
    simp only [dataSection, hcsr, hfloat, hint]
    rfl
  have hzero : py.int (chars "0") = .ok 0 := py.int_decimalText (n := 0) (by decide)
  simp only [parseImpasFile, Text.universalNewlines_of_not_mem hreturn, hdata, hrel, hvrel,
    bindRels, hzero, bindVrels]

theorem mem_process_relText {names : List Text} (h : ∀ t ∈ names, py.IsName t) (ht : t ∈ names) :
    t ∈ py.process K (names.map relText) := by
  induction names generalizing K with
  | nil => cases ht
  | cons name names ih =>
    obtain ⟨hname, hnames⟩ := List.forall_mem_cons.mp h
    rcases List.mem_cons.mp ht with rfl | ht
    · have hmem : t ∈ (py.parseImpasFile K (relText t)).2 := by
        simp [parseImpasFile_relText hname]
      exact mem_process (K := (py.parseImpasFile K (relText t)).2) hmem
    · exact ih hnames ht

/-- A file is accepted after every history exactly if the process accepts it as its first file,
and after some history exactly if it is well-formed and each of its free tokens on which
`parse_val` raises is known or can become a name. -/
theorem parseImpasFile_isOk_histories :
    ((∀ history, (py.parseImpasFile (py.process K history) text).1.isOk) ↔
        (py.parseImpasFile K text).1.isOk) ∧
      ((∃ history, (py.parseImpasFile (py.process K history) text).1.isOk) ↔
        py.WellFormed text ∧
          ∀ t ∈ py.freeTokens text, t ∈ K ∨ py.IsName t ∨ ¬ py.Malformed t) := by
  simp only [parseImpasFile_isOk_iff]
  constructor
  · constructor
    · intro h
      exact h []
    · rintro ⟨hwf, hfree⟩ history
      exact ⟨hwf, fun t ht => (hfree t ht).imp_left mem_process⟩
  · constructor
    · rintro ⟨history, hwf, hfree⟩
      refine ⟨hwf, fun t ht => ?_⟩
      rcases hfree t ht with h | h
      · exact (mem_or_isName_of_mem_process h).imp_right .inl
      · exact .inr (.inr h)
    · rintro ⟨hwf, hfree⟩
      classical
      -- One file for each free token that can become a name.
      refine ⟨((py.freeTokens text).filter (py.IsName ·)).map relText, hwf, fun t ht => ?_⟩
      rcases hfree t ht with h | h | h
      · exact .inl (mem_process h)
      · exact .inl (mem_process_relText (by simp) (by simp [ht, h]))
      · exact .inr h

/-- A misspelt register is accepted once another file has a relation of that name. -/
example :
    ¬ (Runtime.ascii.parseImpasFile constants (chars "OP_MOV R1, R2x")).1.isOk ∧
      (Runtime.ascii.parseImpasFile (Runtime.ascii.process constants [relText (chars "R2x")])
        (chars "OP_MOV R1, R2x")).1.isOk := by
  constructor <;> decide +kernel

end Runtime

end ImpulseTools

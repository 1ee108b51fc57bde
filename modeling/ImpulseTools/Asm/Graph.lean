import ImpulseTools.Asm.DataBlocks

/-! # Graphs in the data buffer

What the engine finds at the place of a graph: row `s` is what lies between row offsets `s` and
`s + 1`. The assembler numbers the rows by the order of the lines, not by the source ids.
-/

namespace ImpulseTools

/-- The words of the buffer from a byte on, as far as they are complete. -/
def wordsFrom (data : List Byte) (off : ℕ) : List ℕ := readWords (data.drop off)

def csrRow (data : List Byte) (off n s : ℕ) : Option (List ℕ) :=
  if s < n then do
    let a ← (wordsFrom data off)[s]?
    let b ← (wordsFrom data off)[s + 1]?
    some ((((wordsFrom data off).drop (n + 1)).take b).drop a)
  else none

/-- A graph of `n` rows lies in the buffer: its row offsets start at 0 and never decrease, and
its targets, as many as the last offset says, end before the buffer does. -/
def CsrAt (data : List Byte) (off n : ℕ) : Prop :=
  ∃ m, (wordsFrom data off)[n]? = some m ∧ off + 4 * (n + 1 + m) ≤ data.length ∧
    (wordsFrom data off)[0]? = some 0 ∧ ((wordsFrom data off).take (n + 1)).Pairwise (· ≤ ·)

theorem readWords_append (ws : List (BitVec 32)) (t : List Byte) :
    readWords (wordBytes ws ++ t) = ws.map BitVec.toNat ++ readWords t := by
  induction ws with
  | nil => rfl
  | cons w ws ih =>
    rw [wordBytes, List.flatMap_cons, List.append_assoc, readWords_le32, ← wordBytes, ih]
    rfl

theorem wordsFrom_append (pre : List Byte) (ws : List (BitVec 32)) (post : List Byte) :
    wordsFrom (pre ++ wordBytes ws ++ post) pre.length = ws.map BitVec.toNat ++ readWords post := by
  rw [wordsFrom, List.append_assoc, List.drop_left, readWords_append]

namespace Content

variable {rows : List (List (BitVec 32))} {fits : rows.flatten.length < 2 ^ 32}

theorem wordsFrom_csr (pre post : List Byte) :
    wordsFrom (pre ++ (csr rows fits).bytes ++ post) pre.length =
      Concat.offsets rows ++ (rows.flatten.map BitVec.toNat ++ readWords post) := by
  rw [bytes, wordsFrom_append, map_words_csr, List.append_assoc]

theorem csrRow_csr (pre post : List Byte) (s : ℕ) :
    csrRow (pre ++ (csr rows fits).bytes ++ post) pre.length rows.length s =
      rows[s]?.map (List.map BitVec.toNat) := by
  unfold csrRow
  split
  · rename_i hs
    obtain ⟨a, b, ha, hb, hslice⟩ := (readsRows rows).slice s rows[s] (List.getElem?_eq_getElem hs)
    have hget {i c : ℕ} (hi : (Concat.offsets rows)[i]? = some c) (t : List ℕ) :
        (Concat.offsets rows ++ t)[i]? = some c := by
      rw [List.getElem?_append_left (List.getElem?_eq_some_iff.mp hi).1, hi]
    have hb' : b ≤ (rows.flatten.map BitVec.toNat).length := by
      rw [List.length_map]
      exact Concat.le_of_mem_offsets (List.mem_of_getElem? hb)
    rw [wordsFrom_csr, hget ha, hget hb, ← Concat.length_offsets rows, List.drop_left]
    simp only [Option.bind_eq_bind, Option.bind_some, List.take_append_of_le_length hb', hslice,
      List.getElem?_eq_getElem hs, Option.map_some]
  · rename_i hs
    rw [List.getElem?_eq_none (not_lt.mp hs)]
    rfl

theorem csrAt_csr (pre post : List Byte) :
    CsrAt (pre ++ (csr rows fits).bytes ++ post) pre.length rows.length := by
  have h := readsRows rows
  have hlast : (Concat.offsets rows)[rows.length]? = some rows.flatten.length := by
    rw [h.last, List.length_map]
  refine ⟨rows.flatten.length, ?_, ?_, ?_, ?_⟩
  · rw [wordsFrom_csr, List.getElem?_append_left (List.getElem?_eq_some_iff.mp hlast).1, hlast]
  · simp only [List.length_append, bytes, length_wordBytes, words, List.length_map,
      Concat.length_offsets]
    omega
  · rw [wordsFrom_csr, List.getElem?_append_left (List.getElem?_eq_some_iff.mp h.first).1, h.first]
  · rw [wordsFrom_csr, ← Concat.length_offsets rows, List.take_left]
    exact h.sorted

end Content

/-- The lines of the body of a graph that have a colon, cut there. -/
def rowLines (body : Text) : List (Text × Text) :=
  body.splitlines.filterMap fun l =>
    match Scan.cut ':' l.strip with
    | (src, some tgt) => some (src, tgt)
    | (_, none) => none

theorem map_snd_rowLines (body : Text) :
    (rowLines body).map Prod.snd = rowTexts body.splitlines := by
  simp only [rowLines, rowTexts, List.map_filterMap]
  apply List.filterMap_congr
  intro l _
  rcases Scan.cut ':' l.strip with ⟨src, _ | tgt⟩ <;> rfl

namespace Runtime

variable (py : Runtime)

def sourceId (src : Text) : Option ℕ :=
  match py.int src with
  | .ok v => if 0 ≤ v then some v.toNat else none
  | .error _ => none

structure MapsSources (data : List Byte) (off n : ℕ) (body : Text) : Prop where
  listed : ∀ l ∈ rowLines body, ∀ s, py.sourceId l.1 = some s → ∀ ts, py.rowTargets l.2 = .ok ts →
    (csrRow data off n s).map (List.map (↑)) = some ts
  unlisted : ∀ s < n, (∀ l ∈ rowLines body, py.sourceId l.1 ≠ some s) →
    csrRow data off n s = some []

/-- A line for node `s` lists what the line in position `s` does, and a position that is no
line's node has an empty list. In particular the lines may be those of nodes 0, 1, 2, … in order. -/
structure SourcesPlaced (body : Text) : Prop where
  listed : ∀ l ∈ rowLines body, ∀ s, py.sourceId l.1 = some s →
    ∃ l', (rowLines body)[s]? = some l' ∧ py.rowTargets l'.2 = py.rowTargets l.2
  unlisted : ∀ s l', (rowLines body)[s]? = some l' →
    (∀ l ∈ rowLines body, py.sourceId l.1 ≠ some s) → py.rowTargets l'.2 = .ok []

variable {py}

theorem prefix_foldlM {f : DataSection → Text × Text → Except PyErr DataSection}
    (hf : ∀ d m d', f d m = .ok d' → d.bytes <+: d'.bytes) {d d' : DataSection}
    {ms : List (Text × Text)} (h : ms.foldlM f d = .ok d') : d.bytes <+: d'.bytes :=
  ExceptFold.foldlM_induction (P := fun _ (d' : DataSection) => d.bytes <+: d'.bytes)
    List.prefix_rfl (fun _ m d₁ d₂ h₁ h₂ => h₁.trans (hf d₁ m d₂ h₂)) h

theorem prefix_csrInline {d d' : DataSection} {m : Text × Text} (h : py.csrInline d m = .ok d') :
    d.bytes <+: d'.bytes := by
  obtain ⟨b, -, ha⟩ := csrInline_appends h
  exact ⟨_, ha.bytes_eq.symm⟩

theorem prefix_arrayFloat {d d' : DataSection} {m : Text × Text}
    (h : py.arrayFloat d m = .ok d') : d.bytes <+: d'.bytes := by
  simp only [arrayFloat, ExceptFold.bind_eq_ok, pure, Except.pure, Except.ok.injEq] at h
  obtain ⟨_, -, _, -, rfl⟩ := h
  exact (List.prefix_append _ _).trans (List.prefix_append _ _)

theorem prefix_arrayInt {d d' : DataSection} {m : Text × Text}
    (h : py.arrayInt d m = .ok d') : d.bytes <+: d'.bytes := by
  simp only [arrayInt, ExceptFold.bind_eq_ok, pure, Except.pure, Except.ok.injEq] at h
  obtain ⟨_, -, _, -, rfl⟩ := h
  exact (List.prefix_append _ _).trans (List.prefix_append _ _)

theorem data_eq_bytes {K K' : Constants} {text : Text} {p : Program}
    (h : py.parseImpasFile K text = (.ok p, K')) :
    ∃ d, py.dataSection text.universalNewlines = .ok d ∧ p.data = d.bytes := by
  obtain ⟨d, _, _, _, hd, -, -, hp⟩ := parseImpasFile_eq_ok.mp h
  obtain ⟨_, ha⟩ := foldlM_parseLine hp
  exact ⟨d, hd, ha.data_eq⟩

/-- Where the `k`-th graph of a file is, and what it holds. -/
theorem exists_graph {K K' : Constants} {text : Text} {p : Program}
    (h : py.parseImpasFile K text = (.ok p, K')) {k : ℕ} {m : Text × Text}
    (hk : (Scan.findIter py.csrInlineAt text.universalNewlines)[k]? = some m) :
    ∃ d rows fits pre post,
      ((Scan.findIter py.csrInlineAt text.universalNewlines).take (k + 1)).foldlM
        py.csrInline {} = .ok d ∧
      d.symbols.lookup m.1 = some ⟨pre.length, .num rows.length⟩ ∧
      p.data = pre ++ (Content.csr rows fits).bytes ++ post ∧
      List.Forall₂ (fun l row => py.rowTargets l.2 = .ok (row.map wordInt)) (rowLines m.2)
        rows := by
  obtain ⟨df, hdf, hp⟩ := data_eq_bytes h
  simp only [dataSection, ExceptFold.bind_eq_ok] at hdf
  obtain ⟨d₁, h₁, d₂, h₂, h₃⟩ := hdf
  obtain ⟨d₀, d, hm, hd, hrest⟩ := ExceptFold.foldlM_around h₁ hk
  obtain ⟨_, ⟨hrows⟩, ha⟩ := csrInline_appends hm
  rename_i rows fits
  obtain ⟨post, hpost⟩ : d.bytes <+: p.data := by
    rw [hp]
    apply (prefix_foldlM (fun _ _ _ => prefix_csrInline) hrest).trans
    apply (prefix_foldlM (fun _ _ _ => prefix_arrayFloat) h₂).trans
    exact prefix_foldlM (fun _ _ _ => prefix_arrayInt) h₃
  refine ⟨d, rows, fits, d₀.bytes, post, hd, ?_, ?_, ?_⟩
  · rw [ha.symbols_eq, AList.lookup_insert]
    rfl
  · rw [← hpost, ha.bytes_eq]
  · rwa [← map_snd_rowLines, List.forall₂_map_left_iff] at hrows

theorem mapsSources_iff {body : Text} {rows : List (List (BitVec 32))}
    {fits : rows.flatten.length < 2 ^ 32}
    (hrows : List.Forall₂ (fun l row => py.rowTargets l.2 = .ok (row.map wordInt))
      (rowLines body) rows) (pre post : List Byte) :
    MapsSources py (pre ++ (Content.csr rows fits).bytes ++ post) pre.length rows.length body ↔
      SourcesPlaced py body := by
  have hmap (row : List (BitVec 32)) :
      (row.map BitVec.toNat).map (fun n : ℕ => (n : ℤ)) = row.map wordInt := by
    rw [List.map_map]
    rfl
  have hlen := hrows.length_eq
  constructor
  · rintro ⟨hl, hu⟩
    constructor
    · intro l hmem s hs
      obtain ⟨row, -, hrow⟩ := ExceptFold.exists_of_mem_left hrows hmem
      have h := hl l hmem s hs _ hrow
      rw [Content.csrRow_csr, Option.map_map, Option.map_eq_some_iff] at h
      obtain ⟨row', hrow', heq⟩ := h
      obtain ⟨l', hl', hrow''⟩ := ExceptFold.exists_getElem?_right hrows hrow'
      refine ⟨l', hl', ?_⟩
      rw [hrow'', hrow, ← heq, Function.comp_apply, hmap]
    · intro s l' hl' hs
      obtain ⟨row, hrow, ht⟩ := ExceptFold.exists_getElem? hrows hl'
      have h := hu s (List.getElem?_eq_some_iff.mp hrow).1 hs
      rw [Content.csrRow_csr, hrow, Option.map_some, Option.some.injEq] at h
      rw [ht, ← hmap, h]
      rfl
  · rintro ⟨hl, hu⟩
    constructor
    · intro l hmem s hs ts hts
      obtain ⟨l', hl', heq⟩ := hl l hmem s hs
      obtain ⟨row, hrow, ht⟩ := ExceptFold.exists_getElem? hrows hl'
      rw [Content.csrRow_csr, hrow, Option.map_some, Option.map_some, hmap]
      rw [← heq, ht] at hts
      exact congrArg some (Except.ok.inj hts)
    · intro s hlt hs
      have hlt' : s < (rowLines body).length := hlen ▸ hlt
      obtain ⟨row, hrow, ht⟩ := ExceptFold.exists_getElem? hrows (List.getElem?_eq_getElem hlt')
      rw [hu s _ (List.getElem?_eq_getElem hlt') hs] at ht
      rw [Content.csrRow_csr, hrow, Option.map_some]
      rw [List.map_eq_nil_iff.mp (Except.ok.inj ht).symm]
      rfl

/-- The rows of a graph are those its lines declare exactly when every line stands at the position
of its source id, up to lines with the same targets. -/
theorem csr_inline_maps_iff {K K' : Constants} {text : Text} {p : Program}
    (h : py.parseImpasFile K text = (.ok p, K')) {k : ℕ} {m : Text × Text}
    (hk : (Scan.findIter py.csrInlineAt text.universalNewlines)[k]? = some m) :
    ∃ (d : DataSection) (off n : ℕ),
      ((Scan.findIter py.csrInlineAt text.universalNewlines).take (k + 1)).foldlM
        py.csrInline {} = .ok d ∧
      d.symbols.lookup m.1 = some ⟨off, .num n⟩ ∧
      (MapsSources py p.data off n m.2 ↔ SourcesPlaced py m.2) := by
  obtain ⟨d, rows, fits, pre, post, hd, hlookup, hdata, hrows⟩ := exists_graph h hk
  refine ⟨d, pre.length, rows.length, hd, hlookup, ?_⟩
  rw [hdata]
  exact mapsSources_iff hrows pre post

theorem csr_inline_maps_iff_in_order :
    ∃ p K' m, Runtime.ascii.parseImpasFile constants
        (chars ".csr_inline g = \x7b 0: [1, 2]\n 1: [0] \x7d") = (.ok p, K') ∧
      ∃ (d : DataSection) (off n : ℕ), d.symbols.lookup (chars "g") = some ⟨off, .num n⟩ ∧
        MapsSources Runtime.ascii p.data off n m ∧
        rowLines m = [(chars "0", chars " [1, 2]"), (chars "1", chars " [0]")] := by
  obtain ⟨p, hp⟩ := exists_program Runtime.ascii constants
    (chars ".csr_inline g = \x7b 0: [1, 2]\n 1: [0] \x7d") (by decide +kernel)
  have hm : (Scan.findIter Runtime.ascii.csrInlineAt
      (chars ".csr_inline g = \x7b 0: [1, 2]\n 1: [0] \x7d").universalNewlines)[0]? =
        some (chars "g", chars " 0: [1, 2]\n 1: [0] ") := by decide +kernel
  have hlines : rowLines (chars " 0: [1, 2]\n 1: [0] ") =
      [(chars "0", chars " [1, 2]"), (chars "1", chars " [0]")] := by decide +kernel
  have h0 : Runtime.ascii.sourceId (chars "0") = some 0 := by decide +kernel
  have h1 : Runtime.ascii.sourceId (chars "1") = some 1 := by decide +kernel
  obtain ⟨d, off, n, -, hlookup, hiff⟩ := csr_inline_maps_iff hp hm
  refine ⟨p, _, _, hp, d, off, n, hlookup, hiff.mpr ⟨?_, ?_⟩, hlines⟩
  · intro l hl s hs
    simp only [hlines, List.mem_cons, List.not_mem_nil, or_false] at hl
    rcases hl with rfl | rfl
    · obtain rfl : 0 = s := Option.some.inj (h0.symm.trans hs)
      exact ⟨_, by rw [hlines]; rfl, rfl⟩
    · obtain rfl : 1 = s := Option.some.inj (h1.symm.trans hs)
      exact ⟨_, by rw [hlines]; rfl, rfl⟩
  · intro s l' hl' hs
    rw [hlines] at hl' hs
    match s with
    | 0 => exact absurd h0 (hs _ (.head _))
    | 1 => exact absurd h1 (hs _ (.tail _ (.head _)))
    | s + 2 => simp at hl'

/-- The targets of node 1 become those of node 0. -/
theorem csr_inline_swaps_rows :
    ∃ p K' m, Runtime.ascii.parseImpasFile constants
        (chars ".csr_inline g = \x7b 1: [5]\n 0: [7] \x7d") = (.ok p, K') ∧
      (Scan.findIter Runtime.ascii.csrInlineAt
        (chars ".csr_inline g = \x7b 1: [5]\n 0: [7] \x7d").universalNewlines)[0]? = some m ∧
      (rowLines m.2).map (fun l => Runtime.ascii.sourceId l.1) = [some 1, some 0] ∧
      (∃ d : DataSection, [m].foldlM Runtime.ascii.csrInline {} = .ok d ∧
        d.symbols.lookup m.1 = some ⟨0, .num 2⟩) ∧
      ¬ MapsSources Runtime.ascii p.data 0 2 m.2 := by
  obtain ⟨p, hp⟩ := exists_program Runtime.ascii constants
    (chars ".csr_inline g = \x7b 1: [5]\n 0: [7] \x7d") (by decide +kernel)
  have hdata : ((Runtime.ascii.parseImpasFile constants
      (chars ".csr_inline g = \x7b 1: [5]\n 0: [7] \x7d")).1.toOption.map (·.data)) =
        some (wordBytes [0, 1, 2, 5, 7]) := by decide +kernel
  rw [hp] at hdata
  have hdata : p.data = wordBytes [0, 1, 2, 5, 7] := Option.some.inj hdata
  refine ⟨p, _, (chars "g", chars " 1: [5]\n 0: [7] "), hp, by decide +kernel, by decide +kernel,
    ?_, ?_⟩
  · obtain ⟨d, hd⟩ := ExceptFold.exists_of_isOk
      (x := [(chars "g", chars " 1: [5]\n 0: [7] ")].foldlM Runtime.ascii.csrInline {})
      (by decide +kernel)
    have hlookup : (([(chars "g", chars " 1: [5]\n 0: [7] ")].foldlM Runtime.ascii.csrInline
        {}).toOption.bind fun d => d.symbols.lookup (chars "g")) = some ⟨0, .num 2⟩ := by
      decide +kernel
    rw [hd] at hlookup
    exact ⟨d, hd, hlookup⟩
  · rintro ⟨hl, -⟩
    have hts : Runtime.ascii.rowTargets (chars " [5]") = .ok [5] := by
      rw [← ExceptFold.toOption_eq_some]
      decide +kernel
    have h := hl (chars "1", chars " [5]") (by decide +kernel) 1 (by decide +kernel) [5] hts
    rw [hdata] at h
    exact absurd h (by decide +kernel)

end Runtime

end ImpulseTools

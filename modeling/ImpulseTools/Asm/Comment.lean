import ImpulseTools.Asm.Lines

/-! # Comments

The loop over the lines passes over comments, and the directive expressions, which search the
whole text, do not: a comment is transparent as long as they find the same directives without it.
-/

namespace ImpulseTools

namespace Runtime

variable {py : Runtime} {K : Constants} {env : Env} {text text' : Text}
  {before after : List Text} {line : Text}

theorem parseLine_comment (hc : line.strip.startsWith [';'])
    (he : Scan.findIter expectAt line.strip = []) (p : Program) :
    py.parseLine env p line = .ok p := by
  have hf : ¬ line.strip.startsWith (chars ".fuel") := by
    intro hf
    obtain ⟨r, hr⟩ := Option.isSome_iff_exists.mp hf
    obtain ⟨r', hr'⟩ := Option.isSome_iff_exists.mp hc
    rw [Scan.lit_eq_some] at hr hr'
    rw [hr] at hr'
    exact absurd (List.cons.inj hr').1 (by decide)
  have hl : py.instructionLine line.strip = none := if_pos (.inr (.inl hc))
  simp only [parseLine, expectLine_of_nil he, bind, Except.bind, if_neg hf, hl, pure, Except.pure]

theorem foldlM_comment (hc : line.strip.startsWith [';'])
    (he : Scan.findIter expectAt line.strip = []) (p : Program) :
    (before ++ line :: after).foldlM (py.parseLine env) p =
      (before ++ after).foldlM (py.parseLine env) p := by
  rw [List.foldlM_append, List.foldlM_append]
  refine bind_congr fun p => ?_
  rw [List.foldlM_cons, parseLine_comment hc he]
  rfl

def SameDirectives (py : Runtime) (text text' : Text) : Prop :=
  ∀ pass, Scan.findIter (py.passAt pass) text = Scan.findIter (py.passAt pass) text'

theorem passAt_head {pass : Pass} {c : Char} {t : Text}
    (h : (py.passAt pass (c :: t)).isSome) : c = '.' := by
  have hprefix {q : Text} (hq : q.head? = some '.') (hp : q <+: c :: t) : c = '.' := by
    obtain ⟨r, hr⟩ := hp
    cases q with
    | nil => cases hq
    | cons d q =>
      obtain rfl := Option.some.inj hq
      exact (List.cons.inj hr).1.symm
  cases pass with
  | csrInline => exact hprefix rfl (isSome_fullBlockAt h)
  | arrayFloat => exact hprefix rfl (isSome_blockAt h)
  | arrayInt =>
    have hdot : ∀ q ∈ intKeywords, q.head? = some '.' := by decide
    obtain ⟨q, hq, hp⟩ := isSome_arrayIntAt h
    exact hprefix (hdot q hq) hp
  | rel => exact hprefix rfl (isSome_relAt h)
  | vrel => exact hprefix rfl (isSome_fullBlockAt h)

theorem silent_of_not_mem (h : '.' ∉ line) (t : Text) (pass : Pass) :
    Scan.Silent (py.passAt pass) line t := by
  rintro u c v rfl
  rw [← Option.not_isSome_iff_eq_none]
  intro hm
  obtain rfl := passAt_head hm
  exact h (List.mem_append_right u List.mem_cons_self)

theorem findIter_passAt_of_not_mem (h : '.' ∉ text) (pass : Pass) :
    Scan.findIter (py.passAt pass) text = [] := by
  rw [← List.append_nil text, Scan.findIter_append_of_silent (silent_of_not_mem h [] pass)]
  rfl

/-- A text without a period has no directives: only the loop over the lines does anything. -/
theorem parseImpasFile_of_not_mem (hr : '\r' ∉ text) (hdot : '.' ∉ text) :
    py.parseImpasFile K text =
      (text.readlines.foldlM (py.parseLine ⟨K, ∅, ∅⟩) { data := [] }, K) := by
  have hcsr : Scan.findIter py.csrInlineAt text = [] := findIter_passAt_of_not_mem hdot .csrInline
  have hfloat : Scan.findIter py.arrayFloatAt text = [] :=
    findIter_passAt_of_not_mem hdot .arrayFloat
  have hint : Scan.findIter py.arrayIntAt text = [] := findIter_passAt_of_not_mem hdot .arrayInt
  have hrel : Scan.findIter py.relAt text = [] := findIter_passAt_of_not_mem hdot .rel
  have hvrel : Scan.findIter py.vrelAt text = [] := findIter_passAt_of_not_mem hdot .vrel
  have hdata : py.dataSection text = .ok {} := by
    rw [dataSection, hcsr, hfloat, hint]
    rfl
  simp only [parseImpasFile, Text.universalNewlines_of_not_mem hr, hdata, hrel, hvrel, bindRels,
    bindVrels]

/-- A line that no open directive reaches and in which none begins leaves the directives. -/
theorem sameDirectives_insert (hlines : text.universalNewlines.readlines = before ++ after)
    (hlines' : text'.universalNewlines.readlines = before ++ line :: after)
    (hs : ∀ pass, Scan.Closed (py.passAt pass) before.flatten after.flatten)
    (hx : ∀ pass, Scan.Closed (py.passAt pass) before.flatten (line ++ after.flatten))
    (hn : ∀ pass, Scan.Silent (py.passAt pass) line after.flatten) :
    py.SameDirectives text'.universalNewlines text.universalNewlines := by
  have htext : text.universalNewlines = before.flatten ++ after.flatten := by
    rw [← List.flatten_append, ← hlines, Text.readlines, Scan.flatten_splitAfter]
  have htext' : text'.universalNewlines = before.flatten ++ (line ++ after.flatten) := by
    rw [← List.flatten_cons, ← List.flatten_append, ← hlines', Text.readlines,
      Scan.flatten_splitAfter]
  intro pass
  rw [htext, htext']
  exact Scan.findIter_insert (hs pass) (hx pass) (hn pass)

/-- A comment between two lines changes neither the result nor the constants, if the expressions
find the same directives with it as without it. -/
theorem parseImpasFile_comment (hlines : text.universalNewlines.readlines = before ++ after)
    (hlines' : text'.universalNewlines.readlines = before ++ line :: after)
    (hc : line.strip.startsWith [';']) (he : Scan.findIter expectAt line.strip = [])
    (hd : py.SameDirectives text'.universalNewlines text.universalNewlines) :
    py.parseImpasFile K text' = py.parseImpasFile K text := by
  have hcsr : Scan.findIter py.csrInlineAt text'.universalNewlines =
    Scan.findIter py.csrInlineAt text.universalNewlines := hd .csrInline
  have hfloat : Scan.findIter py.arrayFloatAt text'.universalNewlines =
    Scan.findIter py.arrayFloatAt text.universalNewlines := hd .arrayFloat
  have hint : Scan.findIter py.arrayIntAt text'.universalNewlines =
    Scan.findIter py.arrayIntAt text.universalNewlines := hd .arrayInt
  have hrel : Scan.findIter py.relAt text'.universalNewlines =
    Scan.findIter py.relAt text.universalNewlines := hd .rel
  have hvrel : Scan.findIter py.vrelAt text'.universalNewlines =
    Scan.findIter py.vrelAt text.universalNewlines := hd .vrel
  have hdata : py.dataSection text'.universalNewlines = py.dataSection text.universalNewlines := by
    rw [dataSection, dataSection, hcsr, hfloat, hint]
  simp only [parseImpasFile, hdata, hrel, hvrel, hlines, hlines', foldlM_comment hc he]

theorem parseImpasFile_comment_walk :
    Runtime.ascii.parseImpasFile constants
        (chars ".rel KNOWS = 1\n; .rel is above.\nOP_CSR_WALK R1, R0, KNOWS") =
      Runtime.ascii.parseImpasFile constants
        (chars ".rel KNOWS = 1\nOP_CSR_WALK R1, R0, KNOWS") := by
  have hlines : (chars ".rel KNOWS = 1\nOP_CSR_WALK R1, R0, KNOWS").universalNewlines.readlines =
      [chars ".rel KNOWS = 1\n"] ++ [chars "OP_CSR_WALK R1, R0, KNOWS"] := by decide +kernel
  have hlines' : (chars ".rel KNOWS = 1\n; .rel is above.\nOP_CSR_WALK R1, R0, KNOWS"
      ).universalNewlines.readlines = [chars ".rel KNOWS = 1\n"] ++ chars "; .rel is above.\n" ::
        [chars "OP_CSR_WALK R1, R0, KNOWS"] := by decide +kernel
  apply parseImpasFile_comment hlines hlines'
  · decide +kernel
  · decide +kernel
  · intro pass
    cases pass <;> decide +kernel

/-- A directive in a comment binds a name that the next line reads. -/
theorem comment_binds :
    (chars "; .rel R5 = 7\nOP_MOV R5, R1").universalNewlines.readlines =
        chars "; .rel R5 = 7\n" :: (chars "OP_MOV R5, R1").universalNewlines.readlines ∧
      Scan.findIter expectAt (chars "; .rel R5 = 7") = [] ∧
      (Runtime.ascii.parseImpasFile constants (chars "OP_MOV R5, R1")).1.toOption.map
        (·.instructions) = some [⟨0x70, 0, 5, 1⟩] ∧
      (Runtime.ascii.parseImpasFile constants (chars "; .rel R5 = 7\nOP_MOV R5, R1")).1.toOption.map
        (·.instructions) = some [⟨0x70, 0, 7, 1⟩] := by
  refine ⟨?_, ?_, ?_, ?_⟩ <;> decide +kernel

end Runtime

end ImpulseTools

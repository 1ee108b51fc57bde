import ImpulseTools.Asm.Format
import ImpulseTools.Asm.Run

/-! # Lines the assembler takes

Which lines the loop accepts whatever came before them, and the words each appends.
-/

namespace ImpulseTools

namespace Runtime

variable {py : Runtime} {env : Env}

/-- The loop accepts the line, in any state, and appends the given words. -/
def Adds (py : Runtime) (env : Env) (line : Text) (ws : List Instruction) : Prop :=
  ∀ p, ∃ p', py.parseLine env p line = .ok p' ∧ p'.instructions = p.instructions ++ ws

theorem foldlM_adds {lines : List Text} {wss : List (List Instruction)}
    (h : List.Forall₂ (py.Adds env) lines wss) (p : Program) :
    ∃ p', lines.foldlM (py.parseLine env) p = .ok p' ∧
      p'.instructions = p.instructions ++ wss.flatten := by
  induction h generalizing p with
  | nil => exact ⟨p, rfl, (List.append_nil _).symm⟩
  | @cons line ws _ _ hl _ ih =>
    obtain ⟨p₁, h₁, hi₁⟩ := hl p
    obtain ⟨p₂, h₂, hi₂⟩ := ih p₁
    refine ⟨p₂, ExceptFold.foldlM_cons_ok h₁ h₂, ?_⟩
    rw [hi₂, hi₁, List.flatten_cons, List.append_assoc]

theorem adds_concat {line : Text} {ws : List Instruction} (h : py.Adds env line ws) :
    py.Adds env (line ++ ['\n']) ws := by
  have hs : Text.strip (line ++ ['\n']) = line.strip := Scan.trim_concat (by decide)
  intro p
  rw [parseLine, hs]
  exact h p

theorem isSome_expectAt {t : Text} (h : (expectAt t).isSome) : ∃ q ∈ [[';']], q <+: t := by
  obtain ⟨r, hr⟩ := Option.isSome_iff_exists.mp h
  obtain ⟨u, hu, -⟩ := Option.bind_eq_some_iff.mp hr
  exact ⟨_, List.mem_singleton_self _, u, (Scan.lit_eq_some.mp hu).symm⟩

theorem findIter_expectAt {t : Text} (h : ';' ∉ t) : Scan.findIter expectAt t = [] := by
  refine Scan.findIter_eq_nil_of_avoids (fun _ => isSome_expectAt) fun q hq => ?_
  rw [List.mem_singleton.mp hq]
  exact Scan.avoids_of_not_mem h

theorem expectLine_of_nil {e : Expectations} {t : Text} (h : Scan.findIter expectAt t = []) :
    py.expectLine e t = .ok e := by
  rw [expectLine, h]
  rfl

theorem adds_none {line : Text} (he : ∀ e, ∃ e', py.expectLine e line.strip = .ok e')
    (hf : ¬ line.strip.startsWith (chars ".fuel")) (hl : py.instructionLine line.strip = none) :
    py.Adds env line [] := by
  intro p
  obtain ⟨e, he⟩ := he p.expectations
  refine ⟨{ p with expectations := e }, ?_, (List.append_nil _).symm⟩
  simp only [parseLine, he, bind, Except.bind, if_neg hf, hl, pure, Except.pure]

theorem adds_instruction {line : Text} {op : Op} {toks : List Text} {ws : List Instruction}
    (hs : ';' ∉ line.strip) (hl : py.instructionLine line.strip = some (op.name, toks))
    (hw : py.encode env op toks = .ok ws) : py.Adds env line ws := by
  have hf : ¬ line.strip.startsWith (chars ".fuel") := by
    intro hf
    rw [instructionLine_of_fuel hf] at hl
    cases hl
  intro p
  refine ⟨{ p with
    instructions := p.instructions ++ ws
    opcodesUsed := insert op.canonical p.opcodesUsed }, ?_, rfl⟩
  simp only [parseLine, expectLine_of_nil (findIter_expectAt hs), bind, Except.bind, if_neg hf,
    hl, Op.ofName?_name, hw, pure, Except.pure]

/-- A written line appends the words of its operands. -/
theorem adds_formatLine {addr : Text} {op : Op} {blanks : ℕ} {args : List Text}
    {ws : List Instruction} (haddr : ∀ c ∈ addr, isTokenChar c)
    (hdot : addr.head? ∉ [none, some '.']) (h : ArgsOk blanks args)
    (hw : py.encode env op (op.name :: args) = .ok ws) :
    py.Adds env (formatLine addr op blanks args) ws := by
  have hne : addr ≠ [] := fun hn => hdot (by simp [hn])
  refine adds_instruction ?_ (py.instructionLine_formatLine haddr hdot h) hw
  rw [strip_formatLine haddr hne h]
  exact not_mem_formatLine haddr h (by decide) (by decide)

theorem adds_directive {line : Text} (hd : line.strip = [] ∨ line.strip.startsWith ['.'])
    (hf : ¬ line.strip.startsWith (chars ".fuel")) (hs : ';' ∉ line.strip) :
    py.Adds env line [] := by
  refine adds_none (fun e => ⟨e, expectLine_of_nil (findIter_expectAt hs)⟩) hf (if_pos ?_)
  rcases hd with hd | hd
  · exact .inl hd
  · exact .inr (.inr hd)

theorem adds_row {line t : Text} (hs : ';' ∉ line.strip)
    (hf : ¬ line.strip.startsWith (chars ".fuel"))
    (htoks : (Scan.splitRuns (fun c => isSpace c || c == ',') (codePart line.strip)).headD [] =
      t) (hup : ∀ c ∈ t, c.toNat < 128 ∧ c.toUpper = c)
    (hop : ¬ t.startsWith (chars "OP_")) : py.Adds env line [] := by
  refine adds_none (fun e => ⟨e, expectLine_of_nil (findIter_expectAt hs)⟩) hf ?_
  unfold instructionLine
  split
  · rfl
  · split
    · rfl
    · simp only [htoks, py.upperText_of_forall hup, if_neg hop]

end Runtime

end ImpulseTools

import ImpulseTools.Asm.Overlap
import ImpulseTools.Lib.Concat

/-! # Jumps over extended lines

A line takes a second word when the relation or attribute id above its low half is over 255, so
that the distance of two lines in words is their distance in lines and one more for each such
line between them. A jump stores its operand as it is written.
-/

namespace ImpulseTools

theorem lor_shiftRight (v : ℤ) (m k : ℕ) : v.lor m >>> k = (v >>> k).lor (m >>> k : ℕ) := by
  cases v with
  | ofNat n => exact congrArg Int.ofNat (Nat.shiftRight_or_distrib ..)
  | negSucc n =>
    have h : Nat.ldiff n m >>> k = Nat.ldiff (n >>> k) (m >>> k) := by
      refine Nat.eq_of_testBit_eq fun i => ?_
      simp [Nat.testBit_ldiff, Nat.testBit_shiftRight]
    exact congrArg Int.negSucc h

namespace Runtime

variable {py : Runtime} {K : Constants} {env : Env} {op : Op} {toks : List Text}

/-- What is left of a field above bit `k` of the payload. -/
def fieldAbove (py : Runtime) (K : Constants) (toks : List Text) (k : ℕ) (g : Field) : ℤ :=
  py.fieldValue K toks g >>> k

theorem foldl_lor_shiftRight (gs : List Field) (q : ℤ) (k : ℕ) :
    gs.foldl (fun q g => q.lor (py.fieldValue K toks g)) q >>> k =
      gs.foldl (fun q g => q.lor (py.fieldAbove K toks k g)) (q >>> k) := by
  induction gs generalizing q with
  | nil => rfl
  | cons g gs ih =>
    rw [List.foldl_cons, List.foldl_cons, ih, fieldAbove, fieldValue_eq, lor_shiftRight]
    rfl

theorem fieldAbove_of_ge {g : Field} {k : ℕ} (h : k ≤ g.shift) :
    py.fieldAbove K toks k g = mask g.width (py.valueAt K toks g.tok) * 2 ^ (g.shift - k) := by
  have hpow : (2 : ℤ) ^ g.shift = 2 ^ (g.shift - k) * 2 ^ k := by
    rw [← pow_add, Nat.sub_add_cancel h]
  rw [fieldAbove, fieldValue, Int.shiftRight_eq_div_pow, hpow, ← mul_assoc]
  exact_mod_cast Int.mul_ediv_cancel _ (by positivity)

theorem fieldAbove_of_lt {g : Field} {k : ℕ} (h : g.shift ≤ k) :
    py.fieldAbove K toks k g = mask g.width (py.valueAt K toks g.tok) / 2 ^ (k - g.shift) := by
  have hpow : (2 : ℤ) ^ k = 2 ^ (k - g.shift) * 2 ^ g.shift := by
    rw [← pow_add, Nat.sub_add_cancel h]
  rw [fieldAbove, fieldValue, Int.shiftRight_eq_div_pow]
  push_cast
  rw [hpow, Int.mul_ediv_mul_of_pos_left _ _ (by positivity)]

theorem fieldAbove_of_le {g : Field} {k : ℕ} (h : g.shift + g.width ≤ k) :
    py.fieldAbove K toks k g = 0 := by
  rw [fieldAbove_of_lt (by omega)]
  refine Int.ediv_eq_zero_of_lt (mask_nonneg _ _) ((mask_lt _ _).trans_le ?_)
  exact pow_le_pow_right₀ one_le_two (by omega)

/-- The relation or attribute id of a line that may take two words, with the bits of other operands
that reach it, and 0 for any other line. -/
def relId (py : Runtime) (K : Constants) (op : Op) (toks : List Text) : ℤ :=
  let id (width i : ℕ) : ℤ := mask width (py.valueAt K toks i)
  match op with
  | .csrWalk | .csrDegree | .csrWalkState | .csrWalkReduceSum =>
    if (toks.getD 1 []).startsWith (chars "R") then id 16 3
    else (py.valueAt K toks 1 >>> (16 : ℕ)).lor (id 16 3)
  | .csrWalkFiltered => if toks.length = 4 then id 16 3 else id 16 4
  | .csrWalkPredicate | .gatherNodeAttr => id 16 4
  | .csrWalk2hop => if toks.length = 4 then id 16 3 else (id 16 3 / 2 ^ 8).lor (id 16 4)
  | .cscWalk => if toks.length = 4 then id 16 3 else (id 8 3).lor (id 8 4 * 2 ^ 8)
  | _ => 0

theorem payload_shiftRight (f : Form) (k : ℕ) :
    (py.formOperands K toks f).payload >>> k =
      f.fields.foldl (fun q g => q.lor (py.fieldAbove K toks k g))
        (py.valueOr K toks f.whole f.base >>> k) :=
  foldl_lor_shiftRight _ _ _

theorem defaultForm_shiftRight :
    (py.formOperands K toks (defaultForm toks)).payload >>> (16 : ℕ) =
      if (toks.getD 1 []).startsWith (chars "R") then mask 16 (py.valueAt K toks 3)
      else (py.valueAt K toks 1 >>> (16 : ℕ)).lor (mask 16 (py.valueAt K toks 3)) := by
  rw [payload_shiftRight, defaultForm]
  split_ifs
  · simp (disch := decide) [layout, fieldAbove_of_ge, fieldAbove_of_le, valueOr, zero_lor]
  · rw [Nat.cast_zero, valueOr_zero]
    simp (disch := decide) [layout, fieldAbove_of_ge, fieldAbove_of_le, lor_zero]

theorem exists_form_relId (hx : extendable op) : ∃ f, branch op toks = .form f ∧
    (py.formOperands K toks f).payload >>> (16 : ℕ) = py.relId K op toks := by
  have hmiss {i : ℕ} (hi : toks.length ≤ i) (w : ℕ) : mask w (py.valueAt K toks i) = 0 := by
    rw [valueAt_of_le hi]
    exact Int.zero_emod _
  have hmid : py.fieldAbove K toks 16 ⟨3, 16, 8⟩ = mask 16 (py.valueAt K toks 3) / 2 ^ 8 :=
    fieldAbove_of_lt (by decide)
  cases op <;> first | exact absurd hx (by decide) | skip
  case csrWalk | csrDegree | csrWalkState | csrWalkReduceSum =>
    exact ⟨_, defaultBranch_of_mem (by decide) toks, defaultForm_shiftRight⟩
  case csrWalkPredicate | gatherNodeAttr =>
    refine ⟨_, rfl, ?_⟩
    rw [payload_shiftRight]
    simp (disch := decide) [layout, fieldAbove_of_ge, fieldAbove_of_le, valueOr, zero_lor, relId]
  all_goals
    rcases lt_trichotomy toks.length 4 with hn | hn | hn
    · refine ⟨_, (if_neg hn.ne).trans (if_neg hn.not_gt), ?_⟩
      rw [payload_shiftRight]
      simp (disch := decide) [layout, fieldAbove_of_le, valueOr, zero_lor, relId, hn.ne,
        hmiss (show toks.length ≤ 3 by omega), hmiss (show toks.length ≤ 4 by omega)]
    · refine ⟨_, if_pos hn, ?_⟩
      rw [payload_shiftRight]
      simp (disch := decide) [layout, fieldAbove_of_ge, fieldAbove_of_le, valueOr, zero_lor, relId,
        hn]
    · refine ⟨_, (if_neg hn.ne').trans (if_pos hn), ?_⟩
      rw [payload_shiftRight]
      simp (disch := decide) [layout, fieldAbove_of_ge, fieldAbove_of_le, hmid, valueOr, zero_lor,
        relId, hn.ne']

theorem relId_of_not_extendable (hx : ¬ extendable op) : py.relId K op toks = 0 := by
  cases op <;> first | rfl | exact absurd rfl hx

theorem length_encode {ws : List Instruction} (h : py.encode env op toks = .ok ws) :
    ws.length = if 255 < py.relId env.constants op toks then 2 else 1 := by
  obtain ⟨o, ho, rfl⟩ := encode_eq_ok.mp h
  by_cases hx : extendable op
  · obtain ⟨f, hb, hid⟩ : ∃ f, branch op toks = .form f ∧
        (py.formOperands env.constants toks f).payload >>> (16 : ℕ) =
          py.relId env.constants op toks := exists_form_relId hx
    obtain ⟨-, rfl⟩ := (operands_eq_ok_of_form hb).mp ho
    rw [← hid, emit]
    split_ifs with h1 h2 h2
    · rfl
    · exact absurd h1.1 h2
    · exact absurd ⟨h2, hx⟩ h1
    · rfl
  · rw [emit_of_not_extendable hx, relId_of_not_extendable hx]
    rfl

def wide (py : Runtime) (K : Constants) (l : Text × List Text) : Bool :=
  match Op.ofName? l.1 with
  | some op => 255 < py.relId K op l.2
  | none => false

theorem Encodes.length_eq {l : Text × List Text} {ws : List Instruction}
    (h : py.Encodes env l ws) : ws.length = if py.wide env.constants l then 2 else 1 := by
  obtain ⟨op, hop, he⟩ := h
  simp [length_encode he, wide, hop]

end Runtime

/-- The lines from the earlier of two to the one before the later. -/
def between {α : Type*} (lines : List α) (i j : ℕ) : List α :=
  (lines.drop (min i j)).take (max i j - min i j)

theorem between_comm {α : Type*} (lines : List α) (i j : ℕ) :
    between lines i j = between lines j i := by
  rw [between, between, min_comm, max_comm]

theorem sum_map_ite {α : Type*} (p : α → Bool) (l : List α) :
    (l.map fun a => if p a then 2 else 1).sum = l.length + l.countP p := by
  induction l with
  | nil => rfl
  | cons a l ih =>
    rw [List.map_cons, List.sum_cons, ih, List.length_cons, List.countP_cons]
    split_ifs <;> omega

namespace Runtime

variable {py : Runtime} {env : Env} {lines : List (Text × List Text)}
  {units : List (List Instruction)}

theorem offset_units (h : List.Forall₂ (py.Encodes env) lines units) (k : ℕ) :
    Concat.offset units k =
      (lines.take k).length + (lines.take k).countP (py.wide env.constants) := by
  have hmap : units.map List.length =
      lines.map fun l => if py.wide env.constants l then 2 else 1 := by
    induction h with
    | nil => rfl
    | cons hl _ ih => rw [List.map_cons, List.map_cons, ih, hl.length_eq]
  rw [Concat.offset, hmap, ← List.map_take, sum_map_ite]

theorem offset_units_add {i j : ℕ} (h : List.Forall₂ (py.Encodes env) lines units) (hij : i ≤ j)
    (hj : j ≤ lines.length) : Concat.offset units j =
      Concat.offset units i + (j - i) + (between lines i j).countP (py.wide env.constants) := by
  have hsplit : lines.take j = lines.take i ++ between lines i j := by
    rw [between, min_eq_left hij, max_eq_right hij, ← List.take_add, Nat.add_sub_cancel' hij]
  have hlen := congrArg List.length hsplit
  rw [List.length_append] at hlen
  rw [offset_units h, offset_units h, hsplit, List.countP_append, List.length_append]
  simp only [between, List.length_take, List.length_drop, min_eq_left hij, max_eq_right hij] at *
  omega

def jumpField (op : Op) (toks : List Text) : Option Field :=
  match op with
  | .jmp | .jz | .jnz => some ⟨1, 32, 0⟩
  | .loopDecr => if (toks.getD 1 []).startsWith (chars "R") then some ⟨2, 16, 0⟩ else none
  | _ => none

variable {op : Op} {toks : List Text}

/-- A jump is one word, with its operand as written. -/
theorem encode_jump {g : Field} {v : ℤ} {ws : List Instruction} (hg : jumpField op toks = some g)
    (hv : py.HasValue env.constants toks g.tok v) (h : py.encode env op toks = .ok ws) :
    ∃ w, ws = [w] ∧ (g.bits.get w.payload.toNat : ℤ) = mask g.width v := by
  obtain ⟨o, ho, rfl⟩ := encode_eq_ok.mp h
  have hx : ¬ extendable op ∧ g.bits.get (mask 32 o.payload).toNat = (mask g.width v).toNat := by
    cases op <;> first | cases hg; done | skip
    case loopDecr =>
      rw [jumpField] at hg
      split_ifs at hg with hR
      cases hg
      have hb : branch .loopDecr toks =
          .form { fields := layout 2 0 [16, 16], flags := some 4 } := by
        rw [defaultBranch_of_mem (by decide), defaultForm, if_pos hR]
      obtain ⟨-, rfl⟩ := (operands_eq_ok_of_form hb).mp ho
      exact ⟨by decide, get_payload (by decide) hv⟩
    all_goals
      cases hg
      obtain ⟨-, rfl⟩ := (operands_eq_ok_of_form rfl).mp ho
      refine ⟨by decide, ?_⟩
      have hlt := toNat_mask_lt 32 v
      simp only [formOperands, List.foldl_nil, hv.valueOr_eq, BitField.get, Field.bits,
        Nat.shiftRight_zero, Nat.mod_eq_of_lt hlt]
  refine ⟨_, emit_of_not_extendable hx.1 o, ?_⟩
  rw [Instruction.ofInts_payload, toNat_ofInt_mask, hx.2, Int.toNat_of_nonneg (mask_nonneg _ _)]

variable {K K' : Constants} {text : Text} {p : Program}

/-- In an accepted file a line starts as many words behind an earlier one as lines, and one more
for each wide line between them. A jump written as a distance in lines reaches the line exactly if
there is none. -/
theorem word_distance (h : py.parseImpasFile K text = (.ok p, K')) :
    ∃ env units, env.constants = K' ∧
      List.Forall₂ (py.Encodes env) (py.instructionLines text) units ∧
      p.instructions = units.flatten ∧
      (∀ i j : ℕ, i ≤ j → j ≤ (py.instructionLines text).length →
        Concat.offset units j = Concat.offset units i + (j - i) +
          (between (py.instructionLines text) i j).countP (py.wide K')) ∧
      ∀ (i j : ℕ) l op g, (py.instructionLines text)[i]? = some l →
        j ≤ (py.instructionLines text).length → Op.ofName? l.1 = some op →
        jumpField op l.2 = some g → py.HasValue K' l.2 g.tok (j - i) →
        ∃ w, units[i]? = some [w] ∧ (g.bits.get w.payload.toNat : ℤ) = mask g.width (j - i) ∧
          ((Concat.offset units i : ℤ) + (j - i) = Concat.offset units j ↔
            ∀ l ∈ between (py.instructionLines text) i j, ¬ py.wide K' l) := by
  obtain ⟨env, units, data, rfl, ha⟩ := exists_units h
  have henc : List.Forall₂ (py.Encodes env) (py.instructionLines text) units := ha.encodes
  have hoff (i j : ℕ) := offset_units_add (i := i) (j := j) henc
  refine ⟨env, units, rfl, henc, ha.instructions_eq, hoff, ?_⟩
  intro i j l op g hi hj hop hg hv
  obtain ⟨u, hu, hline⟩ := ExceptFold.exists_getElem? henc hi
  obtain ⟨w, rfl, hw⟩ := encode_jump hg hv (hline.encode_eq hop)
  refine ⟨w, hu, hw, ?_⟩
  rw [← List.countP_eq_zero]
  rcases le_total i j with hij | hij
  · have := hoff i j hij hj
    omega
  · have := hoff j i hij (List.getElem?_eq_some_iff.mp hi).1.le
    rw [between_comm] at this
    omega

theorem word_distance_jump :
    ∃ p K', Runtime.ascii.parseImpasFile constants
        (chars "OP_JMP 2\nOP_CLEAR_REG R1\nOP_GATHER_NODE_ATTR R1, R2, R3, 300\nOP_HALT") =
          (.ok p, K') ∧
      ∃ units, p.instructions = units.flatten ∧ Concat.offset units 3 = Concat.offset units 0 + 4 ∧
        (Concat.offset units 0 : ℤ) + 2 = Concat.offset units 2 := by
  obtain ⟨p, hp⟩ := exists_program Runtime.ascii constants
    (chars "OP_JMP 2\nOP_CLEAR_REG R1\nOP_GATHER_NODE_ATTR R1, R2, R3, 300\nOP_HALT")
    (by decide +kernel)
  obtain ⟨env, units, -, -, hp', hoff, hjump⟩ := word_distance hp
  have h3 := hoff 0 3 (by decide) (by decide +kernel)
  rw [show List.countP _ _ = 1 by decide +kernel] at h3
  obtain ⟨w, -, -, hw⟩ := hjump 0 2 (chars "OP_JMP", [chars "OP_JMP", chars "2"]) .jmp ⟨1, 32, 0⟩
    (by decide +kernel) (by decide +kernel) (by decide +kernel) rfl (by decide +kernel)
  exact ⟨p, _, hp, units, hp', h3, hw.mpr (by decide +kernel)⟩

end Runtime

/-- The third line of the file is at word 3, and the jump of 2 from word 0 leads to the extension
word of the second line. -/
theorem jump_to_extension :
    ∃ units, List.Forall₂ (Runtime.ascii.Encodes ⟨constants, ∅, ∅⟩)
        (Runtime.ascii.instructionLines
          (chars "OP_JMP 2\nOP_GATHER_NODE_ATTR R1, R2, R3, 300\nOP_HALT")) units ∧
      (Runtime.ascii.parseImpasFile constants
          (chars "OP_JMP 2\nOP_GATHER_NODE_ATTR R1, R2, R3, 300\nOP_HALT")).1.toOption.map
        (·.instructions) = some units.flatten ∧
      units[0]? = some [⟨0x50, 0, 0, 2⟩] ∧ units[2]? = some [⟨0, 0, 0, 0⟩] ∧
      Concat.offset units 2 = 3 ∧ units.flatten[0 + 2]? = some ⟨0xFF, 0, 300, 0⟩ := by
  have hlines : Runtime.ascii.instructionLines
      (chars "OP_JMP 2\nOP_GATHER_NODE_ATTR R1, R2, R3, 300\nOP_HALT") =
        [(chars "OP_JMP", [chars "OP_JMP", chars "2"]),
          (chars "OP_GATHER_NODE_ATTR", [chars "OP_GATHER_NODE_ATTR", chars "R1", chars "R2",
            chars "R3", chars "300"]), (chars "OP_HALT", [chars "OP_HALT"])] := by
    decide +kernel
  refine ⟨[[⟨0x50, 0, 0, 2⟩], [⟨0x81, 0x80, 1, 0x302⟩, ⟨0xFF, 0, 300, 0⟩], [⟨0, 0, 0, 0⟩]],
    ?_, by decide +kernel, rfl, rfl, rfl, rfl⟩
  rw [hlines]
  refine .cons ⟨.jmp, by decide +kernel, by decide +kernel⟩ (.cons ⟨.gatherNodeAttr,
    by decide +kernel, by decide +kernel⟩
      (.cons ⟨.halt, by decide +kernel, by decide +kernel⟩ .nil))

end ImpulseTools

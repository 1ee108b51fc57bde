import ImpulseTools.Fuzz.Select

/-! # What the generator reaches

The registers of the preamble are never destinations. So a contract that can be chosen once can
always be chosen, and every mnemonic with a format comes up from wherever a run has got to.
-/

namespace ImpulseTools

variable {table : List Contract} {s s' : RegState} {c : Contract}

/-- Every type by which a register can be chosen in the first state is one of it in the second. -/
def Offers (s s' : RegState) : Prop := ∀ r, ∀ t ∈ s r, (t = .null → r = 0) → t ∈ s' r

theorem Offers.mem_validRegs (h : Offers s s') {allowed r : ℕ} (hr : r ∈ validRegs s allowed) :
    r ∈ validRegs s' allowed := by
  obtain ⟨hlt, t, ht, hbit, hnull⟩ := ImpulseTools.mem_validRegs.mp hr
  exact ImpulseTools.mem_validRegs.mpr ⟨hlt, t, h r t ht hnull, hbit, hnull⟩

theorem Offers.eligible (h : Offers s s') (hc : isEligible s c) : isEligible s' c := by
  have hne {allowed : ℕ} (hv : validRegs s allowed ≠ []) : validRegs s' allowed ≠ [] := by
    obtain ⟨r, hr⟩ := List.exists_mem_of_ne_nil _ hv
    exact List.ne_nil_of_mem (h.mem_validRegs hr)
  rw [isEligible_iff] at hc ⊢
  obtain ⟨hsrc, haux1, haux2⟩ := hc
  exact ⟨fun h0 => hne (hsrc h0), fun h0 hs => hne (haux1 h0 hs), fun h0 hs => hne (haux2 h0 hs)⟩

theorem Keeps.offers (h : Keeps s) : Offers preambleTypes s := by
  intro r t ht hnull
  by_cases hr : r < 10
  · rwa [h.low r hr]
  · obtain ⟨r, rfl⟩ := Nat.exists_eq_add_of_le' (Nat.not_lt.mp hr)
    have hz := hnull (Finset.mem_singleton.mp ht)
    omega

theorem turn_eq_none_iff {s : FuzzState} {d : Draw} :
    turn table s d = none ↔ ∀ c ∈ fuzzerContracts table, ¬ isEligible s.regState c := by
  have hturn := turn_eq table s { toDraw := d }
  rw [← List.filter_eq_nil_iff, ← choice_eq_none (n := d.contract), hturn, Option.map_eq_none_iff,
    select]
  cases choice ((fuzzerContracts table).filter (isEligible s.regState)) d.contract with
  | none => exact iff_of_true rfl rfl
  | some c => exact iff_of_false (Option.some_ne_none _) (Option.some_ne_none _)

theorem keeps_fuzzRun (table : List Contract) (draws : List Draw) :
    Keeps (fuzzRun table draws).regState :=
  keeps_preambleTypes.trace (trace_fuzzRun table draws)

/-- The loop ends early only if it never begins: if anything can be chosen after the preamble,
something can be chosen after every run. -/
theorem turn_fuzzRun_eq_none_iff (table : List Contract) (draws : List Draw) (d : Draw) :
    turn table (fuzzRun table draws) d = none ↔
      ∀ c ∈ fuzzerContracts table, ¬ isEligible preambleTypes c := by
  constructor
  · intro h c hc he
    exact turn_eq_none_iff.mp h c hc ((keeps_fuzzRun table draws).offers.eligible he)
  · intro h
    have hstart (d : Draw) : turn table ⟨7, preambleTypes, []⟩ d = none := turn_eq_none_iff.mpr h
    have hrun : fuzzRun table draws = ⟨7, preambleTypes, []⟩ := by
      cases draws with
      | nil => rfl
      | cons d draws => rw [fuzzRun, generate, hstart]
    rw [hrun, hstart]

theorem exists_choice {α : Type} {l : List α} {a : α} (h : a ∈ l) : ∃ n, choice l n = some a := by
  obtain ⟨n, hn, rfl⟩ := List.mem_iff_getElem.mp h
  exact ⟨n, by rw [choice, Nat.mod_eq_of_lt hn, List.getElem?_eq_getElem hn]⟩

theorem exists_formatOperands {op : Op} (h : op ∈ formattedOps) (dst src aux1 n : ℕ) :
    ∃ args, formatOperands op dst src aux1 n = some args := by
  have hsame : (formatOperands op dst src aux1 n).isSome = (formatOperands op 0 0 0 0).isSome := by
    cases op <;> rfl
  exact Option.isSome_iff_exists.mp (hsame.trans (List.mem_filter.mp h).2)

/-- An eligible contract of a mnemonic with a format is emitted for some draw. -/
theorem exists_turn {s : FuzzState} {op : Op} (hc : c ∈ fuzzerContracts table)
    (he : isEligible s.regState c) (hop : c.op = some op) (hf : op ∈ formattedOps) :
    ∃ d e, turn table s d = some ⟨s.pc + 1, e.regState, s.emitted ++ [e]⟩ ∧ e.contract = c ∧
      ∃ src aux1, e.regState = recordTypes s.regState c 10 src aux1 0 := by
  obtain ⟨n, hn⟩ := exists_choice (List.mem_filter.mpr ⟨hc, he⟩)
  have hturn := turn_eq table s { contract := n }
  obtain ⟨sel, hsel, rfl, hdst⟩ : ∃ sel, select table s.regState { contract := n } = some sel ∧
      sel.contract = c ∧ sel.dst = 10 := by
    simp only [select, hn, bind, Option.bind_some, pure]
    exact ⟨_, rfl, rfl, rfl⟩
  obtain ⟨args, hargs⟩ := exists_formatOperands hf sel.dst sel.src sel.aux1 0
  obtain ⟨line, hline⟩ : ∃ line, formatInstruction s.pc sel.contract sel.dst sel.src sel.aux1 0 =
      some line := by
    simp only [formatInstruction, hop, hargs, bind, Option.bind_some, pure]
    exact ⟨_, rfl⟩
  refine ⟨{ contract := n }, ⟨sel.contract, 10, sel.src, line,
    recordTypes s.regState sel.contract 10 sel.src sel.aux1 0⟩, ?_, rfl, sel.src, sel.aux1, rfl⟩
  rw [hdst] at hline
  rw [hturn, hsel, Option.map_some, addLine]
  simp only [hdst, hline]

/-- What the registers of the preamble offer together with a lane frontier. -/
def laneTypes : RegState := Function.update preambleTypes 10 {.laneFrontier}

theorem rows_seeds : ∃ c ∈ fuzzerContracts contracts, c.op = some .laneInitSeeds ∧
    isEligible preambleTypes c ∧ c.modifiesDstState ∧
      possibleTypes c.outputDstTypes = [.laneFrontier] := by
  decide +kernel

theorem rows_formatted : ∀ op ∈ formattedOps, ∃ c ∈ fuzzerContracts contracts,
    c.op = some op ∧ isEligible laneTypes c := by
  decide +kernel

theorem offers_laneTypes (h : Keeps s) (hlane : s 10 = {.laneFrontier}) : Offers laneTypes s := by
  intro r t ht hnull
  by_cases hr : r = 10
  · rw [hr, laneTypes, Function.update_self] at ht
    rwa [hr, hlane]
  · rw [laneTypes, Function.update_of_ne hr] at ht
    exact h.offers r t ht hnull

/-- Wherever a run has got to, two more draws bring up a lane frontier and any mnemonic that has a
format; no other mnemonic ever comes up. -/
theorem emits_iff (draws : List Draw) (op : Op) :
    (∃ d d' e e', (fuzzRun contracts (draws ++ [d, d'])).emitted =
        (fuzzRun contracts draws).emitted ++ [e, e'] ∧ e'.contract.op = some op) ↔
      op ∈ formattedOps := by
  constructor
  · rintro ⟨d, d', e, e', hemitted, hop⟩
    have hmem : e' ∈ (fuzzRun contracts (draws ++ [d, d'])).emitted := by
      rw [hemitted]
      simp
    obtain ⟨pc, s, op', args, he⟩ := (trace_fuzzRun contracts _).exists_emits e' hmem
    obtain rfl : op' = op := Option.some.inj (he.op_eq.symm.trans hop)
    exact he.row.1
  · intro hop
    have hkeeps := keeps_fuzzRun contracts draws
    generalize hs : fuzzRun contracts draws = s at hkeeps
    obtain ⟨seeds, hseeds, hseedop, heligible, hmod, htypes⟩ := rows_seeds
    obtain ⟨d, e, hd, -, src, aux1, hregs⟩ :=
      exists_turn hseeds (hkeeps.offers.eligible heligible) hseedop (by decide)
    have hrecord : e.regState = Function.update s.regState 10 {.laneFrontier} := by
      rw [hregs]
      simp only [recordTypes, hseedop, htypes]
      exact if_pos hmod
    generalize hs₁ : FuzzState.mk _ _ _ = s₁ at hd
    have hoffers : Offers laneTypes s₁.regState := by
      rw [← hs₁, hrecord]
      change Offers laneTypes (Function.update s.regState 10 {.laneFrontier})
      exact offers_laneTypes (hkeeps.update (by decide) (Finset.singleton_nonempty _))
        (Function.update_self ..)
    obtain ⟨c, hc, hcop, hceligible⟩ := rows_formatted op hop
    obtain ⟨d', e', hd', rfl, -⟩ := exists_turn hc (hoffers.eligible hceligible) hcop hop
    have hrun : fuzzRun contracts (draws ++ [d, d']) =
        (turn contracts ((turn contracts s d).getD s) d').getD ((turn contracts s d).getD s) := by
      have hdraws : draws ++ [d, d'] = draws ++ [d] ++ [d'] := by simp
      rw [hdraws, fuzzRun, generate_concat, generate_concat, ← fuzzRun, hs]
    rw [hd, Option.getD_some, hd', Option.getD_some] at hrun
    refine ⟨d, d', e, e', ?_, hcop⟩
    rw [hrun, ← hs₁, List.append_assoc]
    rfl

end ImpulseTools

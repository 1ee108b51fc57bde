import ImpulseTools.Asm.Format

/-! # Directives the tools write

Where a data directive that was put together from its parts is found, and what every runtime
makes of the numbers in it.
-/

namespace ImpulseTools

namespace Runtime

variable {py : Runtime}

theorem isWord_of_isAlphanum {c : Char} (hc : c.toNat < 128) (h : c.isAlphanum ∨ c = '_') :
    py.isWord c = true := by
  rw [isWord, py.isAlnum_ascii c hc, Bool.or_eq_true, beq_iff_eq]
  exact h

theorem isWord_name {name : Text}
    (h : ∀ c ∈ name, c.toNat < 128 ∧ (c.isAlphanum ∨ c = '_')) : ∀ c ∈ name, py.isWord c = true :=
  fun c hc => isWord_of_isAlphanum (h c hc).1 (h c hc).2

theorem not_isWord_of_isSpace {c : Char} (h : isSpace c = true) : py.isWord c = false := by
  rw [isWord, py.isAlnum_not_space c h, Bool.false_or, beq_eq_false_iff_ne]
  rintro rfl
  exact absurd h (by decide)

theorem not_isSpace_of_isWord {c : Char} (h : py.isWord c = true) : isSpace c = false := by
  by_contra hs
  rw [not_isWord_of_isSpace (Bool.not_eq_false _ ▸ hs)] at h
  exact Bool.false_ne_true h

/-- A directive as the tools write it, up to its body. -/
def directiveText (left right : Char) (kw name body : Text) : Text :=
  kw ++ ' ' :: (name ++ ' ' :: '=' :: ' ' :: left :: (body ++ [right]))

/-- A written directive is read as its name and its body. -/
theorem blockAt_directiveText {left right : Char} {kw name body : Text} (t : Text)
    (hne : name ≠ []) (hname : ∀ c ∈ name, py.isWord c = true) (hl : isSpace left = false)
    (hbody : right ∉ body) :
    py.blockAt left right kw (directiveText left right kw name body ++ t) =
      some ((name, body), t) := by
  have hkw : Scan.lit kw (directiveText left right kw name body ++ t) =
      some (' ' :: (name ++ ' ' :: '=' :: ' ' :: left :: (body ++ right :: t))) :=
    Scan.lit_eq_some.mpr (by simp [directiveText])
  have hblank : Scan.run isSpace
      (' ' :: (name ++ ' ' :: '=' :: ' ' :: left :: (body ++ right :: t))) =
        some ([' '], name ++ ' ' :: '=' :: ' ' :: left :: (body ++ right :: t)) := by
    obtain ⟨c, name, rfl⟩ := List.exists_cons_of_ne_nil hne
    exact Scan.run_append (s := [' ']) (List.cons_ne_nil _ _) (by decide)
      (not_isSpace_of_isWord (hname c List.mem_cons_self))
  have hrun : Scan.run py.isWord (name ++ ' ' :: '=' :: ' ' :: left :: (body ++ right :: t)) =
      some (name, ' ' :: '=' :: ' ' :: left :: (body ++ right :: t)) :=
    Scan.run_append hne hname (not_isWord_of_isSpace (by decide))
  have hleft : (' ' :: left :: (body ++ right :: t)).dropWhile isSpace =
      left :: (body ++ right :: t) :=
    (Scan.takeWhile_append_stop (s := [' ']) (by decide) hl).2
  have hmem : ∀ c ∈ body, decide (c ≠ right) = true := by
    intro c hc
    rw [decide_eq_true_iff]
    rintro rfl
    exact hbody hc
  obtain ⟨htake, hdrop⟩ :=
    Scan.takeWhile_append_stop (c := right) (t := t) hmem (by simp)
  have heq : (' ' :: '=' :: ' ' :: left :: (body ++ right :: t)).dropWhile isSpace =
      '=' :: ' ' :: left :: (body ++ right :: t) := rfl
  simp only [blockAt, hkw, hblank, hrun, heq, Scan.lit, if_true, hleft, htake, hdrop, bind,
    Option.bind, pure]

theorem isSome_blockAt {left right : Char} {kw t : Text} (h : (py.blockAt left right kw t).isSome) :
    kw <+: t := by
  obtain ⟨r, hr⟩ := Option.isSome_iff_exists.mp h
  obtain ⟨u, hu, -⟩ := Option.bind_eq_some_iff.mp hr
  exact ⟨u, (Scan.lit_eq_some.mp hu).symm⟩

theorem isSome_fullBlockAt {left right : Char} {kw t : Text}
    (h : (py.fullBlockAt left right kw t).isSome) : kw <+: t := by
  obtain ⟨r, hr⟩ := Option.isSome_iff_exists.mp h
  obtain ⟨u, hu, -⟩ := Option.bind_eq_some_iff.mp hr
  exact isSome_blockAt (Option.isSome_of_eq_some hu)

theorem isSome_arrayIntAt {t : Text} (h : (py.arrayIntAt t).isSome) :
    ∃ q ∈ intKeywords, q <+: t := by
  obtain ⟨r, hr⟩ := Option.isSome_iff_exists.mp h
  obtain ⟨q, hq, hqt⟩ := List.exists_of_findSome?_eq_some hr
  exact ⟨q, hq, isSome_blockAt (Option.isSome_of_eq_some hqt)⟩

theorem isSome_relAt {t : Text} (h : (py.relAt t).isSome) : chars ".rel" <+: t := by
  obtain ⟨r, hr⟩ := Option.isSome_iff_exists.mp h
  obtain ⟨u, hu, -⟩ := Option.bind_eq_some_iff.mp hr
  exact ⟨u, (Scan.lit_eq_some.mp hu).symm⟩

theorem intList_decimalText {s : Text} {l : List ℕ} (h : listItems s = l.map decimalText)
    (hl : ∀ n ∈ l, (decimalText n).length ≤ maxStrDigits) : py.intList s = .ok (l.map (↑)) := by
  rw [intList, h, ExceptFold.mapM_eq_ok, List.forall₂_map_left_iff, List.forall₂_map_right_iff,
    List.forall₂_same]
  exact fun n hn => py.int_decimalText (hl n hn)

theorem csrLine_row {acc : CsrRows} {line t : Text} {l : List ℕ}
    (hcut : (Scan.cut ':' line.strip).2 = some t)
    (h : listItems (Text.strip ((Text.strip t).filter fun c => c ≠ '[' && c ≠ ']')) =
      l.map decimalText) (hl : ∀ n ∈ l, (decimalText n).length ≤ maxStrDigits) :
    py.csrLine acc line = .ok ⟨acc.offsets ++ [((acc.targets ++ l.map Nat.cast).length : ℤ)],
      acc.targets ++ l.map Nat.cast, acc.nodeCount + 1⟩ := by
  have hrow : py.rowTargets t = .ok (l.map (↑)) := intList_decimalText h hl
  have heq : Scan.cut ':' line.strip = ((Scan.cut ':' line.strip).1, some t) :=
    Prod.ext rfl hcut
  unfold csrLine
  dsimp only
  rw [heq]
  simp only [hrow, bind, Except.bind, pure, Except.pure]

end Runtime

theorem Text.universalNewlines_of_not_mem {t : Text} (h : '\r' ∉ t) : t.universalNewlines = t := by
  induction t with
  | nil => rfl
  | cons c t ih =>
    obtain ⟨hc, ht⟩ := List.ne_and_not_mem_of_not_mem_cons h
    rw [Text.universalNewlines, ih ht]
    · rintro u rfl
      exact absurd rfl hc
    · rintro rfl
      exact absurd rfl hc

def unlines (lines : List Text) : Text := lines.flatMap fun line => line ++ ['\n']

theorem unlines_append (a b : List Text) : unlines (a ++ b) = unlines a ++ unlines b :=
  List.flatMap_append

theorem not_mem_unlines {lines : List Text} {c : Char} (hc : c ≠ '\n')
    (h : ∀ line ∈ lines, c ∉ line) : c ∉ unlines lines := by
  simp only [unlines, List.mem_flatMap, List.mem_append, List.mem_singleton, hc, or_false]
  rintro ⟨line, hl, hcl⟩
  exact h line hl hcl

theorem universalNewlines_unlines {lines : List Text} (h : ∀ line ∈ lines, '\r' ∉ line) :
    (unlines lines).universalNewlines = unlines lines :=
  Text.universalNewlines_of_not_mem (not_mem_unlines (by decide) h)

theorem readlines_unlines {lines : List Text} (h : ∀ line ∈ lines, '\n' ∉ line) :
    (unlines lines).readlines = lines.map fun line => line ++ ['\n'] := by
  apply Scan.splitAfter_flatMap
  · intro line hl c hc
    rw [beq_eq_false_iff_ne]
    rintro rfl
    exact h line hl hc
  · decide

end ImpulseTools

import ImpulseTools.Lib.Scan
import Mathlib.Data.List.Infix
import Mathlib.Data.List.TakeDrop

/-! # Taking apart what was put together

Trimming, cutting and splitting undo padding, joining and terminating, and a search passes
over a text in which no match can start.
-/

namespace Scan

variable {α β : Type*} {p : α → Bool}

theorem trim_eq_self {t : List α} (hh : ∀ c ∈ t.head?, p c = false)
    (hl : ∀ c ∈ t.getLast?, p c = false) : trim p t = t := by
  have hd : t.dropWhile p = t := by
    cases t with
    | nil => rfl
    | cons c t => rw [List.dropWhile_cons, hh c rfl, if_neg Bool.false_ne_true]
  rw [trim, hd, List.rdropWhile_eq_self_iff]
  intro hne hp
  rw [hl _ (List.getLast_mem_getLast? hne)] at hp
  exact Bool.false_ne_true hp

theorem trim_of_forall {t : List α} (h : ∀ c ∈ t, p c = false) : trim p t = t :=
  trim_eq_self (fun c hc => h c (List.mem_of_mem_head? hc))
    fun c hc => h c (List.mem_of_mem_getLast? hc)

theorem trim_append {s t : List α} (h : ∀ c ∈ s, p c = true) : trim p (s ++ t) = trim p t := by
  have hd : (s ++ t).dropWhile p = t.dropWhile p := by
    induction s with
    | nil => rfl
    | cons c s ih =>
      obtain ⟨hc, hs⟩ := List.forall_mem_cons.mp h
      rw [List.cons_append, List.dropWhile_cons, if_pos hc, ih hs]
  rw [trim, trim, hd]

theorem trim_concat {t : List α} {c : α} (hc : p c = true) : trim p (t ++ [c]) = trim p t := by
  rw [trim, trim, List.dropWhile_append]
  split
  · rename_i h
    rw [List.isEmpty_iff.mp h, List.dropWhile_cons, if_pos hc]
    rfl
  · rw [List.rdropWhile_concat_pos _ _ _ hc]

theorem cut_append [DecidableEq α] {c : α} {a b : List α} (h : c ∉ a) :
    cut c (a ++ c :: b) = (a, some b) := by
  have hs : (a ++ c :: b).span (· ≠ c) = (a, c :: b) := by
    rw [List.span_eq_takeWhile_dropWhile]
    have ha : ∀ d ∈ a, (decide (d ≠ c)) = true := fun d hd =>
      decide_eq_true fun hdc => h (hdc ▸ hd)
    rw [List.takeWhile_append_of_pos ha, List.dropWhile_append_of_pos ha]
    simp
  rw [cut, hs]

theorem lit_eq_some [DecidableEq α] {q t r : List α} : lit q t = some r ↔ t = q ++ r := by
  induction q generalizing t with
  | nil => simp [lit]
  | cons a q ih =>
    cases t with
    | nil => simp [lit]
    | cons c t =>
      rw [lit]
      split
      · rename_i h
        simp [ih, h]
      · rename_i h
        simp [Ne.symm h]

theorem takeWhile_append_stop {s t : List α} {c : α} (hs : ∀ d ∈ s, p d = true) (hc : p c = false) :
    (s ++ c :: t).takeWhile p = s ∧ (s ++ c :: t).dropWhile p = c :: t := by
  rw [List.takeWhile_append_of_pos hs, List.dropWhile_append_of_pos hs, List.takeWhile_cons,
    List.dropWhile_cons, hc]
  simp

theorem run_append {s t : List α} {c : α} (hne : s ≠ []) (hs : ∀ d ∈ s, p d = true)
    (hc : p c = false) : run p (s ++ c :: t) = some (s, c :: t) := by
  obtain ⟨ht, hd⟩ := takeWhile_append_stop (t := t) hs hc
  obtain ⟨d, s, rfl⟩ := List.exists_cons_of_ne_nil hne
  rw [run, ht, hd]

theorem mem_of_mem_trim {t : List α} {c : α} (h : c ∈ trim p t) : c ∈ t :=
  (List.dropWhile_sublist p).mem ((List.rdropWhile_prefix p _).mem h)

theorem of_mem_run {t s rest : List α} (h : run p t = some (s, rest)) : ∀ c ∈ s, p c = true := by
  unfold run at h
  split at h
  · cases h
  · rename_i c cs heq
    cases h
    rw [← heq]
    exact fun d hd => List.mem_takeWhile_imp hd

theorem ne_nil_of_run {t s rest : List α} (h : run p t = some (s, rest)) : s ≠ [] := by
  rintro rfl
  unfold run at h
  split at h <;> simp at h

theorem splitRunsFrom_true {s t : List α} (hs : ∀ c ∈ s, p c = true)
    (ht : ∀ c ∈ t.head?, p c = false) :
    splitRunsFrom p true (s ++ t) = splitRuns p t := by
  induction s with
  | nil =>
    cases t with
    | nil => rfl
    | cons c t =>
      have hc : p c = false := ht c rfl
      simp [splitRuns, splitRunsFrom, hc]
  | cons c s ih =>
    obtain ⟨hc, hs⟩ := List.forall_mem_cons.mp hs
    rw [List.cons_append, splitRunsFrom, if_pos hc, ih hs]

theorem splitRuns_append {a s t : List α} (ha : ∀ c ∈ a, p c = false) (hs : ∀ c ∈ s, p c = true)
    (hne : s ≠ []) (ht : ∀ c ∈ t.head?, p c = false) :
    splitRuns p (a ++ (s ++ t)) = a :: splitRuns p t := by
  induction a with
  | nil =>
    obtain ⟨c, s, rfl⟩ := List.exists_cons_of_ne_nil hne
    obtain ⟨hc, hs⟩ := List.forall_mem_cons.mp hs
    rw [List.nil_append, splitRuns, List.cons_append, splitRunsFrom, if_pos hc,
      splitRunsFrom_true hs ht]
  | cons c a ih =>
    obtain ⟨hc, ha⟩ := List.forall_mem_cons.mp ha
    rw [List.cons_append, splitRuns, splitRunsFrom, hc, if_neg Bool.false_ne_true, ← splitRuns,
      ih ha]
    rfl

theorem splitRuns_of_forall {a : List α} (ha : ∀ c ∈ a, p c = false) : splitRuns p a = [a] := by
  induction a with
  | nil => rfl
  | cons c a ih =>
    obtain ⟨hc, ha⟩ := List.forall_mem_cons.mp ha
    rw [splitRuns, splitRunsFrom, hc, if_neg Bool.false_ne_true, ← splitRuns, ih ha]
    rfl

theorem mem_intercalate {s : List α} {l : List (List α)} {c : α} (hc : c ∈ s.intercalate l) :
    (∃ a ∈ l, c ∈ a) ∨ c ∈ s := by
  induction l with
  | nil => cases hc
  | cons a l ih =>
    cases l with
    | nil =>
      rw [List.intercalate_singleton] at hc
      exact .inl ⟨a, List.mem_cons_self, hc⟩
    | cons b l =>
      rw [List.intercalate_cons_cons, List.append_assoc] at hc
      rcases List.mem_append.mp hc with hc | hc
      · exact .inl ⟨a, List.mem_cons_self, hc⟩
      rcases List.mem_append.mp hc with hc | hc
      · exact .inr hc
      rcases ih hc with ⟨d, hd, hcd⟩ | hc
      · exact .inl ⟨d, List.mem_cons_of_mem a hd, hcd⟩
      · exact .inr hc

theorem head?_intercalate {s : List α} {l : List (List α)} (hl : ∀ a ∈ l, a ≠ []) {c : α}
    (hc : c ∈ (s.intercalate l).head?) : ∃ a ∈ l, c ∈ a := by
  cases l with
  | nil => cases hc
  | cons a l =>
    obtain ⟨d, a, rfl⟩ := List.exists_cons_of_ne_nil (hl a List.mem_cons_self)
    have hcd : c = d := by
      cases l <;> simpa [List.intercalate_cons_cons, eq_comm] using hc
    exact ⟨_, List.mem_cons_self, hcd ▸ List.mem_cons_self⟩

theorem getLast?_intercalate {s : List α} {l : List (List α)} (hl : ∀ a ∈ l, a ≠ []) {c : α}
    (hc : c ∈ (s.intercalate l).getLast?) : ∃ a ∈ l, c ∈ a := by
  induction l with
  | nil => cases hc
  | cons a l ih =>
    obtain ⟨ha, hl⟩ := List.forall_mem_cons.mp hl
    cases l with
    | nil =>
      rw [List.intercalate_singleton] at hc
      exact ⟨a, List.mem_cons_self, List.mem_of_mem_getLast? hc⟩
    | cons b l =>
      have hne : s.intercalate (b :: l) ≠ [] := by
        have hb := hl b List.mem_cons_self
        cases l <;> simp [List.intercalate_cons_cons, hb]
      rw [List.intercalate_cons_cons, List.getLast?_append_of_ne_nil _ hne] at hc
      obtain ⟨d, hd, hcd⟩ := ih hl hc
      exact ⟨d, List.mem_cons_of_mem a hd, hcd⟩

/-- Splitting takes apart what was joined with a run of separators. -/
theorem splitRuns_intercalate {s : List α} {l : List (List α)} (hs : ∀ c ∈ s, p c = true)
    (hsne : s ≠ []) (hl : ∀ a ∈ l, a ≠ []) (hp : ∀ a ∈ l, ∀ c ∈ a, p c = false) (hne : l ≠ []) :
    splitRuns p (s.intercalate l) = l := by
  induction l with
  | nil => exact absurd rfl hne
  | cons a l ih =>
    obtain ⟨ha, hp⟩ := List.forall_mem_cons.mp hp
    cases l with
    | nil => rw [List.intercalate_singleton, splitRuns_of_forall ha]
    | cons b l =>
      have hl := (List.forall_mem_cons.mp hl).2
      rw [List.intercalate_cons_cons, List.append_assoc, splitRuns_append ha hs hsne, ih hl hp
        (List.cons_ne_nil b l)]
      intro c hc
      obtain ⟨d, hd, hcd⟩ := head?_intercalate hl hc
      exact hp d hd c hcd

theorem splitAfter_append {c : α} {a t : List α} (ha : ∀ d ∈ a, p d = false) (hc : p c = true) :
    splitAfter p (a ++ c :: t) = (a ++ [c]) :: splitAfter p t := by
  induction a with
  | nil => rw [List.nil_append, splitAfter, if_pos hc, List.nil_append]
  | cons d a ih =>
    obtain ⟨hd, ha⟩ := List.forall_mem_cons.mp ha
    rw [List.cons_append, splitAfter, hd, if_neg Bool.false_ne_true, ih ha]
    rfl

theorem splitAfter_flatMap {c : α} {ls : List (List α)} (hls : ∀ l ∈ ls, ∀ d ∈ l, p d = false)
    (hc : p c = true) :
    splitAfter p (ls.flatMap fun l => l ++ [c]) = ls.map fun l => l ++ [c] := by
  induction ls with
  | nil => rfl
  | cons l ls ih =>
    obtain ⟨hl, hls⟩ := List.forall_mem_cons.mp hls
    rw [List.flatMap_cons, List.append_assoc, List.singleton_append, splitAfter_append hl hc,
      ih hls, List.map_cons]

theorem flatten_consHead (c : α) (ls : List (List α)) :
    (consHead c ls).flatten = c :: ls.flatten := by
  cases ls <;> rfl

theorem flatten_splitAfter (t : List α) : (splitAfter p t).flatten = t := by
  induction t with
  | nil => rfl
  | cons c t ih =>
    rw [splitAfter]
    split
    · rw [List.flatten_cons, ih, List.singleton_append]
    · rw [flatten_consHead, ih]

def Avoids (q : List α) : List α → Prop
  | [] => True
  | c :: s => (¬ q <+: c :: s ∧ ¬ c :: s <+: q) ∧ Avoids q s

instance Avoids.decidable [DecidableEq α] (q : List α) : (s : List α) → Decidable (Avoids q s)
  | [] => .isTrue trivial
  | _ :: s => @instDecidableAnd _ _ inferInstance (Avoids.decidable q s)

theorem avoids_of_not_mem {c : α} {q s : List α} (h : c ∉ s) : Avoids (c :: q) s := by
  induction s with
  | nil => trivial
  | cons d s ih =>
    obtain ⟨hd, hs⟩ := List.ne_and_not_mem_of_not_mem_cons h
    refine ⟨⟨fun hq => hd ?_, fun hq => hd ?_⟩, ih hs⟩
    · exact (List.cons_prefix_cons.mp hq).1
    · exact (List.cons_prefix_cons.mp hq).1.symm

theorem Avoids.not_prefix_append {c : α} {q s : List α} (h : Avoids q (c :: s)) (t : List α) :
    ¬ q <+: c :: (s ++ t) := by
  intro hq
  rcases List.prefix_or_prefix_of_prefix hq (List.prefix_append (c :: s) t) with h' | h'
  · exact h.1.1 h'
  · exact h.1.2 h'

theorem Avoids.append {q s t : List α} (hs : Avoids q s) (ht : Avoids q t) : Avoids q (s ++ t) := by
  induction s with
  | nil => exact ht
  | cons c s ih =>
    refine ⟨⟨hs.not_prefix_append t, fun hq => hs.1.2 ?_⟩, ih hs.2⟩
    exact (List.prefix_append (c :: s) t).trans hq

theorem Avoids.intercalate {q s : List α} {l : List (List α)} (hs : Avoids q s)
    (hl : ∀ a ∈ l, Avoids q a) : Avoids q (s.intercalate l) := by
  induction l with
  | nil => trivial
  | cons a l ih =>
    obtain ⟨ha, hl⟩ := List.forall_mem_cons.mp hl
    cases l with
    | nil => rwa [List.intercalate_singleton]
    | cons b l =>
      rw [List.intercalate_cons_cons]
      exact (ha.append hs).append (ih hl)

theorem Avoids.flatMap {ι : Type*} {q : List α} {l : List ι} {f : ι → List α}
    (h : ∀ i ∈ l, Avoids q (f i)) : Avoids q (l.flatMap f) := by
  induction l with
  | nil => trivial
  | cons i l ih =>
    obtain ⟨hi, hl⟩ := List.forall_mem_cons.mp h
    rw [List.flatMap_cons]
    exact hi.append (ih hl)

variable {m : Matcher α β} {qs : List (List α)}

theorem findFrom_length (s t : List α) : findFrom m s.length (s ++ t) = findIter m t := by
  induction s with
  | nil => rfl
  | cons c s ih => exact ih

theorem findIter_cons_of_none {c : α} {t : List α} (h : m (c :: t) = none) :
    findIter m (c :: t) = findIter m t := by
  rw [findIter, findFrom, h]
  rfl

theorem exists_of_mem_findFrom {n : ℕ} {t : List α} {b : β} (h : b ∈ findFrom m n t) :
    ∃ s rest, m s = some (b, rest) := by
  induction t generalizing n with
  | nil => cases n <;> cases h
  | cons c t ih =>
    cases n with
    | succ n => exact ih h
    | zero =>
      rw [findFrom] at h
      split at h
      · rename_i b' rest hm
        rcases List.mem_cons.mp h with rfl | h
        · exact ⟨_, rest, hm⟩
        · exact ih h
      · exact ih h

theorem exists_of_mem_findIter {t : List α} {b : β} (h : b ∈ findIter m t) :
    ∃ s rest, m s = some (b, rest) :=
  exists_of_mem_findFrom h

/-- The search that passes over `n` items finds a match that starts in `pre` and ends in `s`. -/
def InsideFrom (m : Matcher α β) (n : ℕ) (pre s : List α) : Prop :=
  ∃ u v b rest, pre ++ s = u ++ v ∧ u.length < pre.length ∧ m v = some (b, rest) ∧
    b ∈ findFrom m n (pre ++ s) ∧ rest.length < s.length

/-- The suffix `s` of a list starts inside a match found before it. -/
def Inside (m : Matcher α β) (pre s : List α) : Prop := InsideFrom m 0 pre s

theorem InsideFrom.cons {n k : ℕ} {c : α} {pre s : List α} (h : InsideFrom m k pre s)
    (hsub : ∀ b ∈ findFrom m k (pre ++ s), b ∈ findFrom m n (c :: pre ++ s)) :
    InsideFrom m n (c :: pre) s := by
  obtain ⟨u, v, b, rest, he, hu, hv, hb, hr⟩ := h
  exact ⟨c :: u, v, b, rest, congrArg (c :: ·) he, Nat.succ_lt_succ hu, hv, hsub b hb, hr⟩

theorem mem_findFrom_or_inside {pre s rest : List α} {b : β} (hne : s ≠ [])
    (hm : m s = some (b, rest)) {n : ℕ} (hn : n ≤ pre.length) :
    b ∈ findFrom m n (pre ++ s) ∨ InsideFrom m n pre s := by
  induction pre generalizing n with
  | nil =>
    obtain rfl : n = 0 := Nat.le_zero.mp hn
    obtain ⟨c, t, rfl⟩ := List.exists_cons_of_ne_nil hne
    left
    rw [List.nil_append, findFrom, hm]
    exact List.mem_cons_self
  | cons c pre ih =>
    cases n with
    | succ n => exact (ih (Nat.le_of_succ_le_succ hn)).imp id fun h => h.cons fun _ hb => hb
    | zero =>
      cases hc : m (c :: pre ++ s) with
      | none =>
        have hfind : findFrom m 0 (c :: pre ++ s) = findFrom m 0 (pre ++ s) :=
          findIter_cons_of_none hc
        rw [hfind]
        exact (ih (Nat.zero_le _)).imp id fun h => h.cons fun b hb => hfind ▸ hb
      | some r =>
        obtain ⟨b', r⟩ := r
        have hfind : findFrom m 0 (c :: pre ++ s) =
            b' :: findFrom m ((pre ++ s).length - r.length) (pre ++ s) := by
          rw [List.cons_append] at hc ⊢
          rw [findFrom, hc]
        rcases Nat.lt_or_ge pre.length ((pre ++ s).length - r.length) with hlt | hle
        · -- the match reaches over the start of `s`
          refine .inr ⟨[], c :: pre ++ s, b', r, rfl, Nat.succ_pos _, hc, ?_, ?_⟩
          · rw [hfind]
            exact List.mem_cons_self
          · rw [List.length_append] at hlt
            omega
        · have hsub : ∀ b ∈ findFrom m ((pre ++ s).length - r.length) (pre ++ s),
              b ∈ findFrom m 0 (c :: pre ++ s) := by
            intro b hb
            rw [hfind]
            exact List.mem_cons_of_mem _ hb
          exact (ih hle).imp (hsub b) fun h => h.cons hsub

/-- A place where the matcher answers is found, or lies inside a match found before it. -/
theorem mem_findIter_or_inside {pre s rest : List α} {b : β} (hne : s ≠ [])
    (hm : m s = some (b, rest)) : b ∈ findIter m (pre ++ s) ∨ Inside m pre s :=
  mem_findFrom_or_inside hne hm (Nat.zero_le _)

/-- A search passes over a text in which none of the words a match starts with occurs. -/
theorem findIter_append_of_avoids (hm : ∀ t, (m t).isSome → ∃ q ∈ qs, q <+: t) {s : List α}
    (hs : ∀ q ∈ qs, Avoids q s) (t : List α) : findIter m (s ++ t) = findIter m t := by
  induction s with
  | nil => rfl
  | cons c s ih =>
    have hnone : m (c :: (s ++ t)) = none := by
      rw [← Option.not_isSome_iff_eq_none]
      intro h
      obtain ⟨q, hq, hpre⟩ := hm _ h
      exact (hs q hq).not_prefix_append t hpre
    rw [List.cons_append, findIter_cons_of_none hnone]
    exact ih fun q hq => (hs q hq).2

theorem findIter_eq_nil_of_avoids (hm : ∀ t, (m t).isSome → ∃ q ∈ qs, q <+: t) {s : List α}
    (hs : ∀ q ∈ qs, Avoids q s) : findIter m s = [] := by
  rw [← List.append_nil s, findIter_append_of_avoids hm hs]
  rfl

theorem findIter_append_of_match {s t : List α} {b : β} (hne : s ≠ [])
    (h : m (s ++ t) = some (b, t)) : findIter m (s ++ t) = b :: findIter m t := by
  obtain ⟨c, s, rfl⟩ := List.exists_cons_of_ne_nil hne
  rw [List.cons_append] at h ⊢
  rw [findIter, findFrom, h]
  simp only [List.length_append, Nat.add_sub_cancel, findFrom_length]

/-- What the matcher makes of a suffix of `s` is settled inside `s`, with `t` after it. -/
def Closed (m : Matcher α β) (s t : List α) : Prop :=
  ∀ u c v, s = u ++ c :: v → m (c :: v ++ t) = (m (c :: v)).map (Prod.map id (· ++ t))

/-- The matcher answers nowhere in `s`, with `t` after it. -/
def Silent (m : Matcher α β) (s t : List α) : Prop :=
  ∀ u c v, s = u ++ c :: v → m (c :: v ++ t) = none

theorem Closed.tail {c : α} {s t : List α} (h : Closed m (c :: s) t) : Closed m s t :=
  fun u d v hs => h (c :: u) d v (congrArg (c :: ·) hs)

theorem Silent.tail {c : α} {s t : List α} (h : Silent m (c :: s) t) : Silent m s t :=
  fun u d v hs => h (c :: u) d v (congrArg (c :: ·) hs)

theorem findFrom_append_of_closed {s t : List α} (h : Closed m s t) {n : ℕ} (hn : n ≤ s.length) :
    findFrom m n (s ++ t) = findFrom m n s ++ findIter m t := by
  induction s generalizing n with
  | nil =>
    obtain rfl : n = 0 := Nat.le_zero.mp hn
    rfl
  | cons c s ih =>
    cases n with
    | succ n => exact ih h.tail (Nat.le_of_succ_le_succ hn)
    | zero =>
      have hc := h [] c s rfl
      rw [List.cons_append] at hc ⊢
      rw [findFrom, findFrom, hc]
      cases m (c :: s) with
      | none => exact ih h.tail (Nat.zero_le _)
      | some r =>
        obtain ⟨b, rest⟩ := r
        have hskip : (s ++ t).length - (rest ++ t).length = s.length - rest.length := by
          rw [List.length_append, List.length_append, Nat.add_sub_add_right]
        simp only [Option.map_some, Prod.map_apply, id_eq, hskip,
          ih h.tail (Nat.sub_le _ _), List.cons_append]

theorem findIter_append_of_closed {s t : List α} (h : Closed m s t) :
    findIter m (s ++ t) = findIter m s ++ findIter m t :=
  findFrom_append_of_closed h (Nat.zero_le _)

theorem findIter_append_of_silent {s t : List α} (h : Silent m s t) :
    findIter m (s ++ t) = findIter m t := by
  induction s with
  | nil => rfl
  | cons c s ih => exact (findIter_cons_of_none (h [] c s rfl)).trans (ih h.tail)

/-- A search does not see what is inserted where no match is open and none begins. -/
theorem findIter_insert {s x t : List α} (hs : Closed m s t) (hx : Closed m s (x ++ t))
    (hn : Silent m x t) : findIter m (s ++ (x ++ t)) = findIter m (s ++ t) := by
  rw [findIter_append_of_closed hx, findIter_append_of_silent hn, findIter_append_of_closed hs]

end Scan

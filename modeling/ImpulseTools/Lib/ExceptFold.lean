import Mathlib.Data.List.Forall2

/-! # Folds that can fail

Rules for programs in `Except`: how a success of a bind, a map or a fold comes about,
and the induction over the items a successful fold has passed.
-/

namespace ExceptFold

universe u v

variable {α β : Type u} {ι ε : Type v}

theorem bind_eq_ok {x : Except ε α} {f : α → Except ε β} {b : β} :
    (x >>= f) = .ok b ↔ ∃ a, x = .ok a ∧ f a = .ok b := by
  cases x <;> simp [bind, Except.bind]

theorem exists_of_isOk {x : Except ε α} (h : x.isOk) : ∃ a, x = .ok a := by
  cases x with
  | error e => cases h
  | ok a => exact ⟨a, rfl⟩

theorem isOk_iff {x : Except ε α} : x.isOk ↔ ∃ a, x = .ok a := by
  constructor
  · exact exists_of_isOk
  · rintro ⟨a, rfl⟩
    rfl

theorem toOption_eq_some {x : Except ε α} {a : α} : x.toOption = some a ↔ x = .ok a := by
  cases x <;> simp [Except.toOption]

theorem map_eq_ok {x : Except ε α} {f : α → β} {b : β} :
    (f <$> x) = .ok b ↔ ∃ a, x = .ok a ∧ f a = b := by
  cases x <;> simp [Functor.map, Except.map]

theorem foldlM_cons_ok {f : β → ι → Except ε β} {a : ι} {l : List ι} {b c r : β}
    (h : f b a = .ok c) (hl : l.foldlM f c = .ok r) : (a :: l).foldlM f b = .ok r := by
  rw [List.foldlM_cons, bind_eq_ok]
  exact ⟨c, h, hl⟩

theorem mapM_eq_ok {f : ι → Except ε β} {l : List ι} {r : List β} :
    l.mapM f = .ok r ↔ List.Forall₂ (fun a b => f a = .ok b) l r := by
  induction l generalizing r with
  | nil => simp [pure, Except.pure, eq_comm]
  | cons a l ih =>
    simp only [List.mapM_cons, bind_eq_ok, pure, Except.pure, Except.ok.injEq]
    constructor
    · rintro ⟨b, hb, bs, hbs, rfl⟩
      exact .cons hb (ih.mp hbs)
    · intro h
      cases h with
      | cons hb hbs => exact ⟨_, hb, _, ih.mpr hbs, rfl⟩

theorem forall₂_comp {R : ι → α → Prop} {S : α → β → Prop} {l : List ι} {m : List α}
    {r : List β} (h : List.Forall₂ R l m) (h' : List.Forall₂ S m r) :
    List.Forall₂ (fun a c => ∃ b, R a b ∧ S b c) l r := by
  induction h generalizing r with
  | nil =>
    cases h'
    exact .nil
  | cons hab _ ih =>
    cases h' with
    | cons hbc h' => exact .cons ⟨_, hab, hbc⟩ (ih h')

theorem exists_of_mem_left {R : ι → β → Prop} {l : List ι} {r : List β} (h : List.Forall₂ R l r)
    {a : ι} (ha : a ∈ l) : ∃ b ∈ r, R a b := by
  induction h with
  | nil => cases ha
  | cons hab _ ih =>
    rcases List.mem_cons.mp ha with rfl | ha
    · exact ⟨_, List.mem_cons_self, hab⟩
    · obtain ⟨b, hb, h⟩ := ih ha
      exact ⟨b, List.mem_cons_of_mem _ hb, h⟩

theorem exists_of_mem_right {R : ι → β → Prop} {l : List ι} {r : List β} (h : List.Forall₂ R l r)
    {b : β} (hb : b ∈ r) : ∃ a ∈ l, R a b := by
  induction h with
  | nil => cases hb
  | cons hab _ ih =>
    rcases List.mem_cons.mp hb with rfl | hb
    · exact ⟨_, List.mem_cons_self, hab⟩
    · obtain ⟨a, ha, h⟩ := ih hb
      exact ⟨a, List.mem_cons_of_mem _ ha, h⟩

theorem forall₂_with_mem {R : ι → β → Prop} {l : List ι} {r : List β} (h : List.Forall₂ R l r) :
    List.Forall₂ (fun a b => a ∈ l ∧ R a b) l r := by
  induction h with
  | nil => exact .nil
  | cons hab _ ih =>
    exact .cons ⟨List.mem_cons_self, hab⟩ (ih.imp fun _ _ h => ⟨List.mem_cons_of_mem _ h.1, h.2⟩)

theorem exists_getElem? {R : ι → β → Prop} {l : List ι} {r : List β} (h : List.Forall₂ R l r)
    {k : ℕ} {a : ι} (hk : l[k]? = some a) : ∃ b, r[k]? = some b ∧ R a b := by
  induction h generalizing k with
  | nil => cases hk
  | @cons _ b _ _ hab _ ih =>
    cases k with
    | zero =>
      obtain rfl := Option.some.inj hk
      exact ⟨b, rfl, hab⟩
    | succ k => exact ih hk

theorem exists_getElem?_right {R : ι → β → Prop} {l : List ι} {r : List β}
    (h : List.Forall₂ R l r) {k : ℕ} {b : β} (hk : r[k]? = some b) :
    ∃ a, l[k]? = some a ∧ R a b :=
  exists_getElem? (R := fun b a => R a b) h.flip hk

theorem forall₂_singleton_left {R : ι → β → Prop} {a : ι} {r : List β} :
    List.Forall₂ R [a] r ↔ ∃ b, R a b ∧ r = [b] := by
  rw [List.forall₂_cons_left_iff]
  constructor
  · rintro ⟨b, bs, hb, hnil, rfl⟩
    obtain rfl := List.forall₂_nil_left_iff.mp hnil
    exact ⟨b, hb, rfl⟩
  · rintro ⟨b, hb, rfl⟩
    exact ⟨b, [], hb, .nil, rfl⟩

theorem exists_forall₂ {R : ι → β → Prop} {l : List ι} (h : ∀ a ∈ l, ∃ b, R a b) :
    ∃ r, List.Forall₂ R l r := by
  induction l with
  | nil => exact ⟨[], .nil⟩
  | cons a l ih =>
    obtain ⟨⟨b, hb⟩, hl⟩ := List.forall_mem_cons.mp h
    obtain ⟨bs, hbs⟩ := ih hl
    exact ⟨b :: bs, .cons hb hbs⟩

theorem exists_mapM_ok {f : ι → Except ε β} {l : List ι} (h : ∀ a ∈ l, ∃ b, f a = .ok b) :
    ∃ r, l.mapM f = .ok r := by
  simp only [mapM_eq_ok]
  exact exists_forall₂ h

theorem exists_mapM_iff {f : ι → Except ε β} {l : List ι} :
    (∃ r, l.mapM f = .ok r) ↔ ∀ a ∈ l, ∃ b, f a = .ok b := by
  constructor
  · rintro ⟨r, hr⟩ a ha
    obtain ⟨b, -, hb⟩ := exists_of_mem_left (mapM_eq_ok.mp hr) ha
    exact ⟨b, hb⟩
  · exact exists_mapM_ok

theorem mapM_ok {f : ι → Except ε β} {g : ι → β} {l : List ι} (h : ∀ a ∈ l, f a = .ok (g a)) :
    l.mapM f = .ok (l.map g) := by
  rw [mapM_eq_ok, List.forall₂_map_right_iff, List.forall₂_same]
  exact h

theorem mapM_congr {f g : ι → Except ε β} {l : List ι} (h : ∀ a ∈ l, f a = g a) :
    l.mapM f = l.mapM g := by
  induction l with
  | nil => rfl
  | cons a l ih =>
    rw [List.mapM_cons, List.mapM_cons, h a List.mem_cons_self,
      ih fun a ha => h a (List.mem_cons_of_mem _ ha)]

/-- Two maps succeed with outcomes that are read alike, exactly if they do on each item. -/
theorem mapM_agree {γ : Type u} {f : ι → Except ε α} {g : ι → Except ε β} {p : α → Option γ}
    {q : β → Option γ} {l : List ι} :
    (∃ as bs cs, l.mapM f = .ok as ∧ l.mapM g = .ok bs ∧ as.mapM p = some cs ∧
        bs.mapM q = some cs) ↔
      ∀ x ∈ l, ∃ a b c, f x = .ok a ∧ g x = .ok b ∧ p a = some c ∧ q b = some c := by
  induction l with
  | nil =>
    apply iff_of_true
    · exact ⟨[], [], [], rfl, rfl, rfl, rfl⟩
    · intro x hx
      cases hx
  | cons x l ih =>
    rw [List.forall_mem_cons, ← ih]
    simp only [List.mapM_cons, bind_eq_ok, pure, Except.pure, Except.ok.injEq]
    constructor
    · rintro ⟨_, _, cs, ⟨a, ha, as, has, rfl⟩, ⟨b, hb, bs, hbs, rfl⟩, hp, hq⟩
      simp only [List.mapM_cons, Option.bind_eq_bind, Option.bind_eq_some_iff, pure,
        Option.some.injEq] at hp hq
      obtain ⟨c, hc, cs, hcs, rfl⟩ := hp
      obtain ⟨c', hc', cs', hcs', he⟩ := hq
      obtain ⟨rfl, rfl⟩ := List.cons.inj he
      exact ⟨⟨a, b, c', ha, hb, hc, hc'⟩, as, bs, cs', has, hbs, hcs, hcs'⟩
    · rintro ⟨⟨a, b, c, ha, hb, hc, hc'⟩, as, bs, cs, has, hbs, hcs, hcs'⟩
      refine ⟨a :: as, b :: bs, c :: cs, ⟨a, ha, as, has, rfl⟩, ⟨b, hb, bs, hbs, rfl⟩, ?_, ?_⟩
      · simp [hc, hcs]
      · simp [hc', hcs']

/-- What holds at the start and is carried over each item holds at the end. -/
theorem foldlM_induction {f : β → ι → Except ε β} {P : List ι → β → Prop} {b r : β}
    (start : P [] b) (step : ∀ l a b b', P l b → f b a = .ok b' → P (l ++ [a]) b')
    {l : List ι} (h : l.foldlM f b = .ok r) : P l r := by
  suffices ∀ done, P done b → P (done ++ l) r from this [] start
  clear start
  induction l generalizing b with
  | nil =>
    intro done hd
    simp only [List.foldlM_nil, pure, Except.pure, Except.ok.injEq] at h
    simpa [← h] using hd
  | cons a l ih =>
    intro done hd
    simp only [List.foldlM_cons, bind_eq_ok] at h
    obtain ⟨b', hb, h⟩ := h
    have := ih h (done ++ [a]) (step done a b b' hd hb)
    rwa [List.append_assoc] at this

/-- A fold whose steps succeed or fail by their item alone. -/
theorem exists_foldlM_iff {f : β → ι → Except ε β} {P : ι → Prop} {l : List ι} {b : β}
    (h : ∀ a ∈ l, ∀ b, (∃ b', f b a = .ok b') ↔ P a) :
    (∃ r, l.foldlM f b = .ok r) ↔ ∀ a ∈ l, P a := by
  induction l generalizing b with
  | nil =>
    apply iff_of_true
    · exact ⟨b, rfl⟩
    · intro a ha
      cases ha
  | cons a l ih =>
    obtain ⟨ha, hl⟩ := List.forall_mem_cons.mp h
    simp only [List.foldlM_cons, bind_eq_ok, List.forall_mem_cons, ← ha b]
    constructor
    · rintro ⟨r, b', hb', hr⟩
      exact ⟨⟨b', hb'⟩, (ih hl).mp ⟨r, hr⟩⟩
    · rintro ⟨⟨b', hb'⟩, hrest⟩
      obtain ⟨r, hr⟩ := (ih hl (b := b')).mpr hrest
      exact ⟨r, b', hb', hr⟩

theorem exists_foldlM_ok {f : β → ι → Except ε β} {l : List ι}
    (h : ∀ a ∈ l, ∀ b, ∃ b', f b a = .ok b') (b : β) : ∃ r, l.foldlM f b = .ok r := by
  apply (exists_foldlM_iff (P := fun _ => True) fun a ha b => iff_of_true (h a ha b) trivial).mpr
  exact fun _ _ => trivial

theorem foldlM_around {f : β → ι → Except ε β} {l : List ι} {b r : β} (h : l.foldlM f b = .ok r)
    {k : ℕ} {a : ι} (hk : l[k]? = some a) :
    ∃ b' c, f b' a = .ok c ∧ (l.take (k + 1)).foldlM f b = .ok c ∧
      (l.drop (k + 1)).foldlM f c = .ok r := by
  rw [← List.take_append_drop (k + 1) l, List.foldlM_append, bind_eq_ok] at h
  obtain ⟨c, hc, hr⟩ := h
  have htake : l.take (k + 1) = l.take k ++ [a] := by
    rw [List.take_add_one, hk, Option.toList_some]
  have hc' := hc
  rw [htake, List.foldlM_append, bind_eq_ok] at hc'
  obtain ⟨b', -, ha⟩ := hc'
  rw [List.foldlM_cons, bind_eq_ok] at ha
  obtain ⟨_, ha, hnil⟩ := ha
  cases hnil
  exact ⟨b', _, ha, hc, hr⟩

theorem foldlM_congr {f g : β → ι → Except ε β} {l : List ι}
    (h : ∀ a ∈ l, ∀ b, f b a = g b a) (b : β) : l.foldlM f b = l.foldlM g b := by
  induction l generalizing b with
  | nil => rfl
  | cons a l ih =>
    rw [List.foldlM_cons, List.foldlM_cons, h a (by simp)]
    exact bind_congr fun b' => ih (fun a ha => h a (by simp [ha])) b'

end ExceptFold

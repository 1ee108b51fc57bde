import Mathlib.Data.Nat.Bitwise

/-! # Bit fields

A field is a range of bits of a word. Values are put into fields by shifting and or-ing;
what a field reads back after any number of them depends only on the values put into it.
-/

structure BitField where
  shift : ℕ
  width : ℕ
  deriving DecidableEq

namespace BitField

variable (f g : BitField)

def get (n : ℕ) : ℕ := (n >>> f.shift) % 2 ^ f.width

/-- The word with `v` in the field, cut to its width, and zeros around it. -/
def put (v : ℕ) : ℕ := (v % 2 ^ f.width) <<< f.shift

def Disjoint : Prop := f.shift + f.width ≤ g.shift ∨ g.shift + g.width ≤ f.shift

instance : Decidable (f.Disjoint g) := inferInstanceAs (Decidable (_ ∨ _))

def orAll (n : ℕ) (l : List (BitField × ℕ)) : ℕ := l.foldl (fun n p => n ||| p.1.put p.2) n

theorem testBit_get (n i : ℕ) :
    (f.get n).testBit i = (decide (i < f.width) && n.testBit (f.shift + i)) := by
  rw [get, Nat.testBit_mod_two_pow, Nat.testBit_shiftRight]

theorem testBit_put (v i : ℕ) : (f.put v).testBit i =
    (decide (f.shift ≤ i) && (decide (i - f.shift < f.width) && v.testBit (i - f.shift))) := by
  rw [put, Nat.testBit_shiftLeft, Nat.testBit_mod_two_pow]

theorem get_zero : f.get 0 = 0 := by
  rw [get, Nat.zero_shiftRight, Nat.zero_mod]

theorem get_or (m n : ℕ) : f.get (m ||| n) = f.get m ||| f.get n := by
  rw [get, Nat.shiftRight_or_distrib, Nat.or_mod_two_pow]; rfl

theorem get_put_self (v : ℕ) : f.get (f.put v) = v % 2 ^ f.width := by
  rw [get, put, Nat.shiftLeft_shiftRight, Nat.mod_mod]

theorem get_put_of_disjoint {f g : BitField} (h : f.Disjoint g) (v : ℕ) : f.get (g.put v) = 0 := by
  refine Nat.eq_of_testBit_eq fun i => ?_
  rw [testBit_get, testBit_put, Nat.zero_testBit]
  rcases h with h | h <;> grind

theorem get_mod {k : ℕ} (h : f.shift + f.width ≤ k) (n : ℕ) : f.get (n % 2 ^ k) = f.get n := by
  refine Nat.eq_of_testBit_eq fun i => ?_
  rw [testBit_get, testBit_get, Nat.testBit_mod_two_pow]
  grind

theorem or_shiftLeft {m k : ℕ} (h : m < 2 ^ k) (n : ℕ) : m ||| n <<< k = m + 2 ^ k * n := by
  rw [Nat.shiftLeft_eq, Nat.mul_comm, Nat.lor_comm, ← Nat.two_pow_add_eq_or_of_lt h, Nat.add_comm]

theorem orAll_cons (n : ℕ) (p : BitField × ℕ) (l : List (BitField × ℕ)) :
    orAll n (p :: l) = orAll (n ||| p.1.put p.2) l := rfl

/-- A field reads back the value put into it when the others leave its bits alone. -/
theorem get_orAll {l : List (BitField × ℕ)} {v : ℕ} (hmem : (f, v) ∈ l)
    (h : ∀ p ∈ l, p = (f, v) ∨ f.Disjoint p.1) {n : ℕ} (hn : f.get n = 0) :
    f.get (orAll n l) = v % 2 ^ f.width := by
  suffices ∀ l n, (∀ p ∈ l, p = (f, v) ∨ f.Disjoint p.1) →
      (f.get n = v % 2 ^ f.width ∨ f.get n = 0 ∧ (f, v) ∈ l) →
      f.get (orAll n l) = v % 2 ^ f.width from this l n h (.inr ⟨hn, hmem⟩)
  clear hmem h hn l
  intro l
  induction l with
  | nil =>
    rintro n - (hn | ⟨-, hn⟩)
    · exact hn
    · cases hn
  | cons p l ih =>
    intro n h hn
    obtain ⟨hp, hl⟩ := List.forall_mem_cons.mp h
    refine ih _ hl ?_
    rw [get_or]
    rcases hp with rfl | hp
    · left
      rw [get_put_self]
      rcases hn with hn | ⟨hn, -⟩ <;> simp [hn]
    · rw [get_put_of_disjoint hp, Nat.or_zero]
      rcases hn with hn | ⟨hn, hmem⟩
      · exact .inl hn
      · rcases List.mem_cons.mp hmem with rfl | hmem
        · exact .inl (by rw [hn, ← get_put_self, get_put_of_disjoint hp])
        · exact .inr ⟨hn, hmem⟩

end BitField

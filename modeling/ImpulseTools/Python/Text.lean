import ImpulseTools.Lib.Scan

/-! # Text as the tools read it

Strings are lists of characters. The Unicode database and the floating point of
the interpreter are the fields of `Runtime`: nothing depends on more of them than
what they do on ASCII and that blanks are not word characters.
-/

namespace ImpulseTools

abbrev Text := List Char

/-- What holds of all characters of a text is decided along the text, not over all characters. -/
instance decidableForallMem {p : Char → Prop} [DecidablePred p] (t : List Char) :
    Decidable (∀ c ∈ t, p c) :=
  List.decidableBAll p t

instance decidableMemTexts (t : Text) (l : List Text) : Decidable (t ∈ l) :=
  List.instDecidableMemOfLawfulBEq t l

structure Spelling (s : String) (cs : List Char) : Type where
  toList_eq : s.toList = cs

def Spelling.ofList (cs : List Char) : Spelling (String.ofList cs) cs := ⟨String.toList_ofList⟩

/-- The characters of a literal, spelt out when the literal is elaborated. -/
def chars (s : String) {cs : List Char} (_ : Spelling s cs := by exact Spelling.ofList _) : Text :=
  cs

/-- `str.isspace` of one character, which is also what `\s` matches. -/
def isSpace (c : Char) : Bool :=
  let n := c.toNat
  (9 ≤ n && n ≤ 13) || (0x1C ≤ n && n ≤ 0x20) || n == 0x85 || n == 0xA0 || n == 0x1680 ||
    (0x2000 ≤ n && n ≤ 0x200A) || n == 0x2028 || n == 0x2029 || n == 0x202F || n == 0x205F ||
    n == 0x3000

/-- The parts of the interpreter that are tables or floating point. -/
structure Runtime where
  /-- `str.isalnum` of one character. -/
  isAlnum : Char → Bool
  /-- The value of a decimal digit of any script. -/
  decimal : Char → Option ℕ
  upper : Char → Text
  lower : Char → Text
  /-- `float(text)`, as the bits of a double. -/
  float : Text → Option (BitVec 64)
  /-- `struct.pack("<f", x)` read back as an integer; nothing when `x` is too large. -/
  packFloat : BitVec 64 → Option (BitVec 32)
  isAlnum_ascii : ∀ c : Char, c.toNat < 128 → isAlnum c = c.isAlphanum
  isAlnum_not_space : ∀ c, isSpace c = true → isAlnum c = false
  decimal_ascii : ∀ c : Char, c.toNat < 128 →
    decimal c = if c.isDigit then some (c.toNat - '0'.toNat) else none
  decimal_isAlnum : ∀ c, (decimal c).isSome → isAlnum c = true
  upper_ascii : ∀ c : Char, c.toNat < 128 → upper c = [c.toUpper]
  lower_ascii : ∀ c : Char, c.toNat < 128 → lower c = [c.toLower]

namespace Text

def strip (t : Text) : Text := Scan.trim isSpace t

def startsWith (t p : Text) : Bool := (Scan.lit p t).isSome

theorem startsWith_of_append {t p q : Text} (h : t.startsWith (p ++ q)) : t.startsWith p := by
  rw [startsWith, Scan.lit_append] at h
  rw [startsWith]
  cases hp : Scan.lit p t with
  | none => simp [hp] at h
  | some _ => rfl

/-- `str.split()` -/
def words (t : Text) : List Text := (Scan.splitRuns isSpace t).filter (· ≠ [])

/-- Newline translation of a file opened in text mode. -/
def universalNewlines : Text → Text
  | [] => []
  | '\r' :: '\n' :: t => '\n' :: universalNewlines t
  | '\r' :: t => '\n' :: universalNewlines t
  | c :: t => c :: universalNewlines t

def readlines (t : Text) : List Text := Scan.splitAfter (· == '\n') t

def isLineBreak (c : Char) : Bool :=
  let n := c.toNat
  (10 ≤ n && n ≤ 13) || (0x1C ≤ n && n ≤ 0x1E) || n == 0x85 || n == 0x2028 || n == 0x2029

/-- `str.splitlines()`, each line with its break. Text read from a file has no `\r` left. -/
def splitlines (t : Text) : List Text := Scan.splitAfter isLineBreak t

def splitComma (t : Text) : List Text := t.splitOn ','

end Text

namespace Runtime

variable (py : Runtime)

def isWord (c : Char) : Bool := py.isAlnum c || c == '_'

def upperText (t : Text) : Text := t.flatMap py.upper

def lowerText (t : Text) : Text := t.flatMap py.lower

end Runtime

theorem isAlphanum_not_space {c : Char} (h : isSpace c = true) : c.isAlphanum = false := by
  have hA : 'A'.val.toNat = 65 := rfl
  have hZ : 'Z'.val.toNat = 90 := rfl
  have ha : 'a'.val.toNat = 97 := rfl
  have hz : 'z'.val.toNat = 122 := rfl
  have h0 : '0'.val.toNat = 48 := rfl
  have h9 : '9'.val.toNat = 57 := rfl
  have hup : c.isUpper = decide (c.val ≥ 'A'.val ∧ c.val ≤ 'Z'.val) := rfl
  have hlow : c.isLower = (decide (c.val ≥ 'a'.val) && decide (c.val ≤ 'z'.val)) := rfl
  have halpha : c.isAlphanum = (c.isUpper || c.isLower || c.isDigit) := rfl
  simp only [isSpace, halpha, hup, hlow, Char.isDigit, Char.toNat, Bool.or_eq_true,
    Bool.and_eq_true, decide_eq_true_eq, beq_iff_eq, ge_iff_le,
    UInt32.le_iff_toNat_le, Bool.or_eq_false_iff, Bool.and_eq_false_iff,
    decide_eq_false_iff_not] at h ⊢
  omega

/-- A runtime that knows no letters or digits outside ASCII and no floating point. -/
def Runtime.ascii : Runtime where
  isAlnum c := c.isAlphanum
  decimal c := if c.isDigit then some (c.toNat - '0'.toNat) else none
  upper c := [c.toUpper]
  lower c := [c.toLower]
  float _ := none
  packFloat _ := none
  isAlnum_ascii _ _ := rfl
  isAlnum_not_space _ h := isAlphanum_not_space h
  decimal_ascii _ _ := rfl
  decimal_isAlnum c h := by
    by_cases hd : c.isDigit <;> simp_all [Char.isAlphanum]
  upper_ascii _ _ := rfl
  lower_ascii _ _ := rfl

end ImpulseTools

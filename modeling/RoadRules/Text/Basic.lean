set_option autoImplicit false

/-! # Texts

A text is a sequence of code points. Nearly all of them are characters. The others are the
surrogates, which only mean something in pairs; the escapes of a document can write one alone, and
a text keeps it, so that different texts are never taken for one another. Texts are ordered by the
numbers of their code points.

Fixed names of the library are strings; a string is taken as a text wherever one is needed. -/

namespace RoadRules

/-- A code point. -/
inductive CodePoint where
  | char (c : Char)
  /-- A surrogate that stands alone, by its place among the surrogates. -/
  | surrogate (place : Fin 2048)
deriving DecidableEq, Repr

abbrev Text : Type := List CodePoint

namespace CodePoint

instance : Coe Char CodePoint := ⟨char⟩

def code : CodePoint → Nat
  | char c => c.toNat
  | surrogate place => 0xd800 + place.val

/-- The code point of a number. A number beyond the last code point stands for the first. -/
def ofCode (n : Nat) : CodePoint :=
  if h : 0xd800 ≤ n ∧ n < 0xe000 then surrogate ⟨n - 0xd800, by omega⟩ else char (Char.ofNat n)

instance : LT CodePoint := ⟨fun a b => a.code < b.code⟩

instance (a b : CodePoint) : Decidable (a < b) := inferInstanceAs (Decidable (a.code < b.code))

def isSurrogate : CodePoint → Bool
  | char _ => false
  | surrogate _ => true

def isDigit : CodePoint → Bool
  | char c => c.isDigit
  | surrogate _ => false

def isAlpha : CodePoint → Bool
  | char c => c.isAlpha
  | surrogate _ => false

/-- A code point with an ASCII capital made small. -/
def toLower : CodePoint → CodePoint
  | char c => char c.toLower
  | surrogate place => surrogate place

/-- The characters that stand for a code point. A surrogate has none, and three replacement
characters stand for it, one for each byte that would encode it. -/
def characters : CodePoint → List Char
  | char c => [c]
  | surrogate _ => ['\ufffd', '\ufffd', '\ufffd']

theorem ofCode_code (c : CodePoint) : ofCode c.code = c := by
  cases c with
  | char c =>
    have hv : c.toNat < 0xd800 ∨ 0xdfff < c.toNat ∧ c.toNat < 0x110000 := c.valid
    have h : ¬(0xd800 ≤ c.toNat ∧ c.toNat < 0xe000) := by omega
    rw [code, ofCode, dif_neg h, Char.ofNat_toNat]
  | surrogate place =>
    have h : 0xd800 ≤ 0xd800 + place.val ∧ 0xd800 + place.val < 0xe000 := by
      have := place.isLt
      omega
    rw [code, ofCode, dif_pos h]
    exact congrArg surrogate (Fin.ext (Nat.add_sub_cancel_left _ _))

/-- The code point of a number has that number, up to the last code point. -/
theorem code_ofCode {n : Nat} (h : n < 0x110000) : (ofCode n).code = n := by
  by_cases hs : 0xd800 ≤ n ∧ n < 0xe000
  · rw [ofCode, dif_pos hs, code]
    exact Nat.add_sub_cancel' hs.1
  · have hv : n.isValidChar := by
      simp only [Nat.isValidChar]
      omega
    rw [ofCode, dif_neg hs, code, Char.ofNat, dif_pos hv]
    rfl

end CodePoint

namespace Text

def ofString (s : String) : Text := s.toList.map .char

instance : Coe String Text := ⟨ofString⟩

/-- A text as a string, with replacement characters for the surrogates. -/
def asString (s : Text) : String := String.ofList (s.flatMap CodePoint.characters)

/-- Whether a surrogate stands alone in a text. -/
def hasSurrogate (s : Text) : Bool := s.any CodePoint.isSurrogate

/-- Whether a text does not come after another one. -/
def atMost (a b : Text) : Bool := !decide (b < a)

def joined (between : Text) (parts : List Text) : Text := between.intercalate parts

theorem ofString_inj {s t : String} : ofString s = ofString t ↔ s = t := by
  constructor
  · intro h
    have hinj : ∀ l m : List Char, l.map CodePoint.char = m.map CodePoint.char → l = m := by
      intro l
      induction l with
      | nil => intro m hm; simpa using hm.symm
      | cons c rest ih =>
        intro m hm
        cases m with
        | nil => simp at hm
        | cons d m =>
          simp only [List.map_cons, List.cons.injEq, CodePoint.char.injEq] at hm
          rw [hm.1, ih m hm.2]
    exact String.toList_inj.mp (hinj _ _ h)
  · intro h
    rw [h]

@[simp] theorem ofString_append (s t : String) : ofString (s ++ t) = ofString s ++ ofString t := by
  simp [ofString]

@[simp] theorem asString_ofString (s : String) : (ofString s).asString = s := by
  have h : ∀ l : List Char, (l.map CodePoint.char).flatMap CodePoint.characters = l := by
    intro l
    induction l with
    | nil => rfl
    | cons c rest ih => simpa [CodePoint.characters] using ih
  rw [asString, ofString, h, String.ofList_toList]

end Text

end RoadRules

import RoadRules.Text.CharClass

set_option autoImplicit false

/-! # White space

A character is blank when Unicode calls it white space or separates lines, paragraphs or records
with it: the ASCII blanks, the four information separators, the no-break space and the wide
spaces. `trim` removes blanks from both ends of a text. -/

namespace RoadRules.Text

def blanks : CharClass := ⟨
  [(9, 13), (28, 32), (133, 133), (160, 160), (5760, 5760), (8192, 8202), (8232, 8233),
   (8239, 8239), (8287, 8287), (12288, 12288)]⟩

def isBlank (c : CodePoint) : Bool := blanks.contains c

def trimStart (s : Text) : Text := s.dropWhile isBlank

def trimEnd (s : Text) : Text := (s.reverse.dropWhile isBlank).reverse

/-- A text without the blanks at its two ends. -/
def trim (s : Text) : Text := trimEnd (trimStart s)

def allBlank (s : Text) : Bool := s.all isBlank

@[simp] theorem trim_nil : trim [] = [] := rfl

end RoadRules.Text

set_option autoImplicit false

/-! # Problems of a document

What can be wrong with a field of a document, and a way to check several fields and collect the
problems of all of them. A problem is the path to the field and the kind of the problem; the path
of the whole document is empty. -/

namespace RoadRules

/-- What is wrong with a field. -/
inductive Problem.Kind where
  | missing | stringType | stringUnicode | intType | intFromFloat | intSize | finiteNumber
  | floatType | floatParsing | enum | greaterThan | greaterThanEqual | literal | setType
  | listType | dictType | recordType | modelType | value
deriving DecidableEq, Repr

/-- The name under which a kind of problem is reported. -/
def Problem.Kind.text : Problem.Kind → String
  | missing => "missing"
  | stringType => "string_type"
  | stringUnicode => "string_unicode"
  | intType => "int_type"
  | intFromFloat => "int_from_float"
  | intSize => "int_parsing_size"
  | finiteNumber => "finite_number"
  | floatType => "float_type"
  | floatParsing => "float_parsing"
  | enum => "enum"
  | greaterThan => "greater_than"
  | greaterThanEqual => "greater_than_equal"
  | literal => "literal_error"
  | setType => "frozen_set_type"
  | listType => "list_type"
  | dictType => "dict_type"
  | recordType => "dataclass_type"
  | modelType => "model_type"
  | value => "value_error"

/-- A problem of one field of a document. -/
structure Problem where
  path : List String
  kind : Problem.Kind
deriving DecidableEq, Repr

def Problem.location (p : Problem) : String := String.intercalate "." p.path

/-- A value read from a document, or all the problems met on the way. -/
inductive Checked (β : Type) where
  /-- Everything is in order. -/
  | good (value : β)
  /-- There are problems, in the order of the fields. -/
  | bad (problems : List Problem)

namespace Checked

variable {β γ : Type}

def fail (kind : Problem.Kind) : Checked β := .bad [⟨[], kind⟩]

def map (f : β → γ) : Checked β → Checked γ
  | good v => good (f v)
  | bad ps => bad ps

/-- Two values checked one after the other; the problems of both are kept. -/
def both : Checked β → Checked γ → Checked (β × γ)
  | good a, good b => good (a, b)
  | good _, bad ps => bad ps
  | bad ps, good _ => bad ps
  | bad ps, bad qs => bad (ps ++ qs)

/-- The problems of a part, as problems of the whole: the name of the part leads to them. -/
def under (name : String) : Checked β → Checked β
  | good v => good v
  | bad ps => bad (ps.map fun p => ⟨name :: p.path, p.kind⟩)

/-- The second of two alternatives where the first has problems; when both have, the problems of
both are kept. -/
def orElse : Checked β → Checked β → Checked β
  | good v, _ => good v
  | bad _, good v => good v
  | bad ps, bad qs => bad (ps ++ qs)

/-- A list of values, each checked; the position of a value leads to its problems. -/
def all (check : γ → Checked β) (position : Nat) : List γ → Checked (List β)
  | [] => good []
  | x :: rest =>
    ((check x).under (toString position)).both (all check (position + 1) rest)
      |>.map fun p => p.1 :: p.2

/-- The value with a requirement; when it is not met there is one problem. -/
def require (kind : Problem.Kind) (holds : β → Bool) : Checked β → Checked β
  | good v => if holds v then good v else fail kind
  | bad ps => bad ps

end Checked

end RoadRules

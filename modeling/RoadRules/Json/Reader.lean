import RoadRules.Json

set_option autoImplicit false

/-! # Reading JSON

A reader for texts in the JSON format. Besides the standard it knows the literals `NaN`,
`Infinity` and `-Infinity`. It has limits: a number without point and exponent has to have few
enough digits to be taken as a whole number, and lists and objects must not be nested too deep.
The first failure in the order of the text counts. -/

namespace RoadRules.Json

open Text

/-- Why a text cannot be read. -/
inductive Failure where
  | malformed
  | longInteger (digits : Nat)
  | tooDeep (kind : Kind)
  | unencodable (place : Nat) (surrogates : Text)
deriving DecidableEq, Repr

/-- How many lists and objects may be nested in each other. -/
def deepest : Nat := 988

/-- The result of a step that only succeeds on a text in the format. -/
def wellFormed {β : Type} : Option β → Except Failure β
  | some v => .ok v
  | none => .error .malformed

/-- A text without the white space that may stand between JSON tokens. -/
def skipSpace (s : Text) : Text :=
  s.dropWhile fun (c : CodePoint) => c == ' ' || c == '\t' || c == '\n' || c == '\r'

/-! ## Texts -/

def hexValue? (c : CodePoint) : Option Nat :=
  if c.isDigit then some (c.code - 48)
  else if decide (97 ≤ c.code) && decide (c.code ≤ 102) then some (c.code - 87)
  else if decide (65 ≤ c.code) && decide (c.code ≤ 70) then some (c.code - 55)
  else none

/-- The number that four hexadecimal digits write, and the rest. -/
def fourHex? : Text → Option (Nat × Text)
  | a :: b :: c :: d :: rest => do
    let a ← hexValue? a
    let b ← hexValue? b
    let c ← hexValue? c
    let d ← hexValue? d
    return (((a * 16 + b) * 16 + c) * 16 + d, rest)
  | _ => none

/-- Whether a number is that of the first surrogate of a pair. -/
def isHighSurrogate (code : Nat) : Bool := decide (0xd800 ≤ code) && decide (code < 0xdc00)

/-- Whether a number is that of the second surrogate of a pair. -/
def isLowSurrogate (code : Nat) : Bool := decide (0xdc00 ≤ code) && decide (code < 0xe000)

/-- The number of the character that a surrogate pair stands for. -/
def joinSurrogates (high low : Nat) : Nat := 0x10000 + (high - 0xd800) * 0x400 + (low - 0xdc00)

/-- The code point of an escape with four hexadecimal digits, and the rest. Two escapes that form
a surrogate pair are one code point. -/
def unicodeEscape? (s : Text) : Option (CodePoint × Text) := do
  let (code, rest) ← fourHex? s
  match rest with
  | .char '\\' :: .char 'u' :: after =>
    match fourHex? after with
    | some (low, rest') =>
      if isHighSurrogate code && isLowSurrogate low then
        return (.ofCode (joinSurrogates code low), rest')
      else return (.ofCode code, rest)
    | none => return (.ofCode code, rest)
  | _ => return (.ofCode code, rest)

/-- The character that a one-letter escape stands for. -/
def simpleEscape? (c : CodePoint) : Option CodePoint :=
  if c == '"' || c == '\\' || c == '/' then some c
  else if c == 'b' then some '\x08'
  else if c == 'f' then some '\x0c'
  else if c == 'n' then some '\n'
  else if c == 'r' then some '\r'
  else if c == 't' then some '\t'
  else none

/-- The rest of a text after its opening quote: the text up to the closing quote, and what follows
it. Control characters are refused. -/
def stringBody? : Nat → Text → Option (Text × Text)
  | 0, _ => none
  | _ + 1, [] => none
  | fuel + 1, c :: rest =>
    if c == '"' then some ([], rest)
    else if c == '\\' then
      match rest with
      | .char 'u' :: after => do
        let (c, rest) ← unicodeEscape? after
        let (body, rest) ← stringBody? fuel rest
        return (c :: body, rest)
      | e :: after => do
        let c ← simpleEscape? e
        let (body, rest) ← stringBody? fuel after
        return (c :: body, rest)
      | [] => none
    else if c.code < 32 then none
    else do
      let (body, rest) ← stringBody? fuel rest
      return (c :: body, rest)

/-! ## Numbers and literals -/

/-- The digits of an exponent, and the rest; without an exponent the text stays as it is. -/
def exponentPart (s : Text) : Option Int × Text :=
  match s with
  | c :: rest =>
    if c == 'e' || c == 'E' then
      let (negative, after) := Numeral.splitSign rest
      let digits := after.takeWhile CodePoint.isDigit
      match natural? digits with
      | some n => (some (if negative then -(n : Int) else n), after.dropWhile CodePoint.isDigit)
      | none => (none, s)
    else (none, s)
  | [] => (none, [])

/-- The digits after a point, and the rest; without such digits the text stays as it is. -/
def fractionPart (s : Text) : Text × Text :=
  match s with
  | .char '.' :: rest =>
    let digits := rest.takeWhile CodePoint.isDigit
    if digits.isEmpty then ([], s) else (digits, rest.dropWhile CodePoint.isDigit)
  | _ => ([], s)

def number (negative : Bool) (s : Text) : Except Failure (Scalar × Text) :=
  let whole : Text := match s with
    | .char '0' :: _ => "0"
    | _ => s.takeWhile CodePoint.isDigit
  if whole.isEmpty then .error .malformed
  else
    let (fraction, rest) := fractionPart (s.drop whole.length)
    let (power, rest) := exponentPart rest
    if fraction.isEmpty && power.isNone then
      if longestNatural < whole.length then .error (.longInteger whole.length)
      else
        let n := (Decimal.ofParts negative whole [] 0).digits
        .ok (.integer (if negative then -(n : Int) else n), rest)
    else .ok (.real (.finite (.ofParts negative whole fraction (power.getD 0))), rest)

def literals : List (Text × Scalar) :=
  [("null", .null), ("true", .bool true), ("false", .bool false), ("NaN", .real .undefined),
    ("Infinity", .real (.infinite false)), ("-Infinity", .real (.infinite true))]

def numberOrLiteral (s : Text) : Except Failure (Scalar × Text) :=
  match literals.find? fun l => l.1.isPrefixOf s with
  | some l => .ok (l.2, s.drop l.1.length)
  | none =>
    match s with
    | .char '-' :: rest => number true rest
    | _ => number false s

/-! ## Values -/

mutual

/-- A value without white space in front, and the rest of the text. Every call takes a unit of
fuel, and no more than two calls are made before a character is consumed. `depth` counts the lists
and objects that may still be opened. -/
def value : Nat → Nat → Text → Except Failure (Json × Text)
  | 0, _, _ => .error .malformed
  | fuel + 1, depth, s =>
    match s with
    | .char '"' :: rest => do
      let (body, rest) ← wellFormed (stringBody? (fuel + 1) rest)
      return (.text body, rest)
    | .char '[' :: rest =>
      if depth = 0 then .error (.tooDeep .array)
      else
        match skipSpace rest with
        | .char ']' :: rest => .ok (.array [], rest)
        | rest => do
          let (items, rest) ← items fuel (depth - 1) rest
          return (.array items, rest)
    | .char '\x7b' :: rest =>
      if depth = 0 then .error (.tooDeep .object)
      else
        match skipSpace rest with
        | .char '\x7d' :: rest => .ok (.object [], rest)
        | rest => do
          let (members, rest) ← members fuel (depth - 1) rest
          return (.object members, rest)
    | _ => do
      let (v, rest) ← numberOrLiteral s
      return (.scalar v, rest)

/-- The items of a list up to its closing bracket, and the rest of the text. -/
def items : Nat → Nat → Text → Except Failure (List Json × Text)
  | 0, _, _ => .error .malformed
  | fuel + 1, depth, s => do
    let (item, rest) ← value fuel depth s
    match skipSpace rest with
    | .char ']' :: rest => return ([item], rest)
    | .char ',' :: rest =>
      let (items, rest) ← items fuel depth (skipSpace rest)
      return (item :: items, rest)
    | _ => .error .malformed

/-- The members of an object up to its closing brace, and the rest of the text. -/
def members : Nat → Nat → Text → Except Failure (List (Text × Json) × Text)
  | 0, _, _ => .error .malformed
  | fuel + 1, depth, s =>
    match s with
    | .char '"' :: rest => do
      let (name, rest) ← wellFormed (stringBody? (fuel + 1) rest)
      match skipSpace rest with
      | .char ':' :: rest =>
        let (v, rest) ← value fuel depth (skipSpace rest)
        match skipSpace rest with
        | .char '\x7d' :: rest => return ([(name, v)], rest)
        | .char ',' :: rest =>
          let (members, rest) ← members fuel depth (skipSpace rest)
          return ((name, v) :: members, rest)
        | _ => .error .malformed
      | _ => .error .malformed
    | _ => .error .malformed

end

def read (s : Text) : Except Failure Json := do
  let (v, rest) ← value (2 * s.length + 2) deepest (skipSpace s)
  if (skipSpace rest).isEmpty then return v else .error .malformed

/-- The value that the text of a file consists of. A file cannot hold surrogates, but it can hold
escapes that write them. -/
def readFile (s : Text) : Except Failure Json :=
  let before := s.takeWhile fun c => !c.isSurrogate
  let surrogates := (s.drop before.length).takeWhile CodePoint.isSurrogate
  if surrogates.isEmpty then read s else .error (.unencodable before.length surrogates)

end RoadRules.Json

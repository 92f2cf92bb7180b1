import RoadRules.Fault
import RoadRules.Json.Field
import RoadRules.Way.Basic

set_option autoImplicit false

/-! # Ways in documents

A way in a document is an object with an identifier, tags and nodes. Tags are pairs of a key and a
text, where a key that comes again takes the last text; a node is an object, or the list of its
identifier and coordinates. All problems are reported, field after field. -/

namespace RoadRules

namespace Node

variable {α : Type} [Quantity α]

/-- The members of a node that is written as a list of identifier and coordinates. -/
def membersOfList (items : List Json) : List (Text × Json) :=
  List.zip ["id", "x", "y"] items

def ofMembers (members : List (Text × Json)) : Checked (Node α) :=
  ((Json.required members "id" Ident.ofJson).both
    ((Json.required members "x" Quantity.ofJson).both
      (Json.required members "y" Quantity.ofJson))).map fun p => ⟨p.1, p.2.1, p.2.2⟩

/-- A node in a document, as an object or as a list. -/
def ofJson : Json → Checked (Node α)
  | .object members => ofMembers members
  | .array items => ofMembers (membersOfList items)
  | _ => .fail .recordType

end Node

namespace Way

variable {α : Type} [Quantity α]

def checkKey : Scalar → Checked Text
  | .text s => .good s
  | _ => .fail .stringType

def keyName : Scalar → String
  | .bool b => if b then "1" else "0"
  | v => v.plain.asString

/-- Tags with their keys and values checked; the key of a tag leads to its problems. -/
def checkTags : List (Scalar × Json) → Checked (List (Text × Text))
  | [] => .good []
  | e :: rest =>
    let tag := ((checkKey e.1).under "[key]").both (Json.textField e.2)
    ((tag.under (keyName e.1)).both (checkTags rest)).map fun p => p.1 :: p.2

/-- Tags with one key written: in its place if a key of the same value is there, which keeps its
spelling, else at the end. -/
def writeTag (k : Scalar) (v : Json) : List (Scalar × Json) → List (Scalar × Json)
  | [] => [(k, v)]
  | e :: rest => if e.1.sameValue k then (e.1, v) :: rest else e :: writeTag k v rest

/-- Tags in the order of the document, written one after the other. -/
def distinctTags (entries : List (Scalar × Json)) : List (Scalar × Json) :=
  entries.foldl (fun written e => writeTag e.1 e.2 written) []

/-- The entries of a document's tags: pairs of a key and a value, or the members of an object. -/
def tagEntries : Json → Option (List (Scalar × Json))
  | .object members => some (members.map fun m => (.text m.1, m.2))
  | .array items => some (items.filterMap fun j => match j with
    | .array (.scalar k :: v :: _) => some (k, v)
    | _ => none)
  | _ => none

def tagsOfJson (j : Json) : Checked Tags :=
  match tagEntries j with
  | some entries => (checkTags (distinctTags entries)).map OrderedMap.ofList
  | none => .fail .dictType

def nodesOfJson : Json → Checked (List (Node α))
  | .array items => Checked.all Node.ofJson 0 items
  | _ => .fail .listType

def ofMembers (members : List (Text × Json)) : Checked (Way α) :=
  ((Json.required members "id" Ident.ofJson).both
    ((Json.optional members "tags" .empty tagsOfJson).both
      (Json.optional members "nodes" [] nodesOfJson))).map fun p => ⟨p.1, p.2.1, p.2.2⟩

/-- The kind of the first key of a list of tags that is a list or an object. -/
def compoundKey? : Json → Option Json.Kind
  | .array items => items.findSome? fun j => match j with
    | .array (.array items :: _ :: _) => some (Json.array items).kind
    | .array (.object members :: _ :: _) => some (Json.object members).kind
    | _ => none
  | _ => none

/-- A way in a document. A list or an object cannot be the key of a tag, whatever the problems of
the fields. -/
def ofJson : Json → Except Fault (Way α)
  | .object members =>
    match (Json.get? members "tags").bind compoundKey? with
    | some kind => .error (.noElement kind)
    | none =>
      match ofMembers members with
      | .good w => .ok w
      | .bad problems => .error (.invalid problems)
  | _ => .error (.invalid [⟨[], .modelType⟩])

/-- The ways of a document, or the problems of the first one that has any. A document without
ways has none. -/
def listOfJson : Json → Except Fault (List (Way α))
  | .array items => items.mapM ofJson
  | _ => .ok []

end Way

end RoadRules

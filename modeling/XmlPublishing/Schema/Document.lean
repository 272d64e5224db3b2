import XmlPublishing.Json.Reader
import XmlPublishing.Json.Record
import XmlPublishing.Schema.Basic

/-!
Schema documents.

A document lists relations with their fields, and foreign keys with both ends and the pairs of
fields that they match. All members of a document and of a relation but its name have defaults. A
field is nullable when it is declared so and takes no part in the primary key.
-/

namespace XmlPublishing

/-- The largest position in a primary key that a document may give. -/
def maxKeyPart : Nat := 4294967295

def CaseSensitivity.words : List (String × CaseSensitivity) :=
  [("upper", .upper), ("lower", .lower), ("preserve", .preserve)]

def RelationKind.words : List (String × RelationKind) := [("table", .table), ("view", .view)]

/-- Reads a relation id: an optional schema, and a name. -/
def RelationId.ofJson? (j : Json) : Option RelationId := do
  match ← j.members? ["schema", "name"] with
  | [schema, name] =>
    return ⟨← Json.optional none (Json.nullable? Json.string?) schema,
      ← Json.required Json.string? name⟩
  | _ => none

def Field.ofJson? (j : Json) : Option Field := do
  match ← j.members? ["name", "type", "nullable", "pkPart"] with
  | [name, dbType, nullable, keyPart] =>
    let name ← Json.required Json.string? name
    let dbType ← Json.optional none (Json.nullable? Json.string?) dbType
    let nullable ← Json.optional true Json.bool? nullable
    let keyPart ← Json.optional none (Json.nullable? (Json.nat? maxKeyPart)) keyPart
    return { name, dbType, keyPart, nullable := nullable && keyPart.isNone }
  | _ => none

def Relation.ofJson? (j : Json) : Option Relation := do
  match ← j.members? ["schema", "name", "kind", "fields"] with
  | [schema, name, kind, fields] =>
    let schema ← Json.optional none (Json.nullable? Json.string?) schema
    let name ← Json.required Json.string? name
    let kind ← Json.optional .table (Json.choice? RelationKind.words) kind
    let fields ← Json.optional [] (Json.list? Field.ofJson?) fields
    return { id := ⟨schema, name⟩, kind, fields }
  | _ => none

/-- Reads a source field and the target field that it matches. -/
def ForeignKey.pairOfJson? (j : Json) : Option (String × String) := do
  match ← j.members? ["source", "target"] with
  | [source, target] =>
    return (← Json.required Json.string? source, ← Json.required Json.string? target)
  | _ => none

def ForeignKey.ofJson? (j : Json) : Option ForeignKey := do
  match ← j.members? ["source", "target", "fields"] with
  | [source, target, pairs] =>
    let source ← Json.required RelationId.ofJson? source
    let target ← Json.required RelationId.ofJson? target
    let pairs ← Json.required (Json.list? ForeignKey.pairOfJson?) pairs
    return ⟨source, target, pairs⟩
  | _ => none

/-- What a schema document says, before it is checked. -/
structure SchemaDocument where
  caseSensitivity : CaseSensitivity
  relations : List Relation
  foreignKeys : List ForeignKey

def SchemaDocument.ofJson? (j : Json) : Option SchemaDocument := do
  match ← j.members? ["caseSensitivity", "relations", "foreignKeys"] with
  | [caseSensitivity, relations, foreignKeys] =>
    return ⟨← Json.optional .lower (Json.choice? CaseSensitivity.words) caseSensitivity,
      ← Json.optional [] (Json.list? Relation.ofJson?) relations,
      ← Json.optional [] (Json.list? ForeignKey.ofJson?) foreignKeys⟩
  | _ => none

inductive LoadError where
  | unreadable
  | invalid (error : SchemaError)
deriving DecidableEq

namespace Schema

/-- The schema that a document describes. -/
def ofDocument (d : SchemaDocument) : Except LoadError Schema :=
  (ofLists d.caseSensitivity d.relations d.foreignKeys).mapError .invalid

/-- The schema that a JSON value describes. -/
def ofJson (j : Json) : Except LoadError Schema :=
  match SchemaDocument.ofJson? j with
  | some d => ofDocument d
  | none => .error .unreadable

/-- The schema that the text of a document describes. -/
def parse (text : String) : Except LoadError Schema :=
  match Json.parse? text with
  | some j => ofJson j
  | none => .error .unreadable

end Schema

end XmlPublishing

import XmlPublishing.Schema.RelationId

/-!
Relations and their fields. Fields are found by name, ignoring the case of ASCII letters; the
first match counts.
-/

namespace XmlPublishing

/-- A field of a relation. `keyPart` is its position in the primary key, from one. -/
structure Field where
  name : String
  dbType : Option String := none
  nullable : Bool := true
  keyPart : Option Nat := none
deriving DecidableEq

/-- The field as a part of the primary key, which is never null. -/
def Field.asKeyPart (f : Field) (part : Nat) : Field :=
  { f with keyPart := some part, nullable := false }

inductive RelationKind where
  | table
  | view
deriving DecidableEq

structure Relation where
  id : RelationId
  kind : RelationKind
  fields : List Field
deriving DecidableEq

/-- The field called `name` in a list of fields. -/
def findField? (fields : List Field) (name : String) : Option Field :=
  fields.find? fun f => Text.Alike f.name name

def Relation.field? (r : Relation) (name : String) : Option Field := findField? r.fields name

/-- The first of `names` that is not a field of the relation. -/
def Relation.missing? (r : Relation) (names : List String) : Option String :=
  names.find? fun name => (r.field? name).isNone

/-- The first relation registered under `id`. -/
def findRelation? (relations : List Relation) (id : RelationId) : Option Relation :=
  relations.find? (·.id == id)

end XmlPublishing

import XmlPublishing.Layout.Basic

/-!
Default layouts for the relations of a schema: all fields included, elements named by a naming
policy, nothing embedded.
-/

namespace XmlPublishing

/-- The fields of a relation, which must be registered. -/
def Schema.knownFields (s : Schema) (r : RelationId) : Except PublishError (List Field) :=
  match s.fields? r with
  | some fields => .ok fields
  | none => .error (.unknownRelation r)

/-- Makes layouts over a schema. `style` and `ns` are given to every node it makes. -/
structure Defaults where
  schema : Schema
  naming : NamingPolicy
  style : CollectionStyle
  ns : Option String

namespace Defaults

/-- Defaults over a schema, which must be given. -/
def ofSchema? (schema? : Option Schema) (naming : NamingPolicy) (style : CollectionStyle)
    (ns : Option String) : Except PublishError Defaults :=
  match schema? with
  | some schema => .ok ⟨schema, naming, style, ns⟩
  | none => .error (.configuration .defaultsWithoutSchema)

def fieldNames (d : Defaults) (r : RelationId) : Except PublishError (List String) :=
  (d.schema.knownFields r).map fun fields => fields.map (·.name)

def leaf (d : Defaults) (relation : RelationId) (fields : List String)
    (rowName collectionName : String) : Layout :=
  .leaf { relation, fields, rowName, collectionName, style := d.style, order := none, ns := d.ns }

/-- The layout of a relation on its own. -/
def root (d : Defaults) (r : RelationId) : Except PublishError Layout := do
  let fields ← d.fieldNames r
  return d.leaf r fields (d.naming.row r) (d.naming.collection r)

/-- The two sides of a key, where rows are placed in the given style. -/
def context (d : Defaults) (k : ForeignKey) (style : CollectionStyle) : PairContext :=
  .ofSchema d.schema k.source k.target (some k.sourceSet) style

/-- The layout of the child of a key, in a parent with the given style. -/
def child (d : Defaults) (k : ForeignKey) (style : CollectionStyle) :
    Except PublishError Layout := do
  let fields ← d.fieldNames k.source
  let rowName ← d.naming.childRow (d.context k style)
  let collectionName ← d.naming.childCollection (d.context k style)
  return d.leaf k.source fields rowName collectionName

/-- The layout of the parent of a key, in a child with the given style. -/
def parent (d : Defaults) (k : ForeignKey) (style : CollectionStyle) :
    Except PublishError Layout := do
  let fields ← d.fieldNames k.target
  let rowName ← d.naming.parentRow (d.context k style)
  return d.leaf k.target fields rowName (d.naming.collection k.target)

end Defaults

end XmlPublishing

import XmlPublishing.Schema.Basic

/-!
Names of XML types. They share one space in a document, so a relation whose name occurs in
another schema too is named together with its schema.
-/

namespace XmlPublishing.Schema

/-- Whether another registered relation has the same name. -/
def isNameShared (s : Schema) (r : RelationId) : Bool :=
  s.relationIds.any fun other => other != r && RelationId.SameName other r

/-- The name of the type of a relation's rows. -/
def rowsTypeName (s : Schema) (r : RelationId) : String :=
  Text.lower (if s.isNameShared r then r.text else r.name)

/-- The name of the type of a listing of a relation's rows. -/
def listingTypeName (s : Schema) (r : RelationId) : String := s.rowsTypeName r ++ "-listing"

end XmlPublishing.Schema

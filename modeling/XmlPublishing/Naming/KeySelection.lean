import XmlPublishing.Error

/-!
Choosing one foreign key out of several.
-/

namespace XmlPublishing

/-- The candidates whose source fields are the given set, or all of them. -/
def matchingKeys (candidates : List ForeignKey) : Option FieldSet → List ForeignKey
  | some fields => candidates.filter (·.sourceSet = fields)
  | none => candidates

/-- The only candidate with the given source fields; `child` and `parent` are named in errors. -/
def selectKey (candidates : List ForeignKey) (fields : Option FieldSet)
    (child parent : RelationId) : Except PublishError ForeignKey :=
  match matchingKeys candidates fields with
  | [k] => .ok k
  | [] => .error (.noSuchForeignKey child parent fields)
  | ks => .error (.ambiguousForeignKey child parent (match fields with
    | some fields => .severalWithFields ks.length fields
    | none => .several ks.length))

end XmlPublishing

import XmlPublishing.Naming.KeySelection
import XmlPublishing.Schema.Basic
import XmlPublishing.Text.Initials

/-!
Names of the elements that hold rows and collections of rows.

Elements are named after their relation. Where several foreign keys could embed the same relation
in one parent the name is qualified with the source fields of the key. How far that is needed
depends on the style of the collection: a wrapped one has an element of its own, an inline one
shares the content of the parent's row with elements for the opposite direction.

A policy is a value, so that another one can stand in for `NamingPolicy.standard`.
-/

namespace XmlPublishing

/-- How child rows are placed in the row of their parent: within one collection element per
foreign key, or directly. -/
inductive CollectionStyle where
  | wrapped
  | inline
deriving DecidableEq

/-- What the name of an embedded element may depend on. -/
structure PairContext where
  child : RelationId
  parent : RelationId
  fields : Option FieldSet
  style : CollectionStyle
  forward : List ForeignKey
  backward : List ForeignKey

namespace PairContext

/-- The context of embedding `child` and `parent` in one another, with the keys between them. -/
def ofSchema (s : Schema) (child parent : RelationId) (fields : Option FieldSet)
    (style : CollectionStyle) : PairContext :=
  { child, parent, fields, style
    forward := s.keysBetween child parent, backward := s.keysBetween parent child }

/-- The key that a qualified name is made from. Without fields the name is ambiguous. -/
def selectedKey (ctx : PairContext) : Except PublishError ForeignKey :=
  match ctx.fields with
  | some fields => selectKey ctx.forward (some fields) ctx.child ctx.parent
  | none => .error (.ambiguousForeignKey ctx.child ctx.parent .fieldsNotGiven)

end PairContext

/-- A policy for the names of elements. -/
structure NamingPolicy where
  /-- The row element of a relation on its own. -/
  row : RelationId → String
  /-- The element around all rows of a relation on its own. -/
  collection : RelationId → String
  /-- The element around the child's rows in a row of the parent. -/
  childCollection : PairContext → Except PublishError String
  /-- The element of each row of the child in a row of the parent. -/
  childRow : PairContext → Except PublishError String
  /-- The element of the parent's row in a row of the child. -/
  parentRow : PairContext → Except PublishError String

namespace NamingPolicy

/-- The relation's name in small letters. -/
def rowName (r : RelationId) : String := Text.lower r.name

/-- The name of a listing of a relation's rows. -/
def collectionName (r : RelationId) : String := rowName r ++ "-listing"

/-- A listing is qualified when several keys lead from the child to the parent. -/
def childCollectionName (ctx : PairContext) : Except PublishError String :=
  if ctx.forward.length ≤ 1 then .ok (collectionName ctx.child) else do
    let k ← ctx.selectedKey
    return collectionName ctx.child ++ "-from-" ++ Text.hyphenated k.sourceFields

/-- A child's row in a listing has its plain name. Placed inline it is qualified when several keys
lead from the child to the parent, or any key leads back. -/
def childRowName (ctx : PairContext) : Except PublishError String :=
  if ctx.style = .wrapped ∨ (ctx.forward.length ≤ 1 ∧ ctx.backward = []) then
    .ok (rowName ctx.child)
  else do
    let k ← ctx.selectedKey
    return if ctx.forward.length = 1 then "child-" ++ rowName ctx.child
      else rowName ctx.child ++ "-child-referencing-via-" ++ Text.hyphenated k.sourceFields

/-- A parent's row is qualified when several keys lead to it, or, next to inline rows, when any
key leads back. -/
def parentRowName (ctx : PairContext) : Except PublishError String :=
  if ctx.forward.length ≤ 1 ∧ (ctx.style = .wrapped ∨ ctx.backward = []) then
    .ok (rowName ctx.parent)
  else do
    let k ← ctx.selectedKey
    return if ctx.forward.length = 1 then "parent-" ++ rowName ctx.parent
      else rowName ctx.parent ++ "-parent-referenced-via-" ++ Text.hyphenated k.sourceFields

/-- The standard policy: names in small letters, qualified only where needed. -/
def standard : NamingPolicy where
  row := rowName
  collection := collectionName
  childCollection := childCollectionName
  childRow := childRowName
  parentRow := parentRowName

end NamingPolicy

end XmlPublishing

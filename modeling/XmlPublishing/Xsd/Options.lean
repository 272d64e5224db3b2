import XmlPublishing.Query.Options

/-!
What the user can choose about XML Schema documents, in code or in a JSON document.
-/

namespace XmlPublishing

/-- Options of a schema document. The elements of child collections and of parents may be made
optional, the element of the root's collection may be declared as well, and `indent` is the number
of spaces per level. -/
structure XsdOptions where
  childCollectionsOptional : Bool := true
  parentElementsOptional : Bool := false
  includeCollectionRoot : Bool := false
  indent : Nat := 2
deriving DecidableEq

def XsdOptions.ofJson? (j : Json) : Option XsdOptions := do
  let base : XsdOptions := {}
  match ← j.members? ["child_collections_optional", "parent_elements_optional",
      "include_collection_root", "indent"] with
  | [childCollectionsOptional, parentElementsOptional, includeCollectionRoot, indent] =>
    return {
      childCollectionsOptional :=
        ← Json.optional base.childCollectionsOptional Json.bool? childCollectionsOptional
      parentElementsOptional :=
        ← Json.optional base.parentElementsOptional Json.bool? parentElementsOptional
      includeCollectionRoot :=
        ← Json.optional base.includeCollectionRoot Json.bool? includeCollectionRoot
      indent := ← Json.optional base.indent (Json.nat? maxIndent) indent }
  | _ => none

end XmlPublishing

import XmlPublishing.FreshName
import XmlPublishing.Layout.Defaults
import XmlPublishing.Naming.TypeName
import XmlPublishing.Xsd.BuiltinType
import XmlPublishing.Xsd.Document
import XmlPublishing.Xsd.Options

/-!
The XML Schema document for a layout.

Equal nodes share one type. A type stands before the types that its elements use, and the type of
a collection follows those of its rows. Type names that are taken get a number, from two on. All
relations and fields of the layout must be known to the schema.
-/

namespace XmlPublishing.Xsd

/-- The types named so far: those of rows by node, those of collections by the type of their
rows, and all names in use. -/
structure TypeRegistry where
  rowsTypes : List (Layout × String)
  listingTypes : List (String × String)
  usedNames : NameSet

namespace TypeRegistry

def empty : TypeRegistry := ⟨[], [], ∅⟩

/-- The type of the rows of a node equal to `n`. -/
def rowsType? (r : TypeRegistry) (n : Layout) : Option String :=
  (r.rowsTypes.find? fun entry => entry.1 == n).map (·.2)

/-- The type of collections of rows of the given type. -/
def listingType? (r : TypeRegistry) (rowsType : String) : Option String :=
  r.listingTypes.lookup rowsType

/-- A name like `base` that is not in use. -/
def freshName (r : TypeRegistry) (base : String) : String :=
  XmlPublishing.freshName (fun name => name ∉ r.usedNames) base 2 r.usedNames.size

def addRowsType (r : TypeRegistry) (n : Layout) (name : String) : TypeRegistry :=
  { r with rowsTypes := (n, name) :: r.rowsTypes, usedNames := r.usedNames.insert name }

def addListingType (r : TypeRegistry) (rowsType name : String) : TypeRegistry :=
  { r with listingTypes := (rowsType, name) :: r.listingTypes
           usedNames := r.usedNames.insert name }

end TypeRegistry

/-- Describing a layout keeps a registry and stops at the first error. -/
abbrev DescribeM := StateT TypeRegistry (Except PublishError)

def fieldElement (relation : RelationId) (fields : List Field) (name : String) :
    Except PublishError ElementDecl :=
  match findField? fields name with
  | some field => .ok
    { name := Text.lower name
      typeName := (BuiltinType.ofDbType field.dbType).name
      optional := field.nullable }
  | none => .error (.noSuchField relation name)

/-- Whether some source field of a key may be null, or is not known. -/
def isNullableKey (fields : List Field) (k : ForeignKey) : Bool :=
  k.sourceFields.any fun name => match findField? fields name with
    | some field => field.nullable
    | none => true

/-- The type of collections of the rows of `n`, with its definition if it is new. -/
def typeOfListing (s : Schema) (n : Layout) (rowsType : String) :
    DescribeM (String × List ComplexType) := do
  let registry ← get
  match registry.listingType? rowsType with
  | some name => return (name, [])
  | none =>
    let name := registry.freshName (s.listingTypeName n.relation)
    set (registry.addListingType rowsType name)
    let rows : ElementDecl :=
      { name := n.rowName, typeName := rowsType, optional := true, unbounded := true }
    return (name, [⟨name, [rows]⟩])

/-- The element of an embedded child, whose rows have the given type, with the definition of the
type of its collection if that is new. -/
def childElement (s : Schema) (o : XsdOptions) (style : CollectionStyle) (n : Layout)
    (rowsType : String) : DescribeM (ElementDecl × List ComplexType) :=
  match style with
  | .wrapped => do
    let (name, types) ← typeOfListing s n rowsType
    return ({ name := n.collectionName, typeName := name, optional := o.childCollectionsOptional },
      types)
  | .inline =>
    return ({ name := n.rowName, typeName := rowsType, optional := true, unbounded := true }, [])

mutual
/-- The type of the rows of a node, with the definitions that are new. -/
def typeOfRows (s : Schema) (o : XsdOptions) : Layout → DescribeM (String × List ComplexType)
  | .node info parents children => do
    let registry ← get
    match registry.rowsType? (.node info parents children) with
    | some name => return (name, [])
    | none =>
      let name := registry.freshName (s.rowsTypeName info.relation)
      set (registry.addRowsType (.node info parents children) name)
      let fields ← s.knownFields info.relation
      let own ← liftM (info.fields.mapM (fieldElement info.relation fields))
      let (parentElements, parentTypes) ← parentElements s o fields parents
      let (childElements, childTypes) ← childElements s o info.style children
      return (name, ⟨name, own ++ parentElements ++ childElements⟩ :: (parentTypes ++ childTypes))
termination_by structural n => n
/-- The elements of embedded parents, in rows with the given fields. -/
def parentElements (s : Schema) (o : XsdOptions) (fields : List Field) :
    List (Joined Layout) → DescribeM (List ElementDecl × List ComplexType)
  | [] => return ([], [])
  | ⟨key, n⟩ :: es => do
    let (name, types) ← typeOfRows s o n
    let element : ElementDecl :=
      { name := n.rowName, typeName := name
        optional := o.parentElementsOptional || isNullableKey fields key }
    let (elements, moreTypes) ← parentElements s o fields es
    return (element :: elements, types ++ moreTypes)
termination_by structural es => es
/-- The elements of embedded children, in rows with the given style. -/
def childElements (s : Schema) (o : XsdOptions) (style : CollectionStyle) :
    List (Joined Layout) → DescribeM (List ElementDecl × List ComplexType)
  | [] => return ([], [])
  | ⟨_, n⟩ :: es => do
    let (name, types) ← typeOfRows s o n
    let (element, listingTypes) ← childElement s o style n name
    let (elements, moreTypes) ← childElements s o style es
    return (element :: elements, types ++ listingTypes ++ moreTypes)
termination_by structural es => es
end

/-- The global elements for a layout, and all type definitions. -/
def declarations (s : Schema) (o : XsdOptions) (n : Layout) :
    DescribeM (List ElementDecl × List ComplexType) := do
  let (name, types) ← typeOfRows s o n
  let row : ElementDecl := { name := n.rowName, typeName := name }
  if o.includeCollectionRoot then
    let (listing, listingTypes) ← typeOfListing s n name
    return ([row, { name := n.collectionName, typeName := listing }], types ++ listingTypes)
  else return ([row], types)

def Document.ofLayout (s : Schema) (o : XsdOptions) (n : Layout) :
    Except PublishError Document := do
  let (roots, types) ← (declarations s o n).run' .empty
  return { targetNs := n.ns, roots, types }

def text (s : Schema) (o : XsdOptions) (n : Layout) : Except PublishError String :=
  (Document.ofLayout s o n).map (·.text o.indent)

end XmlPublishing.Xsd

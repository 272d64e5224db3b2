import XmlPublishing.Json.Record
import XmlPublishing.Naming.Policy

/-!
What the user can choose about queries, in code or in a JSON document. Every option has a default.
-/

namespace XmlPublishing

/-- The largest number of spaces per level that a document may ask for. -/
def maxIndent : Nat := 18446744073709551615

/-- The SQL type of an XML column: native XML, or its text in a large character object. -/
inductive XmlType where
  | xml
  | largeChar
deriving DecidableEq

/-- The plain columns next to the XML column of a rows query: none, the included fields, or all
fields of the relation, so that a filter may mention any of them. -/
inductive PlainColumns where
  | omitted
  | included
  | all
deriving DecidableEq

def XmlType.words : List (String × XmlType) := [("xml", .xml), ("large_char", .largeChar)]

def PlainColumns.words : List (String × PlainColumns) :=
  [("none", .omitted), ("included", .included), ("all", .all)]

def CollectionStyle.words : List (String × CollectionStyle) :=
  [("wrapped", .wrapped), ("inline", .inline)]

structure RowColumns where
  plain : PlainColumns
  xmlType : XmlType
deriving DecidableEq

/-- Only a native XML column, as embedded queries have it. -/
def RowColumns.xmlOnly : RowColumns := ⟨.omitted, .xml⟩

/-- Options of queries. `childSideOnLeft` puts the child's column first in join conditions;
`indent` is the number of spaces per level. -/
structure QueryOptions where
  xmlType : XmlType := .xml
  plainColumns : PlainColumns := .included
  childSideOnLeft : Bool := true
  indent : Nat := 2
deriving DecidableEq

namespace QueryOptions

/-- The columns of a rows query that stands on its own. -/
def rowColumns (o : QueryOptions) : RowColumns := ⟨o.plainColumns, o.xmlType⟩

def ofJson? (j : Json) : Option QueryOptions := do
  let base : QueryOptions := {}
  match ← j.members? ["xml_output_type", "field_output", "child_side_on_left", "indent"] with
  | [xmlType, plainColumns, childSideOnLeft, indent] =>
    let xmlType ← Json.optional base.xmlType (Json.choice? XmlType.words) xmlType
    let plainColumns ←
      Json.optional base.plainColumns (Json.choice? PlainColumns.words) plainColumns
    let childSideOnLeft ← Json.optional base.childSideOnLeft Json.bool? childSideOnLeft
    let indent ← Json.optional base.indent (Json.nat? maxIndent) indent
    return ⟨xmlType, plainColumns, childSideOnLeft, indent⟩
  | _ => none

end QueryOptions

end XmlPublishing

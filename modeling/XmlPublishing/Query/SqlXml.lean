import XmlPublishing.Query.Model
import XmlPublishing.Text.Case
import XmlPublishing.Text.Quoted
import XmlPublishing.Text.Split

/-!
Standard SQL/XML text of query models (`xmlelement`, `xmlforest`, `xmlagg`).

Text is laid out as lists of lines. A nested query is cut into its lines and indented one unit
further than what is around it; empty lines stay empty. Names of elements are quoted identifiers
and namespaces are quoted literals; everything else is written as the model has it.
-/

namespace XmlPublishing.SqlXml

/-- The text `s` as a quoted identifier. -/
def identifier (s : String) : String := Text.quoted '"' s

def namespaceItem (ns : String) : String :=
  "xmlnamespaces(default " ++ Text.quoted '\'' ns ++ ")"

def onFirst (f : String → String) : List String → List String
  | [] => []
  | line :: rest => f line :: rest

def onLast (f : String → String) : List String → List String
  | [] => []
  | [line] => [f line]
  | line :: rest => line :: onLast f rest

/-- The line one unit further in. -/
def indentLine (unit line : String) : String := if line = "" then line else unit ++ line

def indented (unit : String) (lines : List String) : List String := lines.map (indentLine unit)

/-- The items one unit further in, separated by commas. -/
def commaList (unit : String) : List (List String) → List String
  | [] => []
  | [item] => indented unit item
  | item :: rest => indented unit (onLast (· ++ ",") item) ++ commaList unit rest

/-- A call of `xmlelement` with the given content. -/
def element (unit name : String) (content : List (List String)) : List String :=
  let head := "xmlelement(name " ++ identifier name
  match content with
  | [] => [head ++ ")"]
  | _ => (head ++ ",") :: commaList unit content ++ [")"]

def subquery (unit query : String) : List String :=
  "(" :: indented unit (Text.lines query) ++ [")"]

/-- The text of an XML expression as a large character object. -/
def serialized (xml : List String) : List String :=
  onLast (· ++ " as clob)") (onFirst ("xmlserialize(content " ++ ·) xml)

/-- An XML expression as a result column. -/
def resultColumn (xml : List String) (largeChar : Bool) (column : String) : List String :=
  onLast (· ++ (" as " ++ column)) (if largeChar then serialized xml else xml)

/-- The clauses after `from`. -/
def tail (filter : Option String) (orderBy : List String) : List String :=
  (match filter with
    | some filter => ["where " ++ filter]
    | none => []) ++
  (if orderBy = [] then [] else ["order by " ++ ", ".intercalate orderBy])

/-- A call of `xmlforest` for the given fields, if there are any. -/
def forest (name : String) (fields : List String) : List (List String) :=
  if fields = [] then [] else
    [["xmlforest(" ++ ", ".intercalate (fields.map fun field =>
      name ++ "." ++ field ++ " as " ++ identifier (Text.lower field)) ++ ")"]]

/-- The declaration of a default namespace as content, if there is one. -/
def namespaceContent : Option String → List (List String)
  | some ns => [[namespaceItem ns]]
  | none => []

/-- The aggregation of the row elements of a query with the given alias. -/
def aggregate (name : String) (orderBy : List String) : String :=
  "xmlagg(" ++ name ++ "." ++ rowXmlColumn ++
    (if orderBy = [] then "" else " order by " ++ ", ".intercalate orderBy) ++ ")"

structure RowsParts where
  name : String
  relation : String
  selectFields : List String
  xmlFields : List String
  rowName : String
  ns : Option String
  parents : List String
  children : List String
  filter : Option String
  orderBy : List String
  largeChar : Bool
  column : String

def RowsParts.ofModel (m : QueryModel) : Except BackendError RowsParts := do
  let name ← m.text QueryModel.aliasKey
  let relation ← m.text QueryModel.relationKey
  let selectFields ← m.list QueryModel.selectFieldsKey
  let xmlFields ← m.list QueryModel.xmlFieldsKey
  let rowName ← m.text QueryModel.rowElementNameKey
  let ns ← m.text? QueryModel.namespaceKey
  let parents ← m.list QueryModel.parentFragmentsKey
  let children ← m.list QueryModel.childFragmentsKey
  let filter ← m.text? QueryModel.filterKey
  let orderBy ← m.list QueryModel.orderByKey
  let largeChar ← m.flag QueryModel.largeCharOutputKey
  let column ← m.text QueryModel.resultColumnKey
  return ⟨name, relation, selectFields, xmlFields, rowName, ns, parents, children, filter, orderBy,
    largeChar, column⟩

/-- The lines of a rows query: the plain columns, then the row element. -/
def RowsParts.lines (unit : String) (q : RowsParts) : List String :=
  let content := namespaceContent q.ns ++ forest q.name q.xmlFields ++
    (q.parents ++ q.children).map (subquery unit)
  let xml := resultColumn (element unit q.rowName content) q.largeChar q.column
  let columns := q.selectFields.map (fun field => [q.name ++ "." ++ field]) ++ [xml]
  "select" :: commaList unit columns ++ ["from " ++ q.relation ++ " " ++ q.name] ++
    tail q.filter q.orderBy

/-- What a collection or forest is written from; `wrapper` is the name of the element around it
and the namespace that it declares. -/
structure GroupParts where
  name : String
  rowsQuery : String
  filter : Option String
  orderBy : List String
  largeChar : Bool
  column : String
  wrapper : Option (String × Option String)

/-- Reads the model of a collection (`wrapped`) or forest. -/
def GroupParts.ofModel (wrapped : Bool) (m : QueryModel) : Except BackendError GroupParts := do
  let name ← m.text QueryModel.aliasKey
  let rowsQuery ← m.text QueryModel.rowsQueryKey
  let filter ← m.text? QueryModel.filterKey
  let orderBy ← m.list QueryModel.orderByKey
  let largeChar ← m.flag QueryModel.largeCharOutputKey
  let column ← m.text QueryModel.resultColumnKey
  if wrapped then
    let collectionName ← m.text QueryModel.collectionElementNameKey
    let ns ← m.text? QueryModel.namespaceKey
    return ⟨name, rowsQuery, filter, orderBy, largeChar, column, some (collectionName, ns)⟩
  else return ⟨name, rowsQuery, filter, orderBy, largeChar, column, none⟩

/-- The lines of a collection or forest: one XML value over a derived table. -/
def GroupParts.lines (unit : String) (q : GroupParts) : List String :=
  let elements := aggregate q.name q.orderBy
  let xml := match q.wrapper with
    | some (collectionName, ns) =>
      element unit collectionName (namespaceContent ns ++ [[elements]])
    | none => [elements]
  "select" :: indented unit (resultColumn xml q.largeChar q.column) ++ ["from ("] ++
    indented unit (Text.lines q.rowsQuery) ++ [") " ++ q.name] ++ tail q.filter []

/-- The text of some lines, without an end of line after the last. -/
def joinLines (lines : List String) : String := "\n".intercalate lines

/-- The standard backend, with `indent` spaces per level. -/
def backend (indent : Nat) : Backend :=
  let unit := String.ofList (List.replicate indent ' ')
  fun shape m => match shape with
    | .rows => (RowsParts.ofModel m).map fun q => joinLines (q.lines unit)
    | .collection => (GroupParts.ofModel true m).map fun q => joinLines (q.lines unit)
    | .forest => (GroupParts.ofModel false m).map fun q => joinLines (q.lines unit)

end XmlPublishing.SqlXml

import XmlPublishing.Query.Resolve
import XmlPublishing.Query.SqlXml

/-!
From layouts to nested SQL/XML queries.

There are three shapes of query: the rows of a relation, each with its row element; one collection
element around all rows; and all row elements without one (a forest). Each can be had as text or
as the model that the text is made from. A caller may give the alias of the outermost relation, a
condition on its rows, and the namespace in effect where the result will be placed.
-/

namespace XmlPublishing

/-- Writes queries over a schema, with a backend. -/
structure Publisher where
  schema : Schema
  backend : Backend
  options : QueryOptions

namespace Publisher

/-- The publisher over a schema, which must be given. Without a backend it writes standard
SQL/XML, indented as the options say. -/
def ofSchema? (schema? : Option Schema) (backend? : Option Backend) (options : QueryOptions) :
    Except PublishError Publisher :=
  match schema? with
  | some schema => .ok
    { schema, options
      backend := match backend? with
        | some backend => backend
        | none => SqlXml.backend options.indent }
  | none => .error (.configuration .publisherWithoutSchema)

def render (p : Publisher) (shape : QueryShape) (m : QueryModel) : Except PublishError String :=
  (p.backend shape m).mapError fun e => .rendering e.message

/-- What the plans of this publisher depend on. -/
def planner (p : Publisher) : Planner := ⟨p.schema, p.options.childSideOnLeft⟩

variable (p : Publisher) (n : Layout) (name? filter : Option String)

def rowsModel (columns : RowColumns) (ambient : Option String) : Except PublishError QueryModel :=
  (p.planner.topRows n name? filter columns ambient).model p.render

/-- A query with one result row per row of the relation: its plain columns, and `ROW_XML`. -/
def rows (columns : RowColumns) (ambient : Option String) : Except PublishError String :=
  (p.planner.topRows n name? filter columns ambient).text p.render

def collectionModel (xmlType : XmlType) (ambient : Option String) :
    Except PublishError QueryModel :=
  (p.planner.topGroup n name? filter xmlType ambient .wrapped).model p.render

/-- A query for a single value, `ROWCOLL_XML`: the collection element around all row elements. -/
def collection (xmlType : XmlType) (ambient : Option String) : Except PublishError String :=
  (p.planner.topGroup n name? filter xmlType ambient .wrapped).text p.render

def forestModel (ambient : Option String) : Except PublishError QueryModel :=
  (p.planner.topGroup n name? filter .xml ambient .inline).model p.render

/-- A query for a single value, `ROWCOLL_XML`: all row elements, always as native XML. -/
def forest (ambient : Option String) : Except PublishError String :=
  (p.planner.topGroup n name? filter .xml ambient .inline).text p.render

/-- The rows query with the columns of the options and nothing else chosen. -/
def publish : Except PublishError String := p.rows n none none p.options.rowColumns none

end Publisher

end XmlPublishing

import XmlPublishing.Query.Model
import XmlPublishing.Query.Plan

/-!
Turning plans into models.

The embedded queries of a plan are rendered first, and their texts are put into the model of the
query around them. `render` is any way to render a model, and may have effects; the order of its
calls is part of what is defined here: the parents of a rows query in order, then its children in
order, each embedded query just after everything inside it. A rows query without metadata fails
before anything inside it is rendered.
-/

namespace XmlPublishing

/-- The sort terms as they are written after `order by`. -/
def orderByTexts (name : String) (terms : List SortTerm) : List String :=
  terms.map fun t => name ++ "." ++ t.text

/-- The model of a rows query, from its columns and the texts of what is embedded in it. -/
def RowsInfo.model (i : RowsInfo) (columns parents children : List String) : QueryModel :=
  QueryModel.empty
    |>.insert QueryModel.relationKey (.text i.relation.text)
    |>.insert QueryModel.aliasKey (.text i.name)
    |>.insert QueryModel.selectFieldsKey (.list columns)
    |>.insert QueryModel.xmlFieldsKey (.list i.fields)
    |>.insert QueryModel.rowElementNameKey (.text i.rowName)
    |>.insert? QueryModel.namespaceKey (i.declares.map .text)
    |>.insert QueryModel.parentFragmentsKey (.list parents)
    |>.insert QueryModel.childFragmentsKey (.list children)
    |>.insert? QueryModel.filterKey (i.filter.map fun f => .text f.text)
    |>.insert QueryModel.orderByKey (.list (orderByTexts i.name i.order))
    |>.insert QueryModel.largeCharOutputKey (.flag i.largeChar)
    |>.insert QueryModel.resultColumnKey (.text rowXmlColumn)

/-- The model of a group, from the text of its rows query. -/
def GroupInfo.model (i : GroupInfo) (rowsQuery : String) : QueryModel :=
  QueryModel.empty
    |>.insert? QueryModel.collectionElementNameKey (i.wrapper.map fun w => .text w.name)
    |>.insert? QueryModel.namespaceKey ((i.wrapper.bind (·.declares)).map .text)
    |>.insert QueryModel.rowsQueryKey (.text rowsQuery)
    |>.insert QueryModel.aliasKey (.text i.name)
    |>.insert? QueryModel.filterKey (i.filter.map fun f => .text f.text)
    |>.insert QueryModel.orderByKey (.list (orderByTexts i.name i.order))
    |>.insert QueryModel.largeCharOutputKey (.flag i.largeChar)
    |>.insert QueryModel.resultColumnKey (.text collectionXmlColumn)

def GroupInfo.shape (i : GroupInfo) : QueryShape :=
  if i.wrapper.isSome then .collection else .forest

variable {m : Type → Type} [Monad m] [MonadExceptOf PublishError m]

/-- The plain columns of a rows query, which need the metadata of its relation. -/
def RowsInfo.knownColumns (i : RowsInfo) : m (List String) :=
  match i.columns with
  | some columns => pure columns
  | none => throw (.unknownRelation i.relation)

mutual
def RowsPlan.model (render : QueryShape → QueryModel → m String) : RowsPlan → m QueryModel
  | .rows info parents children => do
    let columns ← info.knownColumns
    let parents ← RowsPlan.texts render parents
    let children ← Group.texts render children
    return info.model columns parents children
termination_by structural p => p
def RowsPlan.texts (render : QueryShape → QueryModel → m String) : List RowsPlan → m (List String)
  | [] => pure []
  | p :: ps => do
    let model ← RowsPlan.model render p
    let text ← render .rows model
    let rest ← RowsPlan.texts render ps
    return text :: rest
termination_by structural ps => ps
def Group.texts (render : QueryShape → QueryModel → m String) :
    List (Group RowsPlan) → m (List String)
  | [] => pure []
  | ⟨info, rows⟩ :: gs => do
    let model ← RowsPlan.model render rows
    let rowsQuery ← render .rows model
    let text ← render info.shape (info.model rowsQuery)
    let rest ← Group.texts render gs
    return text :: rest
termination_by structural gs => gs
end

def RowsPlan.text (render : QueryShape → QueryModel → m String) (p : RowsPlan) : m String := do
  render .rows (← p.model render)

def Group.model (render : QueryShape → QueryModel → m String) (g : GroupPlan) : m QueryModel := do
  return g.info.model (← g.rows.text render)

def Group.text (render : QueryShape → QueryModel → m String) (g : GroupPlan) : m String := do
  render g.info.shape (← g.model render)

end XmlPublishing

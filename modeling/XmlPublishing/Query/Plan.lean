import XmlPublishing.Layout.Basic
import XmlPublishing.Query.Aliases
import XmlPublishing.Query.Options

/-!
Query plans: what a query consists of, before any of it is text.

A rows query reads one relation and builds a row element per row; inside it stand a rows query per
embedded parent and a group per embedded child. A group puts a rows query into its `from` clause
and aggregates the row elements, in a collection element or without one. The plan says which
aliases are introduced where, which columns are compared and sorted by, and which namespaces are
declared.

Planning cannot fail. A rows query that needs the fields of a relation without metadata has no
columns; that is an error only when the plan is turned into text.

The namespace in effect (`ambient`) is declared by an element only where its own differs. In a
collection the wrapper declares it and the rows inherit it, otherwise every row does.
-/

namespace XmlPublishing

/-- The comparison of the two sides of a foreign key. -/
structure Join where
  childAlias : String
  parentAlias : String
  pairs : List (String × String)
  childOnLeft : Bool
deriving DecidableEq

/-- The join as a condition, in the field order of the key. -/
def Join.text (j : Join) : String :=
  " and ".intercalate (j.pairs.map fun (childField, parentField) =>
    let child := j.childAlias ++ "." ++ childField
    let parent := j.parentAlias ++ "." ++ parentField
    if j.childOnLeft then child ++ " = " ++ parent else parent ++ " = " ++ child)

/-- What restricts the rows of a query: a condition of the caller's, or a join. -/
inductive Filter where
  | condition (text : String)
  | join (j : Join)
deriving DecidableEq

def Filter.text : Filter → String
  | .condition text => text
  | .join j => j.text

/-- The parts of a rows query that are not queries. `columns` lists the plain columns, if they
are known; `declares` is the namespace that the row element declares; `order` refers to `name`,
the alias of the relation. -/
structure RowsInfo where
  relation : RelationId
  name : String
  columns : Option (List String)
  fields : List String
  rowName : String
  declares : Option String
  filter : Option Filter
  order : List SortTerm
  largeChar : Bool
deriving DecidableEq

structure Wrapper where
  name : String
  declares : Option String
deriving DecidableEq

/-- The parts of a group other than its rows query. `name` is the alias of the rows query, whose
columns `filter` and `order` refer to. -/
structure GroupInfo where
  wrapper : Option Wrapper
  name : String
  filter : Option Filter
  order : List SortTerm
  largeChar : Bool
deriving DecidableEq

structure Group (α : Type) where
  info : GroupInfo
  rows : α

/-- The plan of a rows query, with those of its embedded parents and children. -/
inductive RowsPlan where
  | rows (info : RowsInfo) (parents : List RowsPlan) (children : List (Group RowsPlan))

abbrev GroupPlan := Group RowsPlan

/-- The namespace to declare for `ns` where `ambient` is in effect. -/
def declaredNs (ns ambient : Option String) : Option String := if ns = ambient then none else ns

/-- The sort terms of a node, none when its order is open. -/
def NodeInfo.sortTerms (i : NodeInfo) : List SortTerm :=
  match i.order with
  | some order => order.terms
  | none => []

/-- What all parts of a plan depend on. -/
structure Planner where
  schema : Schema
  childOnLeft : Bool

namespace Planner

/-- The plain columns of a rows query for a node. -/
def columns (p : Planner) (i : NodeInfo) : PlainColumns → Option (List String)
  | .omitted => some []
  | .included => some i.fields
  | .all => (p.schema.fields? i.relation).map fun fields => fields.map (·.name)

/-- The rows query for a node on its own, whose relation has the alias `name`. -/
def rowsInfo (p : Planner) (i : NodeInfo) (name : String) (filter : Option Filter)
    (columns : RowColumns) (ambient : Option String) (sorted : Bool) : RowsInfo where
  relation := i.relation
  name := name
  columns := p.columns i columns.plain
  fields := i.fields
  rowName := i.rowName
  declares := declaredNs i.ns ambient
  filter := filter
  order := if sorted then i.sortTerms else []
  largeChar := columns.xmlType = .largeChar

/-- The group around the rows of a node, as a collection or a forest. -/
def groupInfo (i : NodeInfo) (name : String) (filter : Option Filter) (xmlType : XmlType)
    (ambient : Option String) (style : CollectionStyle) : GroupInfo where
  wrapper := match style with
    | .wrapped => some ⟨i.collectionName, declaredNs i.ns ambient⟩
    | .inline => none
  name := name
  filter := filter
  order := i.sortTerms
  largeChar := xmlType = .largeChar

/-- The namespace in effect for the rows in a group around the rows of a node. -/
def rowsAmbient (i : NodeInfo) (ambient : Option String) : CollectionStyle → Option String
  | .wrapped => i.ns <|> ambient
  | .inline => ambient

mutual
/-- The rows query for a layout, whose relation has the alias `name` among `aliases`. -/
def rows (p : Planner) (name : String) (aliases : Aliases) (filter : Option Filter)
    (columns : RowColumns) (ambient : Option String) (sorted : Bool) : Layout → RowsPlan
  | .node info parents children =>
    let inner := info.ns <|> ambient
    .rows (p.rowsInfo info name filter columns ambient sorted)
      (p.parents name aliases inner parents) (p.children name aliases inner info.style children)
termination_by structural n => n
/-- The rows queries of embedded parents, in rows with the alias `name`. -/
def parents (p : Planner) (name : String) (aliases : Aliases) (ambient : Option String) :
    List (Joined Layout) → List RowsPlan
  | [] => []
  | ⟨key, n⟩ :: es =>
    let (parent, nested) := aliases.introduce n.relation
    let join := Filter.join ⟨name, parent, key.pairs, p.childOnLeft⟩
    p.rows parent nested (some join) .xmlOnly ambient false n ::
      p.parents name aliases ambient es
termination_by structural es => es
/-- The groups of embedded children, in rows with the alias `name`. A child has two aliases: that
of its rows query, and inside it that of its relation. -/
def children (p : Planner) (name : String) (aliases : Aliases) (ambient : Option String)
    (style : CollectionStyle) : List (Joined Layout) → List GroupPlan
  | [] => []
  | ⟨key, n⟩ :: es =>
    let (child, outer) := aliases.introduce n.relation
    let (relation, nested) := outer.introduce n.relation
    let join := Filter.join ⟨child, name, key.pairs, p.childOnLeft⟩
    ⟨groupInfo n.info child (some join) .xml ambient style,
      p.rows relation nested none ⟨.all, .xml⟩ (rowsAmbient n.info ambient style) false n⟩ ::
      p.children name aliases ambient style es
termination_by structural es => es
end

/-- The plan of a rows query that stands on its own. -/
def topRows (p : Planner) (n : Layout) (name? : Option String) (filter : Option String)
    (columns : RowColumns) (ambient : Option String) : RowsPlan :=
  let (name, aliases) := Aliases.empty.introduceAs name? n.relation
  p.rows name aliases (filter.map .condition) columns ambient true n

/-- The plan of a collection or forest that stands on its own. -/
def topGroup (p : Planner) (n : Layout) (name? : Option String) (filter : Option String)
    (xmlType : XmlType) (ambient : Option String) (style : CollectionStyle) : GroupPlan :=
  let (name, outer) := Aliases.empty.introduceAs name? n.relation
  let (relation, nested) := outer.introduce n.relation
  ⟨groupInfo n.info name (filter.map .condition) xmlType ambient style,
    p.rows relation nested none ⟨.all, .xml⟩ (rowsAmbient n.info ambient style) false n⟩

end Planner

end XmlPublishing

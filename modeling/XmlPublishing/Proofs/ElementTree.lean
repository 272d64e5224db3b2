import XmlPublishing.Query.Plan
import XmlPublishing.Text.Case

/-!
The elements that a query builds.

`RowsPlan.elementTree` and `Group.elementTree` say which elements stand inside one another when a
planned query is run: a row element with its fields, then what the embedded parents build, then what
the embedded children build.
-/

namespace XmlPublishing

/-- A finite tree of element names, in document order. -/
inductive ElementTree where
  | element (name : String) (content : List ElementTree)

/-- The elements of fields, which hold text only. -/
def ElementTree.fields (names : List String) : List ElementTree :=
  names.map fun name => .element (Text.lower name) []

/-- The tree inside the element around a collection, if there is one. -/
def ElementTree.inside (t : ElementTree) : Option String → ElementTree
  | some name => .element name [t]
  | none => t

mutual
/-- A row element: the fields, then what each embedded query builds. -/
def RowsPlan.elementTree : RowsPlan → ElementTree
  | .rows info parents children =>
    .element info.rowName (ElementTree.fields info.fields ++ RowsPlan.elementTrees parents ++
      Group.elementTrees children)
termination_by structural q => q
def RowsPlan.elementTrees : List RowsPlan → List ElementTree
  | [] => []
  | q :: qs => q.elementTree :: RowsPlan.elementTrees qs
termination_by structural qs => qs
def Group.elementTrees : List (Group RowsPlan) → List ElementTree
  | [] => []
  | ⟨info, rows⟩ :: gs =>
    rows.elementTree.inside (info.wrapper.map (·.name)) :: Group.elementTrees gs
termination_by structural gs => gs
end

/-- What a group builds: row elements, in their collection element or without one. -/
def Group.elementTree (g : GroupPlan) : ElementTree :=
  g.rows.elementTree.inside (g.info.wrapper.map (·.name))

theorem RowsPlan.elementTree_rows (info : RowsInfo) (parents : List RowsPlan)
    (children : List GroupPlan) :
    (RowsPlan.rows info parents children).elementTree =
      .element info.rowName (ElementTree.fields info.fields ++ parents.map RowsPlan.elementTree ++
        children.map Group.elementTree) := by
  have hparents : RowsPlan.elementTrees parents = parents.map RowsPlan.elementTree := by
    induction parents with
    | nil => rfl
    | cons q qs ih => rw [RowsPlan.elementTrees, ih, List.map_cons]
  have hchildren : Group.elementTrees children = children.map Group.elementTree := by
    induction children with
    | nil => rfl
    | cons g gs ih => rw [Group.elementTrees, ih, List.map_cons, Group.elementTree]
  rw [RowsPlan.elementTree, hparents, hchildren]

end XmlPublishing

import XmlPublishing.Layout.SortOrder
import XmlPublishing.Naming.Policy

/-!
Layouts: trees that say how relations appear in the output.

A node names a relation, the fields to include, its elements, and the child and parent relations
whose rows stand inside each of its rows; every embedded node comes with the foreign key that
joins it. Layouts are values, so an edit (`XmlPublishing.Layout.Edit`) gives a new one.

`==` on layouts compares relations and foreign keys by their own `==` and everything else
literally.
-/

namespace XmlPublishing

/-- What a node says of its own relation. `ns` is its XML namespace, which embedded nodes without
one inherit. -/
structure NodeInfo where
  relation : RelationId
  fields : List String
  rowName : String
  collectionName : String
  style : CollectionStyle
  order : Option SortOrder
  ns : Option String
deriving DecidableEq

instance : BEq NodeInfo :=
  ⟨fun a b => a.relation == b.relation && decide ({ a with relation := b.relation } = b)⟩

/-- Something that stands inside a node, with the foreign key that joins it. -/
structure Joined (α : Type) where
  key : ForeignKey
  layout : α

/-- A tree of relations in the output. -/
inductive Layout where
  | node (info : NodeInfo) (parents children : List (Joined Layout))

namespace Layout

/-- What the root says of its own relation. -/
def info : Layout → NodeInfo
  | .node info _ _ => info

def parents : Layout → List (Joined Layout)
  | .node _ parents _ => parents

def children : Layout → List (Joined Layout)
  | .node _ _ children => children

def relation (n : Layout) : RelationId := n.info.relation

def fields (n : Layout) : List String := n.info.fields

def rowName (n : Layout) : String := n.info.rowName

def collectionName (n : Layout) : String := n.info.collectionName

def style (n : Layout) : CollectionStyle := n.info.style

def order (n : Layout) : Option SortOrder := n.info.order

def ns (n : Layout) : Option String := n.info.ns

mutual
/-- Whether two layouts describe the same output. -/
def beq : Layout → Layout → Bool
  | .node i parents children, .node i' parents' children' =>
    i == i' && beqList parents parents' && beqList children children'
termination_by structural n => n
def beqList : List (Joined Layout) → List (Joined Layout) → Bool
  | [], [] => true
  | ⟨key, n⟩ :: es, ⟨key', n'⟩ :: es' => key == key' && beq n n' && beqList es es'
  | _, _ => false
termination_by structural es => es
end

instance : BEq Layout := ⟨beq⟩

/-- A node with nothing embedded. -/
def leaf (info : NodeInfo) : Layout := .node info [] []

/-- The layout with another description of its root's relation. -/
def withInfo (n : Layout) (info : NodeInfo) : Layout := .node info n.parents n.children

/-- The name under which the rows of an embedded child appear in a node with the given style. -/
def contentName (child : Layout) : CollectionStyle → String
  | .wrapped => child.collectionName
  | .inline => child.rowName

/-- The elements next to the fields in each row, in order, with the keys that they come from. -/
def contentNames (n : Layout) : List (ForeignKey × String) :=
  n.parents.map (fun e => (e.key, e.layout.rowName)) ++
    n.children.map fun e => (e.key, e.layout.contentName n.style)

end Layout

end XmlPublishing

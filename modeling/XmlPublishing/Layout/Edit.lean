import XmlPublishing.Layout.Defaults

/-!
Edits of layouts.

Each edit gives a new layout or the reason why there is none. Edits that add elements to the rows
of a node end with `checkNames`: the names of embedded elements must differ from each other and
from the fields, in letters of any case. The first name that repeats is reported.
-/

namespace XmlPublishing.Layout

/-- The first entry whose name, in small letters, is in `seen` or is that of an earlier entry. -/
def firstClash? (seen : List String) : List (ForeignKey × String) → Option (ForeignKey × String)
  | [] => none
  | e :: es =>
    if Text.lower e.2 ∈ seen then some e else firstClash? (Text.lower e.2 :: seen) es

/-- The layout itself, if the elements in the rows of its root can be told apart. -/
def checkNames (n : Layout) : Except PublishError Layout :=
  match firstClash? (n.fields.map Text.lower) n.contentNames with
  | some (k, name) =>
    .error (.ambiguousForeignKey k.source k.target (.nameInUse name n.rowName))
  | none => .ok n

/-- What to embed for a relation: the given layout, if it describes that relation, or else the
default one. -/
def subtreeFor (expected : RelationId) (default : Except PublishError Layout) :
    Option Layout → Except PublishError Layout
  | some subtree =>
    if subtree.relation == expected then .ok subtree
    else .error (.configuration (.subtreeMismatch expected subtree.relation))
  | none => default

def addChild (n : Layout) (e : Joined Layout) : Layout :=
  .node n.info n.parents (n.children ++ [e])

def addParent (n : Layout) (e : Joined Layout) : Layout :=
  .node n.info (n.parents ++ [e]) n.children

/-- Embeds the rows of `child` that reference the node's relation. `fields` picks the foreign key
when there are several. -/
def embedChild (n : Layout) (d : Defaults) (child : RelationId) (fields : Option FieldSet)
    (subtree : Option Layout) : Except PublishError Layout :=
  if d.schema.contains child then do
    let key ← selectKey (d.schema.keysBetween child n.relation) fields child n.relation
    let layout ← subtreeFor child (d.child key n.style) subtree
    (n.addChild ⟨key, layout⟩).checkNames
  else .error (.unknownRelation child)

/-- Embeds the row of `parent` that the node's relation references. -/
def embedParent (n : Layout) (d : Defaults) (parent : RelationId) (fields : Option FieldSet)
    (subtree : Option Layout) : Except PublishError Layout :=
  if d.schema.contains parent then do
    let key ← selectKey (d.schema.keysBetween n.relation parent) fields n.relation parent
    let layout ← subtreeFor parent (d.parent key n.style) subtree
    (n.addParent ⟨key, layout⟩).checkNames
  else .error (.unknownRelation parent)

/-- Replaces the children with a default layout for every key to the node's relation whose source
is registered. -/
def embedChildren (n : Layout) (d : Defaults) : Except PublishError Layout := do
  let keys := (d.schema.keysTo n.relation).filter fun k => d.schema.contains k.source
  let children ← keys.mapM fun key => return ⟨key, ← d.child key n.style⟩
  (Layout.node n.info n.parents children).checkNames

/-- Replaces the parents with a default layout for every key from the node's relation whose target
is registered. -/
def embedParents (n : Layout) (d : Defaults) : Except PublishError Layout := do
  let keys := (d.schema.keysFrom n.relation).filter fun k => d.schema.contains k.target
  let parents ← keys.mapM fun key => return ⟨key, ← d.parent key n.style⟩
  (Layout.node n.info parents n.children).checkNames

/-- Sorts the rows of the root; every term must name a field of its relation. -/
def sortBy (n : Layout) (d : Defaults) (order : SortOrder) : Except PublishError Layout := do
  let known ← d.schema.knownFields n.relation
  match order.terms.find? fun t => (findField? known t.field).isNone with
  | some t => .error (.noSuchField n.relation t.field)
  | none => return n.withInfo { n.info with order := some order }

def unsorted (n : Layout) : Layout := n.withInfo { n.info with order := none }

def inNamespace (n : Layout) (ns : String) : Layout := n.withInfo { n.info with ns := some ns }

def inheritNamespace (n : Layout) : Layout := n.withInfo { n.info with ns := none }

def renameRows (n : Layout) (name : String) : Layout := n.withInfo { n.info with rowName := name }

def renameCollection (n : Layout) (name : String) : Layout :=
  n.withInfo { n.info with collectionName := name }

/-- Includes exactly the named fields, in the order given and the spelling of the schema. -/
def selectFields (n : Layout) (d : Defaults) (names : List String) :
    Except PublishError Layout := do
  let known ← d.schema.knownFields n.relation
  let fields ← names.mapM fun name => match findField? known name with
    | some field => .ok field.name
    | none => .error (.noSuchField n.relation name)
  (n.withInfo { n.info with fields }).checkNames

/-- Drops the named fields, all of which must be included. -/
def dropFields (n : Layout) (names : List String) : Except PublishError Layout :=
  match names.find? fun name => !n.fields.any fun field => Text.Alike field name with
  | some name => .error (.noSuchField n.relation name)
  | none =>
    let kept := n.fields.filter fun field => !names.any fun name => Text.Alike field name
    .ok (n.withInfo { n.info with fields := kept })

end XmlPublishing.Layout

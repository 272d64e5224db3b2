import XmlPublishing.Proofs.Query.Rendering

/-!
The namespaces of the elements that a query builds.

An element that declares a namespace is in it, with all that stands inside; an element that declares
none is in the namespace of the element around it, or, outermost, in the one that is in effect where
the result is placed. `NsTree.inEffect` follows the declarations of a tree, and
`Layout.rowElement` says which namespaces a layout asks for. A plan gives every element what the
layout asks for and declares nothing twice (`Planner.rows_realizes`, `Planner.group_realizes`), and
the standard backend writes the declarations of the plan (`RowsPlan.declares_text`).
-/

namespace XmlPublishing

/-- Row and collection elements, each with a namespace: the one that it declares, or the one that
it is in. One row stands for all rows of its query. -/
inductive NsTree where
  | element (name : String) (ns : Option String) (content : List NsTree)

namespace NsTree

/-- The tree inside the element around a collection, if there is one. -/
def wrappedIn (t : NsTree) : Option (String × Option String) → NsTree
  | some (name, ns) => .element name ns [t]
  | none => t

mutual
/-- From declared namespaces to those in effect, where `ambient` is in effect around the tree. -/
def inEffect (ambient : Option String) : NsTree → NsTree
  | .element name declares content =>
    .element name (declares <|> ambient) (inEffectAll (declares <|> ambient) content)
termination_by structural t => t
def inEffectAll (ambient : Option String) : List NsTree → List NsTree
  | [] => []
  | t :: ts => t.inEffect ambient :: inEffectAll ambient ts
termination_by structural ts => ts
end

/-- No element declares the namespace that is in effect around it. -/
inductive Minimal : Option String → NsTree → Prop
  | element {ambient declares : Option String} {name : String} {content : List NsTree} :
      (∀ ns ∈ declares, ambient ≠ some ns) →
      (∀ t ∈ content, Minimal (declares <|> ambient) t) →
      Minimal ambient (.element name declares content)

/-- With `ambient` in effect around it, the declarations of `t` give each element the namespace that
it has in `target`, and none of them repeats what is in effect. -/
structure Realizes (ambient : Option String) (t target : NsTree) : Prop where
  inEffect : t.inEffect ambient = target
  minimal : t.Minimal ambient

theorem inEffect_element (ambient : Option String) (name : String) (declares : Option String)
    (content : List NsTree) :
    (NsTree.element name declares content).inEffect ambient =
      .element name (declares <|> ambient) (content.map (·.inEffect (declares <|> ambient))) := by
  have h (ts : List NsTree) (outer : Option String) :
      inEffectAll outer ts = ts.map (·.inEffect outer) := by
    induction ts with
    | nil => rfl
    | cons t ts ih => rw [inEffectAll, ih, List.map_cons]
  rw [inEffect, h]

end NsTree

/-! ## What a layout asks for -/

namespace Layout

mutual
/-- The row element of a layout inside an element in the namespace `outer`: each element is in the
namespace of its node, or else in that of the element around it. -/
def rowElement (outer : Option String) : Layout → NsTree
  | .node info parents children =>
    .element info.rowName (info.ns <|> outer) (rowElements (info.ns <|> outer) parents ++
      contentElements (info.ns <|> outer) info.style children)
termination_by structural n => n
def rowElements (outer : Option String) : List (Joined Layout) → List NsTree
  | [] => []
  | ⟨_, n⟩ :: es => n.rowElement outer :: rowElements outer es
termination_by structural es => es
def contentElements (outer : Option String) (style : CollectionStyle) :
    List (Joined Layout) → List NsTree
  | [] => []
  | ⟨_, n⟩ :: es =>
    (match style with
      | .wrapped => .element n.collectionName (n.ns <|> outer) [n.rowElement (n.ns <|> outer)]
      | .inline => n.rowElement outer) :: contentElements outer style es
termination_by structural es => es
end

/-- All rows of a layout inside an element in the namespace `outer`, in their collection element or
without one. -/
def contentElement (outer : Option String) (n : Layout) : CollectionStyle → NsTree
  | .wrapped => .element n.collectionName (n.ns <|> outer) [n.rowElement (n.ns <|> outer)]
  | .inline => n.rowElement outer

theorem rowElement_node (outer : Option String) (info : NodeInfo)
    (parents children : List (Joined Layout)) :
    (Layout.node info parents children).rowElement outer =
      .element info.rowName (info.ns <|> outer)
        (parents.map (·.layout.rowElement (info.ns <|> outer)) ++
          children.map (·.layout.contentElement (info.ns <|> outer) info.style)) := by
  have hparents (es : List (Joined Layout)) (outer : Option String) :
      rowElements outer es = es.map (·.layout.rowElement outer) := by
    induction es with
    | nil => rfl
    | cons e es ih => rw [rowElements, ih, List.map_cons]
  have hchildren (es : List (Joined Layout)) (outer : Option String) (style : CollectionStyle) :
      contentElements outer style es = es.map (·.layout.contentElement outer style) := by
    induction es with
    | nil => rfl
    | cons e es ih => cases style <;> rw [contentElements, ih, List.map_cons, contentElement]
  rw [rowElement, hparents, hchildren]

end Layout

/-! ## What a plan declares -/

mutual
/-- The row and collection elements that a rows query builds, with the namespaces that they
declare. -/
def RowsPlan.declared : RowsPlan → NsTree
  | .rows info parents children =>
    .element info.rowName info.declares
      (RowsPlan.declaredAll parents ++ Group.declaredAll children)
termination_by structural q => q
def RowsPlan.declaredAll : List RowsPlan → List NsTree
  | [] => []
  | q :: qs => q.declared :: RowsPlan.declaredAll qs
termination_by structural qs => qs
def Group.declaredAll : List (Group RowsPlan) → List NsTree
  | [] => []
  | ⟨info, rows⟩ :: gs =>
    rows.declared.wrappedIn (info.wrapper.map fun w => (w.name, w.declares)) ::
      Group.declaredAll gs
termination_by structural gs => gs
end

def Group.declared (g : GroupPlan) : NsTree :=
  g.rows.declared.wrappedIn (g.info.wrapper.map fun w => (w.name, w.declares))

theorem RowsPlan.declared_rows (info : RowsInfo) (parents : List RowsPlan)
    (children : List GroupPlan) :
    (RowsPlan.rows info parents children).declared =
      .element info.rowName info.declares
        (parents.map RowsPlan.declared ++ children.map Group.declared) := by
  have hparents : RowsPlan.declaredAll parents = parents.map RowsPlan.declared := by
    induction parents with
    | nil => rfl
    | cons q qs ih => rw [RowsPlan.declaredAll, ih, List.map_cons]
  have hchildren : Group.declaredAll children = children.map Group.declared := by
    induction children with
    | nil => rfl
    | cons g gs ih => rw [Group.declaredAll, ih, List.map_cons, Group.declared]
  rw [RowsPlan.declared, hparents, hchildren]

theorem declaredNs_orElse (ns ambient : Option String) :
    (declaredNs ns ambient <|> ambient) = (ns <|> ambient) := by
  rw [declaredNs]
  split
  · next h =>
    subst h
    cases ns <;> rfl
  · rfl

theorem ne_of_mem_declaredNs {ns ambient : Option String} {declared : String}
    (h : declared ∈ declaredNs ns ambient) : ambient ≠ some declared := by
  rw [declaredNs] at h
  split at h
  · cases h
  · next hne => exact fun hambient => hne (h.trans hambient.symm)

/-- An element that declares the namespace of its node only where it has to, around content that is
placed where that namespace is in effect. -/
theorem NsTree.realizes_element {name : String} {ns ambient : Option String}
    {content target : List NsTree} (h : List.Forall₂ (Realizes (ns <|> ambient)) content target) :
    (NsTree.element name (declaredNs ns ambient) content).Realizes ambient
      (.element name (ns <|> ambient) target) := by
  constructor
  · have hcontent : List.Forall₂ Eq (content.map (·.inEffect (ns <|> ambient))) target :=
      List.forall₂_map_left_iff.2 (h.imp fun _ _ ht => ht.inEffect)
    rw [List.forall₂_eq_eq_eq] at hcontent
    rw [inEffect_element, declaredNs_orElse, hcontent]
  · refine .element (fun _ => ne_of_mem_declaredNs) fun t ht => ?_
    rw [declaredNs_orElse]
    obtain ⟨target, -, ht⟩ := forall₂_exists_right h ht
    exact ht.minimal

namespace Planner

variable (p : Planner) (ambient : Option String) (n : Layout)

theorem group_realizes (name : String) (filter : Option Filter) (xmlType : XmlType)
    (style : CollectionStyle) {rows : RowsPlan}
    (h : rows.declared.Realizes (rowsAmbient n.info ambient style)
      (n.rowElement (rowsAmbient n.info ambient style))) :
    (Group.declared ⟨groupInfo n.info name filter xmlType ambient style, rows⟩).Realizes ambient
      (n.contentElement ambient style) := by
  cases style with
  | wrapped => exact NsTree.realizes_element (.cons h .nil)
  | inline => exact h

theorem rows_realizes (name : String) (aliases : Aliases) (filter : Option Filter)
    (columns : RowColumns) (sorted : Bool) :
    (p.rows name aliases filter columns ambient sorted n).declared.Realizes ambient
      (n.rowElement ambient) := by
  induction n generalizing name aliases filter columns ambient sorted with
  | node info parents children ihParents ihChildren =>
    rw [rows_node, RowsPlan.declared_rows, Layout.rowElement_node, List.map_map, List.map_map]
    refine NsTree.realizes_element (List.rel_append ?_ ?_)
    · rw [List.forall₂_map_left_iff, List.forall₂_map_right_iff, List.forall₂_same]
      exact fun e he => ihParents e he ..
    · rw [List.forall₂_map_left_iff, List.forall₂_map_right_iff, List.forall₂_same]
      exact fun e he => group_realizes _ e.layout _ _ _ _ (ihChildren e he ..)

end Planner

/-! ## What the text of a plan declares -/

namespace SqlXml

/-- The lines of a call of `xmlelement` with the given content, which declares `ns` before it if
there is one. -/
inductive CallsElement (unit name : String) :
    Option String → List (List String) → List String → Prop
  | plain (content : List (List String)) :
      CallsElement unit name none content (element unit name content)
  | declaring (ns : String) (content : List (List String)) :
      CallsElement unit name (some ns) content
        (element unit name (["xmlnamespaces(default " ++ Text.quoted '\'' ns ++ ")"] :: content))

/-- What a row element contains: the fields, and the queries between parentheses. -/
def RowsParts.content (unit : String) (q : RowsParts) : List (List String) :=
  forest q.name q.xmlFields ++ (q.parents ++ q.children).map (subquery unit)

/-- The lines of a rows query whose row element is written in the lines `xml`. -/
def RowsParts.linesAround (unit : String) (q : RowsParts) (xml : List String) : List String :=
  "select" :: commaList unit (q.selectFields.map (fun field => [q.name ++ "." ++ field]) ++
      [resultColumn xml q.largeChar q.column]) ++
    ["from " ++ q.relation ++ " " ++ q.name] ++ tail q.filter q.orderBy

/-- The lines of a group whose value is written in the lines `xml`. -/
def GroupParts.linesAround (unit : String) (q : GroupParts) (xml : List String) : List String :=
  "select" :: indented unit (resultColumn xml q.largeChar q.column) ++ ["from ("] ++
    indented unit (Text.lines q.rowsQuery) ++ [") " ++ q.name] ++ tail q.filter []

mutual
/-- The text is a rows query whose row element has the name of the root, declares the namespace of
the root, if there is one, and contains the elements of the queries in it. -/
inductive DeclaresRows (unit : String) : String → NsTree → Prop
  | rows (q : RowsParts) {xml : List String} {parents children : List NsTree} :
      CallsElement unit q.rowName q.ns (q.content unit) xml →
      List.Forall₂ (DeclaresRows unit) q.parents parents →
      List.Forall₂ (DeclaresGroup unit) q.children children →
      DeclaresRows unit (joinLines (q.linesAround unit xml))
        (.element q.rowName q.ns (parents ++ children))
/-- The text aggregates the row elements of a rows query, in an element that declares the namespace
of the root or without one. -/
inductive DeclaresGroup (unit : String) : String → NsTree → Prop
  | wrapped (q : GroupParts) {name : String} {ns : Option String} {xml : List String}
      {tree : NsTree} :
      CallsElement unit name ns [[aggregate q.name q.orderBy]] xml →
      DeclaresRows unit q.rowsQuery tree →
      DeclaresGroup unit (joinLines (q.linesAround unit xml)) (.element name ns [tree])
  | inline (q : GroupParts) {tree : NsTree} :
      DeclaresRows unit q.rowsQuery tree →
      DeclaresGroup unit (joinLines (q.linesAround unit [aggregate q.name q.orderBy])) tree
end

theorem callsElement (unit name : String) (ns : Option String) (content : List (List String)) :
    CallsElement unit name ns content (element unit name (namespaceContent ns ++ content)) := by
  cases ns with
  | none => exact .plain content
  | some ns => exact .declaring ns content

theorem declaresRows_lines {unit : String} (q : RowsParts) {parents children : List NsTree}
    (hparents : List.Forall₂ (DeclaresRows unit) q.parents parents)
    (hchildren : List.Forall₂ (DeclaresGroup unit) q.children children) :
    DeclaresRows unit (joinLines (q.lines unit))
      (.element q.rowName q.ns (parents ++ children)) := by
  have hcall := callsElement unit q.rowName q.ns (q.content unit)
  rw [RowsParts.content, ← List.append_assoc] at hcall
  exact .rows q hcall hparents hchildren

theorem declaresGroup_lines {unit : String} (q : GroupParts) {tree : NsTree}
    (h : DeclaresRows unit q.rowsQuery tree) :
    DeclaresGroup unit (joinLines (q.lines unit)) (tree.wrappedIn q.wrapper) := by
  rw [GroupParts.lines]
  cases q.wrapper with
  | none => exact .inline q h
  | some wrapper => exact .wrapped q (callsElement unit wrapper.1 wrapper.2 _) h

end SqlXml

open SqlXml

section

variable {p : Publisher} {indent : Nat}

theorem RowsPlan.declares_text (hp : p.backend = SqlXml.backend indent) {q : RowsPlan}
    {text : String} (h : q.text p.render = .ok text) :
    DeclaresRows (String.ofList (List.replicate indent ' ')) text q.declared := by
  let unit := String.ofList (List.replicate indent ' ')
  refine RowsPlan.text_induction hp (fun q t => DeclaresRows unit t q.declared)
    (fun g t => DeclaresGroup unit t g.declared) ?_ ?_ h
  · intro info parents children columns ps cs hps hcs
    rw [RowsPlan.declared_rows]
    refine declaresRows_lines (info.parts columns ps cs) ?_ ?_
    · exact List.forall₂_map_right_iff.2 hps.flip
    · exact List.forall₂_map_right_iff.2 hcs.flip
  · intro g rowsQuery hrows
    exact declaresGroup_lines (g.info.parts rowsQuery) hrows

theorem Group.declares_text (hp : p.backend = SqlXml.backend indent) {g : GroupPlan}
    {text : String} (h : g.text p.render = .ok text) :
    DeclaresGroup (String.ofList (List.replicate indent ' ')) text g.declared := by
  obtain ⟨rowsQuery, hrows, rfl⟩ := (Group.text_eq_ok_of_standard hp).1 h
  exact declaresGroup_lines (g.info.parts rowsQuery) (RowsPlan.declares_text hp hrows)

/-- In queries of all three shapes, the row and collection elements are in the namespaces that the
layout asks for, and none declares a namespace that is in effect around it. -/
theorem Publisher.realizes_namespaces (hp : p.backend = SqlXml.backend indent) (n : Layout)
    (name? filter ambient : Option String) :
    let unit := String.ofList (List.replicate indent ' ')
    (∀ columns,
      let tree := (p.planner.topRows n name? filter columns ambient).declared
      tree.Realizes ambient (n.rowElement ambient) ∧
        ∀ text, p.rows n name? filter columns ambient = .ok text → DeclaresRows unit text tree) ∧
    (∀ xmlType,
      let tree := (p.planner.topGroup n name? filter xmlType ambient .wrapped).declared
      tree.Realizes ambient (n.contentElement ambient .wrapped) ∧
        ∀ text, p.collection n name? filter xmlType ambient = .ok text →
          DeclaresGroup unit text tree) ∧
    let tree := (p.planner.topGroup n name? filter .xml ambient .inline).declared
    tree.Realizes ambient (n.contentElement ambient .inline) ∧
      ∀ text, p.forest n name? filter ambient = .ok text → DeclaresGroup unit text tree := by
  have hrows (columns : RowColumns) :
      (p.planner.topRows n name? filter columns ambient).declared.Realizes ambient
        (n.rowElement ambient) := p.planner.rows_realizes ambient n ..
  have hgroup (xmlType : XmlType) (style : CollectionStyle) :
      (p.planner.topGroup n name? filter xmlType ambient style).declared.Realizes ambient
        (n.contentElement ambient style) :=
    Planner.group_realizes ambient n _ _ _ style (p.planner.rows_realizes _ n ..)
  refine ⟨fun columns => ⟨hrows columns, fun text h => ?_⟩,
    fun xmlType => ⟨hgroup xmlType .wrapped, fun text h => ?_⟩, hgroup .xml .inline,
    fun text h => ?_⟩
  · exact RowsPlan.declares_text hp h
  · exact Group.declares_text hp h
  · exact Group.declares_text hp h

end

namespace Staff

/-- Employees in one namespace, with their boss in the same and those who report to them in
another. -/
def mixed : Layout :=
  (withBoss.inNamespace "urn:staff").addChild ⟨bossKey, withBoss.inNamespace "urn:team"⟩

theorem mixed_realizes_namespaces :
    publisher.backend = SqlXml.backend 2 ∧
      ∃ text, publisher.collection mixed none none .xml (some "urn:staff") = .ok text ∧
        let tree := (publisher.planner.topGroup mixed none none .xml (some "urn:staff")
          .wrapped).declared
        DeclaresGroup (String.ofList (List.replicate 2 ' ')) text tree ∧
          tree.Realizes (some "urn:staff") (mixed.contentElement (some "urn:staff") .wrapped) := by
  have hp : publisher.backend = SqlXml.backend 2 := rfl
  obtain ⟨text, htext⟩ :
      ∃ text, publisher.collection mixed none none .xml (some "urn:staff") = .ok text := ⟨_, rfl⟩
  obtain ⟨-, hcollection, -⟩ :=
    Publisher.realizes_namespaces hp mixed none none (some "urn:staff")
  obtain ⟨hrealizes, hdeclares⟩ := hcollection .xml
  exact ⟨hp, text, htext, hdeclares text htext, hrealizes⟩

/-- Only the collection inside the rows has to declare its namespace. -/
example :
    (publisher.planner.topGroup mixed none none .xml (some "urn:staff") .wrapped).declared =
      .element "e-listing" none [.element "e" none [.element "e" none [],
        .element "e-listing" (some "urn:team") [.element "e" none [.element "e" none []]]]] := rfl

end Staff

end XmlPublishing

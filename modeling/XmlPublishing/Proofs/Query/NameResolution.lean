import XmlPublishing.Proofs.Query.Aliases
import XmlPublishing.Proofs.Query.Plan
import XmlPublishing.Proofs.Query.Rendering

/-!
Name resolution in nested queries.

A scope lists what the `from` clauses around a place introduce, innermost first. A plan resolves in
a scope (`RowsPlan.Resolves`, `Group.Resolves`) when every reference that is written for it names
exactly one item of the scope at its place, and a column of that item. The rows query in the `from`
clause of a group has to resolve on its own, without what is around it.

All plans for layouts built over a schema resolve in the empty scope
(`Planner.topRows_resolves`, `Planner.topGroup_resolves`). The invariant is
`Aliases.Cover`: the aliases in use include those of the scope.
-/

namespace XmlPublishing

/-- What a `from` clause introduces: an alias, and the columns that can be asked of it. -/
structure FromItem where
  name : String
  columns : List String

structure ColumnRef where
  qualifier : String
  column : String

/-- Some item of the scope has that alias and that column, in letters of either case. -/
def ColumnRef.ResolvesIn (scope : List FromItem) (c : ColumnRef) : Prop :=
  ∃ item ∈ scope, item.name = c.qualifier ∧ ∃ column ∈ item.columns, Text.Alike column c.column

/-- The references of a filter. The condition of a caller is a text of its own. -/
def Filter.refs : Filter → List ColumnRef
  | .condition _ => []
  | .join j => j.pairs.flatMap fun (childField, parentField) =>
    [⟨j.childAlias, childField⟩, ⟨j.parentAlias, parentField⟩]

/-- All references of a rows query with the given plain columns: those columns, the fields in the
row element, the filter and the sort terms. -/
def RowsInfo.refs (i : RowsInfo) (columns : List String) : List ColumnRef :=
  columns.map (⟨i.name, ·⟩) ++ i.fields.map (⟨i.name, ·⟩) ++
    i.filter.toList.flatMap Filter.refs ++ i.order.map (⟨i.name, ·.field⟩)

/-- All references of a group: the row elements to aggregate, the filter and the sort terms. -/
def GroupInfo.refs (i : GroupInfo) : List ColumnRef :=
  ⟨i.name, rowXmlColumn⟩ :: i.filter.toList.flatMap Filter.refs ++ i.order.map (⟨i.name, ·.field⟩)

/-! ## References in lines -/

section

open SqlXml

variable {unit : String}

/-- How a reference is written. -/
def ColumnRef.text (c : ColumnRef) : String := c.qualifier ++ "." ++ c.column

/-- How references to fields are written in a row element. -/
def forestOf (refs : List ColumnRef) : List (List String) :=
  if refs = [] then [] else
    [["xmlforest(" ++ ", ".intercalate (refs.map fun c =>
      c.text ++ " as " ++ identifier (Text.lower c.column)) ++ ")"]]

/-- How references are written to sort by them. -/
def sortTexts (refs : List ColumnRef) (order : List SortTerm) : List String :=
  List.zipWith (fun c t => c.text ++ " " ++ t.direction.keyword) refs order

theorem forest_eq (name : String) (fields : List String) :
    forest name fields = forestOf (fields.map (⟨name, ·⟩)) := by
  rw [forest, forestOf, List.map_map]
  simp only [List.map_eq_nil_iff]
  rfl

theorem orderByTexts_eq (name : String) (order : List SortTerm) :
    orderByTexts name order = sortTexts (order.map (⟨name, ·.field⟩)) order := by
  induction order with
  | nil => rfl
  | cons t order ih =>
    have hterm : name ++ "." ++ t.text = name ++ "." ++ t.field ++ " " ++ t.direction.keyword := by
      rw [SortTerm.text, ← String.append_assoc, ← String.append_assoc]
    rw [sortTexts, List.map_cons, List.zipWith_cons_cons, ← sortTexts, ← ih, ColumnRef.text,
      ← hterm]
    rfl

/-- A join is written as comparisons of its references. -/
theorem Join.written_refs (j : Join) :
    ∃ sides : List (ColumnRef × ColumnRef),
      (Filter.join j).refs = sides.flatMap (fun (child, parent) => [child, parent]) ∧
      j.text = " and ".intercalate (sides.map fun (child, parent) =>
        if j.childOnLeft then child.text ++ " = " ++ parent.text
        else parent.text ++ " = " ++ child.text) := by
  refine ⟨j.pairs.map fun pair => (⟨j.childAlias, pair.1⟩, ⟨j.parentAlias, pair.2⟩), ?_, ?_⟩
  · rw [Filter.refs, List.flatMap_map]
  · rw [Join.text, List.map_map]
    rfl

/-- A rows query is written with its references, in the order of their list: as plain columns, as
fields in the row element, in the filter and to sort by. Nothing else in it refers to a column,
apart from the queries that are embedded in it. -/
theorem RowsInfo.written_refs (i : RowsInfo) (columns parents children : List String) :
    ∃ plain fields sorted : List ColumnRef,
      i.refs columns = plain ++ fields ++ i.filter.toList.flatMap Filter.refs ++ sorted ∧
      (i.parts columns parents children).lines unit =
        "select" :: commaList unit (plain.map (fun c => [c.text]) ++
          [resultColumn (element unit i.rowName (namespaceContent i.declares ++ forestOf fields ++
            (parents ++ children).map (subquery unit))) i.largeChar rowXmlColumn]) ++
        ["from " ++ i.relation.text ++ " " ++ i.name] ++
        tail (i.filter.map Filter.text) (sortTexts sorted i.order) := by
  refine ⟨columns.map (⟨i.name, ·⟩), i.fields.map (⟨i.name, ·⟩), i.order.map (⟨i.name, ·.field⟩),
    rfl, ?_⟩
  rw [← forest_eq, ← orderByTexts_eq, List.map_map]
  rfl

/-- A group is written with its references: to the row elements, in the filter and to sort by. -/
theorem GroupInfo.written_refs (i : GroupInfo) (rowsQuery : String) :
    ∃ (elements : ColumnRef) (sorted : List ColumnRef),
      i.refs = elements :: i.filter.toList.flatMap Filter.refs ++ sorted ∧
      let order := sortTexts sorted i.order
      let aggregated := "xmlagg(" ++ elements.text ++
        (if order = [] then "" else " order by " ++ ", ".intercalate order) ++ ")"
      let xml := match i.wrapper with
        | some w => element unit w.name (namespaceContent w.declares ++ [[aggregated]])
        | none => [aggregated]
      (i.parts rowsQuery).lines unit =
        "select" :: indented unit (resultColumn xml i.largeChar collectionXmlColumn) ++
          ["from ("] ++ indented unit (Text.lines rowsQuery) ++ [") " ++ i.name] ++
          tail (i.filter.map Filter.text) [] := by
  refine ⟨⟨i.name, rowXmlColumn⟩, i.order.map (⟨i.name, ·.field⟩), rfl, ?_⟩
  rw [← orderByTexts_eq]
  obtain ⟨wrapper, name, filter, order, largeChar⟩ := i
  cases wrapper <;> rfl

end

def Schema.item (s : Schema) (r : RelationId) (name : String) : FromItem :=
  ⟨name, (s.fields? r).elim [] fun fields => fields.map (·.name)⟩

/-- The columns in the select list of a rows query. -/
def RowsPlan.resultColumns : RowsPlan → List String
  | .rows info _ _ => info.columns.getD [] ++ [rowXmlColumn]

/-- The rows query of a group, as the derived table that it is. -/
def Group.item (g : GroupPlan) : FromItem := ⟨g.info.name, g.rows.resultColumns⟩

/-- No alias of the scope hides another one, and all references resolve. -/
structure WellScoped (scope : List FromItem) (refs : List ColumnRef) : Prop where
  distinct : (scope.map (·.name)).Nodup
  resolve : ∀ c ∈ refs, c.ResolvesIn scope

mutual
/-- The plain columns of a rows query are known, and its references resolve in the scope that its
relation is added to. -/
inductive RowsPlan.Resolves (s : Schema) : List FromItem → RowsPlan → Prop
  | rows {scope : List FromItem} {info : RowsInfo} {columns : List String}
      {parents : List RowsPlan} {children : List GroupPlan} :
      info.columns = some columns →
      WellScoped (s.item info.relation info.name :: scope) (info.refs columns) →
      (∀ q ∈ parents, q.Resolves s (s.item info.relation info.name :: scope)) →
      (∀ g ∈ children, g.Resolves s (s.item info.relation info.name :: scope)) →
      RowsPlan.Resolves s scope (.rows info parents children)
/-- The references of a group resolve, and its rows query does so on its own, without giving any
alias around it a second meaning. -/
inductive Group.Resolves (s : Schema) : List FromItem → GroupPlan → Prop
  | group {scope : List FromItem} {g : GroupPlan} :
      WellScoped (g.item :: scope) g.info.refs →
      g.rows.Resolves s [] →
      g.rows.Resolves s (g.item :: scope) →
      Group.Resolves s scope g
end

theorem Schema.HasField.resolves {s : Schema} {r : RelationId} {field : String}
    (h : s.HasField r field) {name : String} {scope : List FromItem}
    (hitem : s.item r name ∈ scope) : ColumnRef.ResolvesIn scope ⟨name, field⟩ := by
  obtain ⟨fields, hfields, hfound⟩ := h
  obtain ⟨f, hf, hname⟩ := findField?_isSome.1 hfound
  refine ⟨_, hitem, rfl, f.name, ?_, hname⟩
  rw [Schema.item, hfields]
  exact List.mem_map_of_mem hf

theorem Filter.join_refs {j : Join} {c : ColumnRef} :
    c ∈ (Filter.join j).refs ↔
      ∃ pair ∈ j.pairs, c = ⟨j.childAlias, pair.1⟩ ∨ c = ⟨j.parentAlias, pair.2⟩ := by
  simp [Filter.refs]

/-! ## Aliases in use -/

/-- The aliases in use include those of the scope, which are all different. -/
structure Aliases.Cover (a : Aliases) (scope : List FromItem) : Prop where
  distinct : (scope.map (·.name)).Nodup
  inUse : ∀ item ∈ scope, item.name ∈ a.inUse

namespace Aliases.Cover

variable {a : Aliases} {scope : List FromItem}

theorem nil (a : Aliases) : a.Cover [] := ⟨.nil, nofun⟩

theorem add (h : a.Cover scope) {item : FromItem} (hname : item.name ∉ a.inUse) :
    (a.add item.name).Cover (item :: scope) := by
  constructor
  · rw [List.map_cons, List.nodup_cons]
    refine ⟨fun hmem => hname ?_, h.distinct⟩
    obtain ⟨item', hitem', heq⟩ := List.mem_map.1 hmem
    exact heq ▸ h.inUse item' hitem'
  · intro item' hitem'
    rcases List.mem_cons.1 hitem' with rfl | hitem'
    · exact mem_add_self _ _
    · exact mem_add_of_mem (h.inUse item' hitem')

/-- A fresh alias may stand for any item. -/
theorem introduce (h : a.Cover scope) (r : RelationId) {item : FromItem}
    (hname : item.name = a.fresh r) : (a.introduce r).2.Cover (item :: scope) := by
  rw [introduce_snd, ← hname]
  exact h.add (hname ▸ fresh_notMem a r)

/-- So may the first alias, whoever chooses it. -/
theorem introduceAs (name? : Option String) (r : RelationId) {item : FromItem}
    (hname : item.name = (empty.introduceAs name? r).1) :
    (empty.introduceAs name? r).2.Cover [item] := by
  rw [introduceAs_snd, ← hname]
  exact (nil empty).add (notMem_empty _)

end Aliases.Cover

/-! ## Plans -/

namespace Planner

variable {p : Planner} {n : Layout} {scope : List FromItem}

/-- The rows query of a layout resolves wherever its aliases are covered. -/
def RowsResolve (p : Planner) (n : Layout) : Prop :=
  ∀ (name : String) (aliases : Aliases) (filter : Option Filter) (columns : RowColumns)
    (ambient : Option String) (sorted : Bool) (scope : List FromItem),
    aliases.Cover (p.schema.item n.relation name :: scope) →
    (∀ f ∈ filter, ∀ c ∈ f.refs, c.ResolvesIn (p.schema.item n.relation name :: scope)) →
    (p.rows name aliases filter columns ambient sorted n).Resolves p.schema scope

theorem hasField_of_mem_sortTerms {i : NodeInfo} (hi : i.FitsIn p.schema) {t : SortTerm}
    (ht : t ∈ i.sortTerms) : p.schema.HasField i.relation t.field := by
  unfold NodeInfo.sortTerms at ht
  split at ht
  · next order horder => exact hi.order order horder t ht
  · cases ht

/-- The references of a rows query, other than those of its filter, are to its own relation. -/
theorem wellScoped_rowsInfo {i : NodeInfo} (hi : i.FitsIn p.schema) {name : String}
    {aliases : Aliases} (hc : aliases.Cover (p.schema.item i.relation name :: scope))
    {filter : Option Filter}
    (hfilter : ∀ f ∈ filter, ∀ c ∈ f.refs,
      c.ResolvesIn (p.schema.item i.relation name :: scope))
    {columns : List String} (hcolumns : ∀ c ∈ columns, p.schema.HasField i.relation c)
    (which : RowColumns) (ambient : Option String) (sorted : Bool) :
    WellScoped (p.schema.item i.relation name :: scope)
      ((p.rowsInfo i name filter which ambient sorted).refs columns) := by
  have own {field : String} (h : p.schema.HasField i.relation field) :
      ColumnRef.ResolvesIn (p.schema.item i.relation name :: scope) ⟨name, field⟩ :=
    h.resolves List.mem_cons_self
  refine ⟨hc.distinct, fun c hmem => ?_⟩
  simp only [RowsInfo.refs, rowsInfo, List.mem_append, List.mem_map, List.mem_flatMap,
    Option.mem_toList] at hmem
  rcases hmem with ((⟨field, hfield, rfl⟩ | ⟨field, hfield, rfl⟩) | ⟨f, hf, hmem⟩) | ⟨t, ht, rfl⟩
  · exact own (hcolumns field hfield)
  · exact own (hi.fields field hfield)
  · exact hfilter f hf c hmem
  · split at ht
    · exact own (hasField_of_mem_sortTerms hi ht)
    · cases ht

theorem groupRows_resolves (h : p.RowsResolve n) {aliases : Aliases} (hc : aliases.Cover scope)
    (ambient : Option String) (style : CollectionStyle) :
    (p.groupRows aliases ambient n style).Resolves p.schema scope :=
  h _ _ none _ _ _ _ (hc.introduce n.relation rfl) nofun

theorem mem_resultColumns_groupRows {field : String} (h : p.schema.HasField n.relation field)
    (aliases : Aliases) (ambient : Option String) (style : CollectionStyle) :
    ∃ column ∈ (p.groupRows aliases ambient n style).resultColumns, Text.Alike column field := by
  obtain ⟨fields, hfields, hfound⟩ := h
  obtain ⟨f, hf, hname⟩ := findField?_isSome.1 hfound
  obtain ⟨info, parents, children⟩ := n
  refine ⟨f.name, ?_, hname⟩
  refine List.mem_append_left _ ?_
  change f.name ∈ (p.columns info .all).getD []
  rw [columns, show p.schema.fields? info.relation = some fields from hfields]
  exact List.mem_map_of_mem hf

theorem rowXmlColumn_mem_resultColumns (q : RowsPlan) : rowXmlColumn ∈ q.resultColumns := by
  cases q
  exact List.mem_append_right _ (List.mem_singleton_self _)

theorem group_resolves (hn : n.FitsIn p.schema) (h : p.RowsResolve n) {name : String}
    {aliases : Aliases} {filter : Option Filter} {xmlType : XmlType} {ambient : Option String}
    {style : CollectionStyle}
    (hc : ∀ item : FromItem, item.name = name → aliases.Cover (item :: scope))
    (hfilter : ∀ item : FromItem, item.name = name →
      (∀ field, p.schema.HasField n.relation field →
        ∃ column ∈ item.columns, Text.Alike column field) →
      ∀ f ∈ filter, ∀ c ∈ f.refs, c.ResolvesIn (item :: scope)) :
    Group.Resolves p.schema scope
      ⟨groupInfo n.info name filter xmlType ambient style,
        p.groupRows aliases ambient n style⟩ := by
  let g : GroupPlan :=
    ⟨groupInfo n.info name filter xmlType ambient style, p.groupRows aliases ambient n style⟩
  have hfields : ∀ field, p.schema.HasField n.relation field →
      ∃ column ∈ g.item.columns, Text.Alike column field :=
    fun field hfield => mem_resultColumns_groupRows hfield aliases ambient style
  have hcover : aliases.Cover (g.item :: scope) := hc g.item rfl
  refine .group (g := g) ⟨hcover.distinct, fun c hmem => ?_⟩
    (groupRows_resolves h (.nil aliases) ambient style)
    (groupRows_resolves h hcover ambient style)
  simp only [GroupInfo.refs, List.mem_cons, List.mem_append, List.mem_flatMap,
    Option.mem_toList, List.mem_map] at hmem
  rcases hmem with (rfl | ⟨f, hf, hmem⟩) | ⟨t, ht, rfl⟩
  · exact ⟨g.item, List.mem_cons_self, rfl, _, rowXmlColumn_mem_resultColumns _, .refl _⟩
  · exact hfilter g.item rfl hfields f hf c hmem
  · exact ⟨g.item, List.mem_cons_self, rfl, hfields _ (hasField_of_mem_sortTerms hn.info ht)⟩

/-- A parent is joined through its own alias and that of the rows around it. -/
theorem parent_resolves {info : NodeInfo} {name : String} {aliases : Aliases} {e : Joined Layout}
    (hkey : e.key.Joins p.schema info.relation e.layout.relation)
    (hinfo : info.FitsIn p.schema) (he : e.layout.FitsIn p.schema)
    (hc : aliases.Cover (p.schema.item info.relation name :: scope))
    (h : p.RowsResolve e.layout) (ambient : Option String) :
    (p.parent name aliases ambient e).Resolves p.schema
      (p.schema.item info.relation name :: scope) := by
  refine h _ _ _ _ _ _ _ (hc.introduce e.layout.relation rfl) fun f hf c hmem => ?_
  obtain rfl := Option.mem_some.1 hf
  obtain ⟨pair, hpair, rfl | rfl⟩ := Filter.join_refs.1 hmem
  · have hfield := hkey.hasField_source hinfo.registered _ (List.mem_map_of_mem hpair)
    exact hfield.resolves (List.mem_cons_of_mem _ List.mem_cons_self)
  · have hfield := hkey.hasField_target he.info.registered _ (List.mem_map_of_mem hpair)
    exact hfield.resolves List.mem_cons_self

/-- A child is joined through the alias of its group and that of the rows around it. -/
theorem child_resolves {info : NodeInfo} {name : String} {aliases : Aliases} {e : Joined Layout}
    (hkey : e.key.Joins p.schema e.layout.relation info.relation)
    (hinfo : info.FitsIn p.schema) (he : e.layout.FitsIn p.schema)
    (hc : aliases.Cover (p.schema.item info.relation name :: scope))
    (h : p.RowsResolve e.layout) (ambient : Option String) (style : CollectionStyle) :
    (p.child name aliases ambient style e).Resolves p.schema
      (p.schema.item info.relation name :: scope) := by
  refine group_resolves he h (fun item hname => hc.introduce e.layout.relation hname) ?_
  intro item hname hfields f hf c hmem
  obtain rfl := Option.mem_some.1 hf
  obtain ⟨pair, hpair, rfl | rfl⟩ := Filter.join_refs.1 hmem
  · have hfield := hkey.hasField_source he.info.registered _ (List.mem_map_of_mem hpair)
    exact ⟨item, List.mem_cons_self, hname, hfields _ hfield⟩
  · have hfield := hkey.hasField_target hinfo.registered _ (List.mem_map_of_mem hpair)
    exact hfield.resolves (List.mem_cons_of_mem _ List.mem_cons_self)

theorem rowsResolve (hn : n.FitsIn p.schema) : p.RowsResolve n := by
  induction n with
  | node info parents children ihParents ihChildren =>
    intro name aliases filter which ambient sorted scope hc hfilter
    obtain ⟨columns, hcolumns, hfields⟩ := exists_columns hn.info which.plain
    rw [rows_node]
    -- everything inside is planned with the same aliases, which cover the scope with this relation
    refine .rows hcolumns (wellScoped_rowsInfo hn.info hc hfilter hfields ..) ?_ ?_
    · intro q hq
      obtain ⟨e, he, rfl⟩ := List.mem_map.1 hq
      obtain ⟨hkey, hfits⟩ := hn.parents e he
      exact parent_resolves hkey hn.info hfits hc (ihParents e he hfits) _
    · intro g hg
      obtain ⟨e, he, rfl⟩ := List.mem_map.1 hg
      obtain ⟨hkey, hfits⟩ := hn.children e he
      exact child_resolves hkey hn.info hfits hc (ihChildren e he hfits) _ _

theorem topRows_resolves (hn : n.FitsIn p.schema) (name? filter : Option String)
    (columns : RowColumns) (ambient : Option String) :
    (p.topRows n name? filter columns ambient).Resolves p.schema [] := by
  refine rowsResolve hn _ _ _ _ _ _ _ (.introduceAs name? n.relation rfl) fun f hf c hmem => ?_
  obtain ⟨text, -, rfl⟩ := Option.map_eq_some_iff.1 hf
  cases hmem

theorem topGroup_resolves (hn : n.FitsIn p.schema) (name? filter : Option String)
    (xmlType : XmlType) (ambient : Option String) (style : CollectionStyle) :
    (p.topGroup n name? filter xmlType ambient style).Resolves p.schema [] := by
  rw [topGroup_eq]
  refine group_resolves hn (rowsResolve hn)
    (fun item hname => .introduceAs name? n.relation hname) fun item _ _ f hf c hmem => ?_
  obtain ⟨text, -, rfl⟩ := Option.map_eq_some_iff.1 hf
  cases hmem

end Planner

/-- In all queries for a layout built over the schema, every reference names exactly one enclosing
item and a column of it, and derived tables are closed. -/
theorem Publisher.plans_resolve (p : Publisher) {n : Layout} (hn : n.BuiltOver p.schema)
    (name? filter ambient : Option String) :
    (∀ columns, (p.planner.topRows n name? filter columns ambient).Resolves p.schema []) ∧
      ∀ xmlType style,
        (p.planner.topGroup n name? filter xmlType ambient style).Resolves p.schema [] := by
  have hfits : n.FitsIn p.planner.schema := hn.fitsIn
  constructor
  · intro columns
    exact Planner.topRows_resolves hfits ..
  · intro xmlType style
    exact Planner.topGroup_resolves hfits ..

theorem Staff.team_plans_resolve :
    team.BuiltOver publisher.schema ∧
      (publisher.planner.topRows team (some "e") none ⟨.all, .xml⟩ none).Resolves schema [] ∧
      (publisher.planner.topGroup team none none .xml none .wrapped).Resolves schema [] := by
  refine ⟨team_builtOver, ?_, ?_⟩
  · exact (publisher.plans_resolve team_builtOver (some "e") none none).1 _
  · exact (publisher.plans_resolve team_builtOver none none none).2 _ _

end XmlPublishing

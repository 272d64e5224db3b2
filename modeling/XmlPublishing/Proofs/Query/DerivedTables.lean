import XmlPublishing.Proofs.Query.NameResolution
import XmlPublishing.Proofs.Query.Rendering

/-!
The columns of derived tables.

The rows query of a group stands in its `from` clause, with all fields of a relation as columns and
the row element as a last one. SQL finds a column by its name, in letters of either case, and a
schema says nothing against fields that are alike or against one called `row_xml`. So the columns
of a derived table can be told apart exactly when the fields of its relation can, from each other
and from `ROW_XML`; every reference to it then means one column
(`Publisher.derivedTables_unambiguous_iff`).
-/

namespace XmlPublishing

namespace FromItem

/-- No two columns of the item have names that are alike. -/
def Unambiguous (i : FromItem) : Prop := (i.columns.map Text.foldAscii).Nodup

instance (i : FromItem) : Decidable i.Unambiguous := inferInstanceAs (Decidable (List.Nodup _))

/-- The columns of the item that a reference with that name means. -/
def meant (i : FromItem) (name : String) : List String :=
  i.columns.filter fun column => Text.Alike column name

variable {i : FromItem}

theorem Unambiguous.length_meant (h : i.Unambiguous) {name : String}
    (hname : ∃ column ∈ i.columns, Text.Alike column name) : (i.meant name).length = 1 := by
  obtain ⟨column, hcolumn, halike⟩ := hname
  have hmem : Text.foldAscii name ∈ i.columns.map Text.foldAscii :=
    List.mem_map.2 ⟨column, hcolumn, halike⟩
  calc (i.meant name).length
      = i.columns.countP fun column => Text.Alike column name := List.countP_eq_length_filter.symm
    _ = (i.columns.map Text.foldAscii).count (Text.foldAscii name) := by
      rw [List.count, List.countP_map]
      rfl
    _ = 1 := List.count_eq_one_of_mem h hmem

/-- The columns can be told apart when the last one differs from the others, and these from each
other. -/
theorem unambiguous_iff (name : String) {last : String} {columns : List String} :
    Unambiguous ⟨name, columns ++ [last]⟩ ↔
      (columns.map Text.foldAscii).Nodup ∧ ∀ column ∈ columns, ¬ Text.Alike column last := by
  rw [Unambiguous, List.map_append, List.nodup_append]
  constructor
  · rintro ⟨hnodup, -, hlast⟩
    exact ⟨hnodup, fun column hcolumn =>
      hlast _ (List.mem_map_of_mem hcolumn) _ List.mem_cons_self⟩
  · rintro ⟨hnodup, hlast⟩
    refine ⟨hnodup, List.nodup_singleton _, fun a ha b hb => ?_⟩
    obtain ⟨column, hcolumn, rfl⟩ := List.mem_map.1 ha
    rw [List.mem_singleton.1 hb]
    exact hlast column hcolumn

end FromItem

/-! ## The groups of a plan -/

mutual
/-- The groups inside a rows query, at any depth. -/
def RowsPlan.groups : RowsPlan → List GroupPlan
  | .rows _ parents children => RowsPlan.groupsOf parents ++ Group.groupsOf children
termination_by structural q => q
def RowsPlan.groupsOf : List RowsPlan → List GroupPlan
  | [] => []
  | q :: qs => q.groups ++ RowsPlan.groupsOf qs
termination_by structural qs => qs
def Group.groupsOf : List (Group RowsPlan) → List GroupPlan
  | [] => []
  | ⟨info, rows⟩ :: gs => ⟨info, rows⟩ :: (rows.groups ++ Group.groupsOf gs)
termination_by structural gs => gs
end

/-- The group and those inside it. -/
def Group.groups (g : GroupPlan) : List GroupPlan := g :: g.rows.groups

theorem RowsPlan.mem_groups_rows {info : RowsInfo} {parents : List RowsPlan}
    {children : List GroupPlan} {g : GroupPlan} :
    g ∈ (RowsPlan.rows info parents children).groups ↔
      (∃ q ∈ parents, g ∈ q.groups) ∨ ∃ c ∈ children, g ∈ c.groups := by
  have hparents : g ∈ RowsPlan.groupsOf parents ↔ ∃ q ∈ parents, g ∈ q.groups := by
    induction parents with
    | nil => simp [RowsPlan.groupsOf]
    | cons q qs ih => simp [RowsPlan.groupsOf, ih]
  have hchildren : g ∈ Group.groupsOf children ↔ ∃ c ∈ children, g ∈ c.groups := by
    induction children with
    | nil => simp [Group.groupsOf]
    | cons c cs ih => simp [Group.groupsOf, Group.groups, ih, or_assoc]
  rw [RowsPlan.groups, List.mem_append, hparents, hchildren]

/-- In a plan that resolves, the references of every group do. -/
theorem RowsPlan.Resolves.wellScoped {s : Schema} {scope : List FromItem} {q : RowsPlan}
    (h : q.Resolves s scope) :
    ∀ g ∈ q.groups, ∃ scope, WellScoped (g.item :: scope) g.info.refs := by
  induction q generalizing scope with
  | rows info parents children ihParents ihChildren =>
    intro g hg
    cases h with
    | rows _ _ hparents hchildren =>
      rcases mem_groups_rows.1 hg with ⟨q, hq, hg⟩ | ⟨c, hc, hg⟩
      · exact ihParents q hq (hparents q hq) g hg
      · cases hchildren c hc with
        | group hscoped hrows _ =>
          rcases List.mem_cons.1 hg with rfl | hg
          · exact ⟨_, hscoped⟩
          · exact ihChildren c hc hrows g hg

/-- The columns that a rows query selects, as its model has them. -/
def QueryModel.columnNames (m : QueryModel) : List String :=
  match m.get? selectFieldsKey, m.get? resultColumnKey with
  | some (.list columns), some (.text column) => columns ++ [column]
  | _, _ => []

theorem RowsPlan.HasModel.columnNames {q : RowsPlan} {m : QueryModel} (h : q.HasModel m) :
    m.columnNames = q.resultColumns := by
  obtain ⟨info, parents, children⟩ := q
  obtain ⟨columns, ps, cs, hcolumns, rfl⟩ := h
  obtain ⟨-, -, hselect, -, -, -, -, -, -, -, -, hresult⟩ := RowsInfo.get?_model info columns ps cs
  have hknown : info.columns = some columns := hcolumns
  rw [QueryModel.columnNames, RowsPlan.info, hselect, hresult, resultColumns, hknown]
  rfl

/-- The group selects from all fields of a relation and the row elements, in every model of its rows
query. These columns can be told apart exactly when the fields can, from each other and from the
column of row elements; then each reference to one of them means one column. -/
structure Group.SelectsFrom (g : GroupPlan) (s : Schema) (fields : List Field) : Prop where
  known : s.fields? g.rows.info.relation = some fields
  models : ∀ m, g.rows.HasModel m → m.columnNames = g.item.columns
  columns : g.item.columns = fields.map (·.name) ++ [rowXmlColumn]
  unambiguous_iff : g.item.Unambiguous ↔
    ((fields.map (·.name)).map Text.foldAscii).Nodup ∧
      ∀ f ∈ fields, ¬ Text.Alike f.name rowXmlColumn
  meansOne : g.item.Unambiguous → ∀ c ∈ g.info.refs, c.qualifier = g.info.name →
    (g.item.meant c.column).length = 1

theorem Group.selectsFrom {s : Schema} {g : GroupPlan} {fields : List Field}
    (hknown : s.fields? g.rows.info.relation = some fields)
    (hcolumns : g.rows.info.columns = some (fields.map (·.name)))
    (hscoped : ∃ scope, WellScoped (g.item :: scope) g.info.refs) : g.SelectsFrom s fields := by
  obtain ⟨i, ⟨info, parents, children⟩⟩ := g
  have hitem : (Group.item ⟨i, .rows info parents children⟩).columns =
      fields.map (·.name) ++ [rowXmlColumn] := by
    rw [item, RowsPlan.resultColumns, show info.columns = _ from hcolumns]
    rfl
  refine ⟨hknown, fun m hm => hm.columnNames, hitem, ?_, fun hunambiguous c hc hname => ?_⟩
  · rw [← List.forall_mem_map (P := fun name => ¬ Text.Alike name rowXmlColumn),
      ← FromItem.unambiguous_iff i.name, ← hitem]
    rfl
  · obtain ⟨scope, hscoped⟩ := hscoped
    obtain ⟨item, hmem, hitemName, hcolumn⟩ := hscoped.resolve c hc
    -- the alias of the group is that of its derived table only
    rcases List.mem_cons.1 hmem with rfl | hmem
    · exact hunambiguous.length_meant hcolumn
    · have hnotMem := (List.nodup_cons.1 hscoped.distinct).1
      exact absurd (List.mem_map.2 ⟨item, hmem, hitemName.trans hname⟩) hnotMem

namespace Planner

variable {p : Planner} {n : Layout}

/-- The group of a layout selects from all fields of its relation. -/
theorem groupRows_columns (aliases : Aliases) (ambient : Option String) (style : CollectionStyle) :
    (p.groupRows aliases ambient n style).info.relation = n.relation ∧
      (p.groupRows aliases ambient n style).info.columns =
        (p.schema.fields? n.relation).map fun fields => fields.map (·.name) := by
  simp only [groupRows, info_rows]
  exact ⟨rfl, rfl⟩

/-- Every group of a plan is that of some node of the layout. -/
theorem exists_node_of_mem_groups (name : String) (aliases : Aliases) (filter : Option Filter)
    (columns : RowColumns) (ambient : Option String) (sorted : Bool) :
    ∀ g ∈ (p.rows name aliases filter columns ambient sorted n).groups,
      ∃ m ∈ n.nodes, g.rows.info.relation = m.relation ∧
        g.rows.info.columns =
          (p.schema.fields? m.relation).map fun fields => fields.map (·.name) := by
  induction n generalizing name aliases filter columns ambient sorted with
  | node info parents children ihParents ihChildren =>
    intro g hg
    rw [rows_node, RowsPlan.mem_groups_rows] at hg
    rcases hg with ⟨q, hq, hg⟩ | ⟨c, hc, hg⟩
    · obtain ⟨e, he, rfl⟩ := List.mem_map.1 hq
      obtain ⟨m, hm, hcolumns⟩ := ihParents e he _ _ _ _ _ _ g hg
      exact ⟨m, Layout.mem_nodes_trans hm (Layout.mem_nodes_of_parent he), hcolumns⟩
    · obtain ⟨e, he, rfl⟩ := List.mem_map.1 hc
      have hchild := Layout.mem_nodes_of_child (n := .node info parents children) he
      rcases List.mem_cons.1 hg with rfl | hg
      · exact ⟨e.layout, hchild, groupRows_columns ..⟩
      · obtain ⟨m, hm, hcolumns⟩ := ihChildren e he _ _ _ _ _ _ g hg
        exact ⟨m, Layout.mem_nodes_trans hm hchild, hcolumns⟩

theorem exists_selectsFrom (hn : n.FitsIn p.schema) {g : GroupPlan}
    (hscoped : ∃ scope, WellScoped (g.item :: scope) g.info.refs)
    (hnode : ∃ m ∈ n.nodes, g.rows.info.relation = m.relation ∧
      g.rows.info.columns =
        (p.schema.fields? m.relation).map fun fields => fields.map (·.name)) :
    ∃ fields, g.SelectsFrom p.schema fields := by
  obtain ⟨m, hm, hrelation, hcolumns⟩ := hnode
  obtain ⟨fields, hfields⟩ := Schema.contains_iff.1 (hn m hm).info.registered
  have hknown : p.schema.fields? m.relation = some fields := hfields
  rw [hknown] at hcolumns
  exact ⟨fields, Group.selectsFrom (hrelation ▸ hknown) hcolumns hscoped⟩

end Planner

/-- In all queries for a layout built over a schema, the derived tables select from all fields of a
relation, and their columns can be told apart exactly when the schema tells those fields apart. -/
theorem Publisher.derivedTables_unambiguous_iff (p : Publisher) {n : Layout}
    (hn : n.BuiltOver p.schema) (name? filter ambient : Option String) :
    (∀ columns, ∀ g ∈ (p.planner.topRows n name? filter columns ambient).groups,
      ∃ fields, g.SelectsFrom p.schema fields) ∧
    ∀ xmlType style, ∀ g ∈ (p.planner.topGroup n name? filter xmlType ambient style).groups,
      ∃ fields, g.SelectsFrom p.schema fields := by
  have hfits : n.FitsIn p.planner.schema := hn.fitsIn
  constructor
  · intro columns g hg
    have hresolves := Planner.topRows_resolves hfits name? filter columns ambient
    exact Planner.exists_selectsFrom hfits (hresolves.wellScoped g hg)
      (Planner.exists_node_of_mem_groups _ _ _ _ _ _ g hg)
  · intro xmlType style g hg
    have hresolves := Planner.topGroup_resolves hfits name? filter xmlType ambient style
    cases hresolves with
    | group hscoped hrows _ =>
      rcases List.mem_cons.1 hg with rfl | hg
      · exact Planner.exists_selectsFrom hfits ⟨_, hscoped⟩
          ⟨n, n.self_mem_nodes, Planner.groupRows_columns ..⟩
      · exact Planner.exists_selectsFrom hfits (hrows.wellScoped g hg)
          (Planner.exists_node_of_mem_groups _ _ _ _ _ _ g hg)

namespace Staff

/-- The group of those who report to an employee with the alias `e`. -/
def reports : GroupPlan :=
  publisher.planner.child "e" (Aliases.empty.add "e") none .wrapped ⟨bossKey, withBoss⟩

theorem team_derivedTable_unambiguous :
    team.BuiltOver schema ∧
      ∃ g ∈ (publisher.planner.topRows team (some "e") none .xmlOnly none).groups,
        g.item.Unambiguous ∧ (g.item.meant rowXmlColumn).length = 1 := by
  have hreports : reports ∈ (publisher.planner.topRows team (some "e") none .xmlOnly none).groups :=
    List.mem_cons_self
  obtain ⟨hrows, -⟩ := publisher.derivedTables_unambiguous_iff team_builtOver (some "e") none none
  obtain ⟨fields, hselects⟩ := hrows .xmlOnly reports hreports
  have hfields : [{ name := "id" }, { name := "boss" }] = fields := Option.some.inj hselects.known
  have hunambiguous := hselects.unambiguous_iff.2 (by rw [← hfields]; decide)
  have hmeant := hselects.meansOne hunambiguous ⟨"e1", rowXmlColumn⟩ List.mem_cons_self rfl
  exact ⟨team_builtOver, reports, hreports, hunambiguous, hmeant⟩

/-- Employees with a field that is called like the column of row elements. -/
def storedSchema : Schema where
  caseSensitivity := .preserve
  relations := [⟨employee, .table, [{ name := "id" }, { name := "boss" }, { name := "row_xml" }]⟩]
  foreignKeys := [bossKey]
  distinct := List.pairwise_singleton _ _
  fits := fun k hk => Schema.fitsIn_of_firstMissing? (List.findSome?_eq_none_iff.1 rfl k hk)

def storedDefaults : Defaults := ⟨storedSchema, .standard, .wrapped, none⟩

def storedPublisher : Publisher := ⟨storedSchema, SqlXml.backend 2, {}⟩

/-- Employees with those who report to them. -/
def stored : Layout :=
  let rows : Layout :=
    .leaf ⟨employee, ["id", "boss", "row_xml"], "e", "e-listing", .wrapped, none, none⟩
  rows.addChild ⟨bossKey, rows⟩

theorem stored_builtOver : stored.BuiltOver storedSchema := by
  have hroot : storedDefaults.root employee = .ok (.node stored.info [] []) := rfl
  refine .embedChildren (d := storedDefaults) rfl (.root rfl hroot) ?_
  rfl

/-- Both columns of the derived table that are called `ROW_XML`, in some case, are meant by the
reference to the row elements. -/
theorem stored_derivedTable_ambiguous :
    Schema.ofLists .preserve storedSchema.relations [bossKey] = .ok storedSchema ∧
      stored.BuiltOver storedSchema ∧
      ∃ g ∈ (storedPublisher.planner.topRows stored none none .xmlOnly none).groups,
        ⟨g.info.name, rowXmlColumn⟩ ∈ g.info.refs ∧ ¬ g.item.Unambiguous ∧
          g.item.meant rowXmlColumn = ["row_xml", "ROW_XML"] := by
  refine ⟨rfl, stored_builtOver, _, List.mem_cons_self, List.mem_cons_self, by decide, by decide⟩

end Staff

end XmlPublishing

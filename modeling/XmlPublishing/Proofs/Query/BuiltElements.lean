import XmlPublishing.Proofs.Query.QuotedNames
import XmlPublishing.Proofs.Query.WrittenQueries

/-!
The elements of a plan are those that its text is read as.

A rows query is read as the tree of its plan (`Publisher.readRows?_eq_some`) when what it writes
outside of quotes consists of words: fields, keys, and the aliases of the caller, and of embedded
relations also their names and sort orders. Names of elements may be any text, but those inside of
embedded queries must not have line feeds: these queries are cut into lines and indented, and an
element name with a line feed in it would be indented with them.
-/

namespace XmlPublishing

open SqlXml

/-- The fields that the schema lists for a relation consist of words. -/
def Schema.FieldsPlain (s : Schema) (r : RelationId) : Prop :=
  ∀ fields ∈ s.fields? r, ∀ field ∈ fields, Plain field.name

instance (s : Schema) (r : RelationId) : Decidable (s.FieldsPlain r) :=
  inferInstanceAs (Decidable (∀ fields ∈ s.fields? r, ∀ field ∈ fields, Plain field.name))

namespace Layout

/-- What a node writes can be read: its fields, the keys of what is embedded in it, and the queries
of what is embedded in it. -/
@[mk_iff]
structure RootReadable (s : Schema) (n : Layout) : Prop where
  fields : ∀ field ∈ n.fields, Plain field
  keys : ∀ e ∈ n.parents ++ n.children, ∀ pair ∈ e.key.pairs, Plain pair.1 ∧ Plain pair.2
  relations : ∀ e ∈ n.parents ++ n.children, Plain e.layout.relation.text
  rowNames : ∀ e ∈ n.parents ++ n.children, OneLine e.layout.rowName
  labels : ∀ e ∈ n.parents ++ n.children, ∀ field ∈ e.layout.fields, OneLine (Text.lower field)
  columns : ∀ e ∈ n.children, s.FieldsPlain e.layout.relation
  order : ∀ e ∈ n.children, ∀ term ∈ e.layout.info.sortTerms, Plain term.field
  collectionNames : n.info.style = .wrapped →
    ∀ e ∈ n.children, OneLine e.layout.collectionName

instance (s : Schema) (n : Layout) : Decidable (n.RootReadable s) :=
  decidable_of_iff' _ (rootReadable_iff s n)

/-- What all nodes write can be read. -/
def Readable (s : Schema) (n : Layout) : Prop := ∀ m ∈ n.nodes, m.RootReadable s

instance (s : Schema) (n : Layout) : Decidable (n.Readable s) :=
  inferInstanceAs (Decidable (∀ m ∈ n.nodes, m.RootReadable s))

end Layout

theorem blank_of_mem_unit (indent : Nat) :
    ∀ c ∈ (String.ofList (List.replicate indent ' ')).toList, c = ' ' := by
  intro c hc
  rw [String.toList_ofList] at hc
  exact List.eq_of_mem_replicate hc

section

variable {p : Publisher} {indent : Nat} {name : String} {aliases : Aliases}
  {ambient : Option String}

/-- The text of a query that builds this tree where it is nested into another one. -/
def BuildsText (t : Except PublishError String) (tree : ElementTree) : Prop :=
  ∀ s, t = .ok s → BuildsQuery s [tree]

namespace Planner

variable {n : Layout} {info : NodeInfo} {parents children : List (Joined Layout)}

theorem isPlain_rowsInfo {planner : Planner} (hfields : ∀ field ∈ info.fields, Plain field)
    (hname : Plain name) {filter : Option Filter} {columns : RowColumns}
    (hcolumns : columns.plain = .all → planner.schema.FieldsPlain info.relation) {sorted : Bool}
    {cs : List String}
    (hcs : (planner.rowsInfo info name filter columns ambient sorted).columns = some cs)
    (ps ss : List String) :
    ((planner.rowsInfo info name filter columns ambient sorted).parts cs ps ss).IsPlain where
  name := hname
  columns := forall_mem_columns hfields hcolumns cs hcs
  fields := hfields
  column := by
    have hcolumn : Plain rowXmlColumn := by decide
    exact hcolumn

/-- Nested into another query, the rows query of a layout builds the tree of its plan. -/
def RowsBuild (p : Publisher) (n : Layout) : Prop :=
  ∀ name, Plain name → ∀ (aliases : Aliases) (filter : Option Filter),
    (∀ f ∈ filter, Plain f.text) → ∀ columns : RowColumns,
      (columns.plain = .all → p.schema.FieldsPlain n.relation) → ∀ ambient : Option String,
        BuildsText ((p.planner.rows name aliases filter columns ambient false n).text p.render)
          (p.planner.rows name aliases filter columns ambient false n).elementTree

theorem buildsText_parent {e : Joined Layout} (h : RowsBuild p e.layout)
    (hpairs : ∀ pair ∈ e.key.pairs, Plain pair.1 ∧ Plain pair.2) (hname : Plain name) :
    BuildsText ((p.planner.parent name aliases ambient e).text p.render)
      (p.planner.parent name aliases ambient e).elementTree := by
  have hparent := aliases.plain_fresh e.layout.relation
  refine h _ hparent _ _ (fun f hf => ?_) _ (fun hall => ?_) _
  · cases hf
    exact Join.forall_mem_text (fun _ h => h) hname hparent hpairs
  · cases hall

theorem buildsText_child (hp : p.backend = SqlXml.backend indent) {e : Joined Layout}
    (h : RowsBuild p e.layout) (hpairs : ∀ pair ∈ e.key.pairs, Plain pair.1 ∧ Plain pair.2)
    (hcolumns : p.schema.FieldsPlain e.layout.relation)
    (horder : ∀ term ∈ e.layout.info.sortTerms, Plain term.field) {style : CollectionStyle}
    (hcollection : style = .wrapped → OneLine e.layout.collectionName) (hname : Plain name) :
    BuildsText (Group.text p.render (p.planner.child name aliases ambient style e))
      (p.planner.child name aliases ambient style e).elementTree := by
  intro t ht
  obtain ⟨rowsQuery, hrows, rfl⟩ := (Group.text_eq_ok_of_standard hp).1 ht
  have hchild := aliases.plain_fresh e.layout.relation
  have hquery := h _ (Aliases.plain_fresh _ _) _ none nofun _ (fun _ => hcolumns) _ _ hrows
  have hcolumn : Plain collectionXmlColumn := by decide
  have hgroup := GroupParts.buildsQuery (blank_of_mem_unit indent)
    (q := (p.planner.child name aliases ambient style e).info.parts rowsQuery) hquery hchild
    ?_ (forall_mem_orderByTexts (fun _ h => h) hchild horder) ?_ hcolumn
  · rw [GroupInfo.parts, Option.map_map] at hgroup
    exact hgroup
  · intro w hw
    cases style with
    | wrapped =>
      cases hw
      exact hcollection rfl
    | inline => cases hw
  · intro text htext
    cases htext
    exact Join.forall_mem_text (fun _ h => h) hchild hname hpairs

/-- The texts of what is embedded in a node build the trees of their plans. -/
theorem buildsText_embedded (hp : p.backend = SqlXml.backend indent)
    (hroot : (Layout.node info parents children).RootReadable p.schema)
    (hembedded : ∀ e ∈ parents ++ children, RowsBuild p e.layout) (hname : Plain name)
    {ps cs : List String}
    (hps : List.Forall₂ (fun q t => q.text p.render = .ok t)
      (parents.map (p.planner.parent name aliases ambient)) ps)
    (hcs : List.Forall₂ (fun g t => g.text p.render = .ok t)
      (children.map (p.planner.child name aliases ambient info.style)) cs) :
    List.Forall₂ (fun s tree => BuildsQuery s [tree]) ps
        ((parents.map (p.planner.parent name aliases ambient)).map RowsPlan.elementTree) ∧
      List.Forall₂ (fun s tree => BuildsQuery s [tree]) cs
        ((children.map (p.planner.child name aliases ambient info.style)).map
          Group.elementTree) := by
  rw [List.forall₂_map_left_iff] at hps hcs
  rw [List.map_map, List.map_map, List.forall₂_map_right_iff, List.forall₂_map_right_iff]
  constructor
  · refine (forall₂_imp_of_mem hps fun e he t _ ht => ?_).flip
    have hmem := List.mem_append_left children he
    exact buildsText_parent (hembedded e hmem) (hroot.keys e hmem) hname t ht
  · refine (forall₂_imp_of_mem hcs fun e he t _ ht => ?_).flip
    have hmem := List.mem_append_right parents he
    exact buildsText_child hp (hembedded e hmem) (hroot.keys e hmem) (hroot.columns e he)
      (hroot.order e he) (fun hstyle => hroot.collectionNames hstyle e he) hname t ht

theorem rowsBuild (hp : p.backend = SqlXml.backend indent) (hn : n.Readable p.schema)
    (hrelation : Plain n.relation.text) (hrowName : OneLine n.rowName)
    (hlabels : ∀ field ∈ n.fields, OneLine (Text.lower field)) : RowsBuild p n := by
  induction n with
  | node info parents children ihParents ihChildren =>
    intro name hname aliases filter hfilter columns hcolumns ambient t ht
    obtain ⟨hroot, hreadParents, hreadChildren⟩ := Layout.forall_mem_nodes.1 hn
    rw [rows_node] at ht ⊢
    obtain ⟨cs, ps, ss, hcs, hps, hss, hrender⟩ := RowsPlan.text_eq_ok.1 ht
    rw [Publisher.render_rows hp] at hrender
    cases hrender
    have hread := List.forall_mem_append.2 ⟨hreadParents, hreadChildren⟩
    have ih := List.forall_mem_append.2 ⟨ihParents, ihChildren⟩
    have hembedded : ∀ e ∈ parents ++ children, RowsBuild p e.layout := fun e he =>
      ih e he (hread e he) (hroot.relations e he) (hroot.rowNames e he) (hroot.labels e he)
    obtain ⟨hparents, hchildren⟩ := buildsText_embedded hp hroot hembedded hname hps hss
    rw [RowsPlan.elementTree_rows]
    refine RowsParts.buildsQuery (blank_of_mem_unit indent)
      (isPlain_rowsInfo hroot.fields hname hcolumns hcs ps ss) hrowName hlabels hparents hchildren
      hrelation ?_ rfl
    intro text htext
    obtain ⟨f, hf, rfl⟩ := Option.map_eq_some_iff.1 htext
    exact hfilter f hf

end Planner

/-- The text of a rows query is read as the tree of its plan. -/
theorem Publisher.readRows?_eq_some (hp : p.backend = SqlXml.backend indent) {n : Layout}
    (hn : n.Readable p.schema) {name? : Option String} (hname : ∀ name ∈ name?, Plain name)
    {columns : RowColumns} (hcolumns : columns.plain = .all → p.schema.FieldsPlain n.relation)
    {filter : Option String} {text : String}
    (h : p.rows n name? filter columns ambient = .ok text) :
    readRows? text = some (p.planner.topRows n name? filter columns ambient).elementTree := by
  obtain ⟨info, parents, children⟩ := n
  have hfresh := Aliases.empty.plain_fresh info.relation
  have halias := Aliases.empty.introduceAs_of_fresh info.relation hfresh hname
  obtain ⟨hroot, hreadParents, hreadChildren⟩ := Layout.forall_mem_nodes.1 hn
  have hplan : p.planner.topRows (.node info parents children) name? filter columns ambient = _ :=
    Planner.rows_node _ _ _ ambient _ columns true info parents children
  rw [rows, hplan] at h
  rw [hplan, RowsPlan.elementTree_rows]
  obtain ⟨cs, ps, ss, hcs, hps, hss, hrender⟩ := RowsPlan.text_eq_ok.1 h
  rw [Publisher.render_rows hp] at hrender
  cases hrender
  have hread := List.forall_mem_append.2 ⟨hreadParents, hreadChildren⟩
  have hembedded : ∀ e ∈ parents ++ children, Planner.RowsBuild p e.layout := fun e he =>
    Planner.rowsBuild hp (hread e he) (hroot.relations e he) (hroot.rowNames e he)
      (hroot.labels e he)
  obtain ⟨hparents, hchildren⟩ := Planner.buildsText_embedded hp hroot hembedded halias hps hss
  exact RowsParts.readRows?_eq_some (blank_of_mem_unit indent)
    (Planner.isPlain_rowsInfo hroot.fields halias hcolumns hcs ps ss) hparents hchildren

end

end XmlPublishing

import XmlPublishing.Proofs.Query.Calls
import XmlPublishing.Proofs.Query.NameResolution

/-!
Conditions of embedded queries.

An embedded query is restricted to the rows that its foreign key joins to the row around it: one
comparison per pair of the key, in order, between the alias of rows on the child's side and that of
rows on the parent's (`ForeignKey.condition`). An embedded parent compares the alias of the rows
around it with its own, an embedded child the alias of its group with that of the rows around it.

`Layout.EachFragment` goes through the embedded queries of a plan, next to the entries of the layout
that they are for. In all plans for layouts that fit a schema the two aliases of a condition differ,
and no alias further in is called like one of them; they stand for rows of the relations that the
key joins (`Planner.rows_joinedAt`). The only invariant is that the alias of the rows around is in
use.

A schema may have keys without pairs. Then, and only then, nothing follows `where`
(`Publisher.where_empty_iff`).
-/

namespace XmlPublishing

/-- The equality of two columns. -/
structure Comparison where
  left : ColumnRef
  right : ColumnRef

namespace Comparison

def text (c : Comparison) : String := c.left.text ++ " = " ++ c.right.text

def swap (c : Comparison) : Comparison := ⟨c.right, c.left⟩

theorem text_ne_empty (c : Comparison) : c.text ≠ "" := by
  rw [text, ne_eq, String.append_eq_empty_iff, String.append_eq_empty_iff]
  rintro ⟨⟨-, h⟩, -⟩
  exact absurd h (by decide)

end Comparison

/-- The condition that all the comparisons hold. -/
def conjunction (cs : List Comparison) : String := " and ".intercalate (cs.map Comparison.text)

theorem conjunction_eq_empty_iff {cs : List Comparison} : conjunction cs = "" ↔ cs = [] := by
  constructor
  · intro h
    cases cs with
    | nil => rfl
    | cons c cs =>
      cases cs with
      | nil => exact absurd h c.text_ne_empty
      | cons c' cs =>
        rw [conjunction, List.map_cons, List.map_cons, String.intercalate_cons_cons,
          String.append_eq_empty_iff, String.append_eq_empty_iff] at h
        exact absurd h.1.1 c.text_ne_empty
  · rintro rfl
    rfl

namespace ForeignKey

/-- The comparisons of the two sides of a key, with the child's on the left. -/
def comparisons (k : ForeignKey) (child parent : String) : List Comparison :=
  k.pairs.map fun (childField, parentField) => ⟨⟨child, childField⟩, ⟨parent, parentField⟩⟩

/-- The condition that a row on the child's side and one on the parent's are joined by the key. -/
def condition (k : ForeignKey) (childOnLeft : Bool) (child parent : String) : String :=
  if childOnLeft then conjunction (k.comparisons child parent)
  else conjunction ((k.comparisons child parent).map .swap)

theorem text_join (k : ForeignKey) (childOnLeft : Bool) (child parent : String) :
    (Filter.join ⟨child, parent, k.pairs, childOnLeft⟩).text =
      k.condition childOnLeft child parent := by
  rw [Filter.text, Join.text, condition, conjunction, conjunction, comparisons]
  simp only [List.map_map]
  cases childOnLeft <;> rfl

theorem condition_eq_empty_iff {k : ForeignKey} {childOnLeft : Bool} {child parent : String} :
    k.condition childOnLeft child parent = "" ↔ k.pairs = [] := by
  cases childOnLeft <;>
    simp [condition, conjunction_eq_empty_iff, comparisons]

end ForeignKey

/-- The aliases at some place of a query, innermost first, each with the relation whose rows it
stands for. -/
abbrev Sight := List (String × RelationId)

/-- The place of an embedded query: the key that joins it, the aliases for the two sides of the key,
and all aliases in sight. -/
structure Site where
  key : ForeignKey
  child : String
  parent : String
  sight : Sight

/-- What a rows query adds to the aliases inside it. -/
def RowsInfo.entry (i : RowsInfo) : String × RelationId := (i.name, i.relation)

/-- What a group adds to the aliases: its derived table has rows of the relation inside. -/
def Group.entry (g : GroupPlan) : String × RelationId := (g.info.name, g.rows.info.relation)

/-- `P` holds of the models of all embedded queries, each at its place. There is one for each entry
of the layout, in order. -/
inductive Layout.EachFragment (P : Site → Call → Prop) : Sight → Layout → RowsPlan → Prop
  | node {sight : Sight} {info : NodeInfo} {row : RowsInfo}
      {parents children : List (Joined Layout)} {ps : List RowsPlan} {cs : List GroupPlan} :
      List.Forall₂ (fun e q => ∀ m, q.HasModel m →
        P ⟨e.key, row.name, q.info.name, q.info.entry :: row.entry :: sight⟩ (.rows, m))
        parents ps →
      List.Forall₂ (fun e g => ∀ m, g.HasModel m →
        P ⟨e.key, g.info.name, row.name, g.entry :: row.entry :: sight⟩ (g.info.shape, m))
        children cs →
      (∀ e q, (e, q) ∈ parents.zip ps → e.layout.EachFragment P (row.entry :: sight) q) →
      (∀ e g, (e, g) ∈ children.zip cs →
        e.layout.EachFragment P (g.entry :: row.entry :: sight) g.rows) →
      Layout.EachFragment P sight (.node info parents children) (.rows row ps cs)

theorem Layout.EachFragment.imp {P Q : Site → Call → Prop} {sight : Sight} {n : Layout}
    {q : RowsPlan} (h : n.EachFragment P sight q)
    (hPQ : ∀ site call, P site call → Q site call) : n.EachFragment Q sight q := by
  induction h with
  | node hparents hchildren _ _ ihParents ihChildren =>
    refine .node ?_ ?_ ihParents ihChildren
    · exact hparents.imp fun e q h m hm => hPQ _ _ (h m hm)
    · exact hchildren.imp fun e g h m hm => hPQ _ _ (h m hm)

/-- The aliases for the two sides differ, and the innermost aliases that are called like them stand
for rows of the relations that the key joins, which is one of the schema's. -/
structure Site.Sound (s : Schema) (site : Site) : Prop where
  declared : site.key ∈ s.foreignKeys
  distinct : site.child ≠ site.parent
  child : ∃ r, site.sight.lookup site.child = some r ∧ site.key.source == r
  parent : ∃ r, site.sight.lookup site.parent = some r ∧ site.key.target == r

namespace Site.Sound

variable {s : Schema} {k : ForeignKey} {own row : String} {r r' : RelationId} {sight : Sight}

/-- An embedded parent is joined through its own alias and that of the rows around it. -/
theorem ofParent (hkey : k.Joins s r' r) (hown : own ≠ row) :
    Site.Sound s ⟨k, row, own, (own, r) :: (row, r') :: sight⟩ where
  declared := hkey.mem
  distinct := hown.symm
  child := ⟨r', by simp [List.lookup_cons, beq_false_of_ne hown.symm], hkey.source⟩
  parent := ⟨r, List.lookup_cons_self, hkey.target⟩

/-- An embedded child is, too, but the other way round. -/
theorem ofChild (hkey : k.Joins s r r') (hown : own ≠ row) :
    Site.Sound s ⟨k, own, row, (own, r) :: (row, r') :: sight⟩ where
  declared := hkey.mem
  distinct := hown
  child := ⟨r, List.lookup_cons_self, hkey.source⟩
  parent := ⟨r', by simp [List.lookup_cons, beq_false_of_ne hown.symm], hkey.target⟩

end Site.Sound

/-- The call is for a query that the filter restricts. -/
inductive Call.RestrictedBy (f : Filter) : Call → Prop
  | rows {i : RowsInfo} (columns parents children : List String) :
      i.filter = some f → RestrictedBy f (.rows, i.model columns parents children)
  | group {i : GroupInfo} (rowsQuery : String) :
      i.filter = some f → RestrictedBy f (i.shape, i.model rowsQuery)

namespace Call.RestrictedBy

variable {f : Filter} {call : Call}

theorem get?_filter (h : call.RestrictedBy f) :
    call.2.get? QueryModel.filterKey = some (.text f.text) := by
  cases h with
  | @rows i columns parents children hf =>
    obtain ⟨-, -, -, -, -, -, -, -, hfilter, -⟩ := i.get?_model columns parents children
    rw [hfilter, hf]
    rfl
  | @group i rowsQuery hf =>
    obtain ⟨-, -, hfilter, -⟩ := i.get?_model rowsQuery
    rw [hfilter, hf]
    rfl

/-- The text of the standard backend has the filter in its `where` clause. -/
theorem exists_lines (h : call.RestrictedBy f) (indent : Nat) :
    ∃ lines, SqlXml.backend indent call.1 call.2 = .ok (SqlXml.joinLines lines) ∧
      "where " ++ f.text ∈ lines := by
  cases h with
  | @rows i columns parents children hf =>
    refine ⟨_, SqlXml.backend_rows indent i columns parents children, ?_⟩
    simp [SqlXml.RowsParts.lines, SqlXml.tail, RowsInfo.parts, hf]
  | @group i rowsQuery hf =>
    refine ⟨_, SqlXml.backend_group indent i rowsQuery, ?_⟩
    simp [SqlXml.GroupParts.lines, SqlXml.tail, GroupInfo.parts, hf]

end Call.RestrictedBy

namespace Planner

variable {p : Planner} {n : Layout}

/-- The query is embedded at a sound place, and is restricted by the key there. -/
def JoinedAt (p : Planner) (site : Site) (call : Call) : Prop :=
  site.Sound p.schema ∧
    call.RestrictedBy (.join ⟨site.child, site.parent, site.key.pairs, p.childOnLeft⟩)

theorem info_parent (name : String) (aliases : Aliases) (ambient : Option String)
    (e : Joined Layout) :
    (p.parent name aliases ambient e).info =
      p.rowsInfo e.layout.info (aliases.fresh e.layout.relation)
        (some (.join ⟨name, aliases.fresh e.layout.relation, e.key.pairs, p.childOnLeft⟩))
        .xmlOnly ambient false :=
  info_rows ..

variable {aliases : Aliases} {e : Joined Layout} {m : QueryModel}

theorem fresh_ne {name : String} (hname : name ∈ aliases.inUse) (r : RelationId) :
    aliases.fresh r ≠ name :=
  fun h => Aliases.fresh_notMem aliases r (h ▸ hname)

theorem parent_joinedAt (row : RowsInfo)
    (hkey : e.key.Joins p.schema row.relation e.layout.relation)
    (hrow : row.name ∈ aliases.inUse) (ambient : Option String) (sight : Sight)
    (hm : (p.parent row.name aliases ambient e).HasModel m) :
    let own := (p.parent row.name aliases ambient e).info
    p.JoinedAt ⟨e.key, row.name, own.name, own.entry :: row.entry :: sight⟩ (.rows, m) := by
  obtain ⟨columns, ps, cs, -, rfl⟩ := hm
  rw [info_parent]
  exact ⟨.ofParent hkey (fresh_ne hrow _), .rows columns ps cs rfl⟩

theorem child_joinedAt (row : RowsInfo)
    (hkey : e.key.Joins p.schema e.layout.relation row.relation)
    (hrow : row.name ∈ aliases.inUse) (ambient : Option String) (style : CollectionStyle)
    (sight : Sight) (hm : (p.child row.name aliases ambient style e).HasModel m) :
    let own := p.child row.name aliases ambient style e
    p.JoinedAt ⟨e.key, own.info.name, row.name, own.entry :: row.entry :: sight⟩
      (own.info.shape, m) := by
  obtain ⟨rowsQuery, rfl⟩ := hm
  refine ⟨?_, .group rowsQuery rfl⟩
  have hrelation : (p.child row.name aliases ambient style e).rows.info.relation =
      e.layout.relation := congrArg RowsInfo.relation (info_rows ..)
  rw [Group.entry, hrelation]
  exact .ofChild hkey (fresh_ne hrow _)

/-- In a plan for a layout that fits the schema, whose own alias is in use, every embedded query is
restricted by its key. -/
theorem rows_joinedAt (hn : n.FitsIn p.schema) {name : String} {aliases : Aliases}
    (hname : name ∈ aliases.inUse) (filter : Option Filter) (columns : RowColumns)
    (ambient : Option String) (sorted : Bool) (sight : Sight) :
    n.EachFragment p.JoinedAt sight (p.rows name aliases filter columns ambient sorted n) := by
  induction n generalizing name aliases filter columns ambient sorted sight with
  | node info parents children ihParents ihChildren =>
    let row := p.rowsInfo info name filter columns ambient sorted
    rw [rows_node]
    refine .node ?_ ?_ ?_ ?_
    · rw [List.forall₂_map_right_iff, List.forall₂_same]
      intro e he m hm
      exact parent_joinedAt row (hn.parents e he).1 hname _ sight hm
    · rw [List.forall₂_map_right_iff, List.forall₂_same]
      intro e he m hm
      exact child_joinedAt row (hn.children e he).1 hname _ _ sight hm
    -- what is embedded goes on with aliases among which is its own
    · intro e q heq
      obtain ⟨he, rfl⟩ := mem_zip_map heq
      exact ihParents e he (hn.parents e he).2 (Aliases.mem_add_self _ _) ..
    · intro e g heg
      obtain ⟨he, rfl⟩ := mem_zip_map heg
      exact ihChildren e he (hn.children e he).2 (Aliases.mem_add_self _ _) ..

theorem topRows_joinedAt (hn : n.FitsIn p.schema) (name? filter : Option String)
    (columns : RowColumns) (ambient : Option String) :
    n.EachFragment p.JoinedAt [] (p.topRows n name? filter columns ambient) := by
  have hname : (Aliases.empty.introduceAs name? n.relation).1 ∈
      (Aliases.empty.introduceAs name? n.relation).2.inUse := by
    rw [Aliases.introduceAs_snd]
    exact Aliases.mem_add_self _ _
  exact rows_joinedAt hn hname ..

theorem topGroup_joinedAt (hn : n.FitsIn p.schema) (name? filter : Option String)
    (xmlType : XmlType) (ambient : Option String) (style : CollectionStyle) :
    let g := p.topGroup n name? filter xmlType ambient style
    n.EachFragment p.JoinedAt [g.entry] g.rows := by
  rw [topGroup_eq]
  exact rows_joinedAt hn (Aliases.mem_add_self _ _) ..

end Planner

/-- The query is embedded at a sound place, and its condition compares the sides of the key. -/
def Site.Correlated (s : Schema) (childOnLeft : Bool) (site : Site) (call : Call) : Prop :=
  site.Sound s ∧ call.2.get? QueryModel.filterKey =
    some (.text (site.key.condition childOnLeft site.child site.parent))

theorem Planner.JoinedAt.correlated {p : Planner} {site : Site} {call : Call}
    (h : p.JoinedAt site call) : site.Correlated p.schema p.childOnLeft call := by
  obtain ⟨hsound, hrestricted⟩ := h
  refine ⟨hsound, ?_⟩
  rw [hrestricted.get?_filter, ForeignKey.text_join]

/-- The key is one of the schema's, and the condition of the embedded query stands in the `where`
clause of its text; nothing follows `where` exactly when the key has no pairs. -/
structure Site.Restricts (s : Schema) (site : Site) (call : Call) : Prop where
  declared : site.key ∈ s.foreignKeys
  condition : ∃ condition, call.2.get? QueryModel.filterKey = some (.text condition) ∧
    (condition = "" ↔ site.key.pairs = []) ∧
    ∀ indent, ∃ lines, SqlXml.backend indent call.1 call.2 = .ok (SqlXml.joinLines lines) ∧
      "where " ++ condition ∈ lines

theorem Planner.JoinedAt.restricts {p : Planner} {site : Site} {call : Call}
    (h : p.JoinedAt site call) : site.Restricts p.schema call := by
  obtain ⟨hsound, hrestricted⟩ := h
  refine ⟨hsound.declared, _, hrestricted.get?_filter, ?_, hrestricted.exists_lines⟩
  rw [ForeignKey.text_join, ForeignKey.condition_eq_empty_iff]

/-- Every query embedded in a query for a layout built over a schema is restricted by a condition,
which is empty exactly when the key that joins it has no pairs. -/
theorem Publisher.where_empty_iff (p : Publisher) {n : Layout} (hn : n.BuiltOver p.schema)
    (name? filter ambient : Option String) :
    (∀ columns, n.EachFragment (·.Restricts p.schema) []
      (p.planner.topRows n name? filter columns ambient)) ∧
    ∀ xmlType style, let g := p.planner.topGroup n name? filter xmlType ambient style
      n.EachFragment (·.Restricts p.schema) [g.entry] g.rows := by
  have hfits : n.FitsIn p.planner.schema := hn.fitsIn
  constructor
  · intro columns
    have h := Planner.topRows_joinedAt hfits name? filter columns ambient
    exact h.imp fun site call hcall => hcall.restricts
  · intro xmlType style
    have h := Planner.topGroup_joinedAt hfits name? filter xmlType ambient style
    exact h.imp fun site call hcall => hcall.restricts

namespace Staff

theorem team_restricted :
    team.BuiltOver schema ∧
      team.EachFragment
        (fun _ call => ∃ condition,
          call.2.get? QueryModel.filterKey = some (.text condition) ∧ condition ≠ "")
        [] (publisher.planner.topRows team (some "x") none .xmlOnly none) := by
  obtain ⟨hrows, -⟩ := publisher.where_empty_iff team_builtOver (some "x") none none
  refine ⟨team_builtOver, (hrows .xmlOnly).imp fun site call h => ?_⟩
  obtain ⟨hdeclared, condition, hfilter, hempty, -⟩ := h
  have hkey : site.key = bossKey := List.mem_singleton.1 hdeclared
  refine ⟨condition, hfilter, fun h => ?_⟩
  have hpairs : bossKey.pairs = [] := hkey ▸ hempty.1 h
  cases hpairs

/-- The key between employees, without its pair. -/
def looseKey : ForeignKey := ⟨employee, employee, []⟩

def looseSchema : Schema where
  caseSensitivity := .preserve
  relations := schema.relations
  foreignKeys := [looseKey]
  distinct := schema.distinct
  fits := fun k hk => Schema.fitsIn_of_firstMissing? (List.findSome?_eq_none_iff.1 rfl k hk)

def looseDefaults : Defaults := ⟨looseSchema, .standard, .wrapped, none⟩

def loosePublisher : Publisher := ⟨looseSchema, SqlXml.backend 2, {}⟩

def loose : Layout := alone.addChild ⟨looseKey, alone⟩

theorem loose_builtOver : loose.BuiltOver looseSchema := by
  have hroot : looseDefaults.root employee = .ok alone := rfl
  have h : alone.embedChildren looseDefaults = .ok loose := rfl
  exact .embedChildren rfl (.root rfl hroot) h

/-- Whatever the text of the rows query in it, the group of all employees that stands in every
employee has a `where` clause without a condition. -/
theorem loose_where_empty :
    Schema.ofLists .preserve looseSchema.relations [looseKey] = .ok looseSchema ∧
      loose.BuiltOver looseSchema ∧
      ∃ row g, loosePublisher.planner.topRows loose none none .xmlOnly none = .rows row [] [g] ∧
        ∀ rowsQuery,
          (g.info.model rowsQuery).get? QueryModel.filterKey = some (.text "") ∧
          ∃ lines, SqlXml.backend 2 g.info.shape (g.info.model rowsQuery) =
            .ok (SqlXml.joinLines lines) ∧ "where " ∈ lines := by
  let g := loosePublisher.planner.child "e" (Aliases.empty.add "e") none .wrapped ⟨looseKey, alone⟩
  have hfilter : g.info.filter = some (.join ⟨"e1", "e", [], true⟩) := rfl
  refine ⟨rfl, loose_builtOver, _, g, rfl, fun rowsQuery => ?_⟩
  have h := Call.RestrictedBy.group rowsQuery hfilter
  exact ⟨h.get?_filter, h.exists_lines 2⟩

end Staff

end XmlPublishing

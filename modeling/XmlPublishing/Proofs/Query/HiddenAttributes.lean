import XmlPublishing.Proofs.Query.Rendering

/-!
Attributes of nodes that have no place in a rows query.

Which attributes of a node a query can show depends on where the node stands (`Place`): an embedded
parent is not sorted, only a child in the wrapped style has a collection element, and the style of a
node matters to its children. `Layout.shown` keeps the rest, and planning does not see more
(`Planner.rows_shown`), so layouts that show the same have the same queries. The order of an
embedded child is shown, but only around its rows: the group is sorted by it, and no rows query
inside another query is (`Layout.SortsInside`).
-/

namespace XmlPublishing

/-! ## What a layout shows -/

/-- Where a node stands: outermost, as an embedded parent, or as an embedded child in a node with
the given style. -/
inductive Place where
  | root
  | parent
  | child (style : CollectionStyle)

namespace Place

/-- Whether the rows of a node are sorted here. -/
def sorts : Place → Bool
  | .parent => false
  | .root | .child _ => true

/-- Whether a node has a collection element here. -/
def wraps : Place → Bool
  | .child .wrapped => true
  | .root | .parent | .child .inline => false

end Place

/-- What a node shows at a place in a rows query. The style of a node without children is not
shown. -/
def NodeInfo.shown (i : NodeInfo) (place : Place) (childless : Bool) : NodeInfo :=
  { i with
    order := if place.sorts then i.order else none
    collectionName := if place.wraps then i.collectionName else ""
    style := if childless then .wrapped else i.style }

namespace Layout

mutual
/-- The layout with all attributes removed that have no place in a rows query. -/
def shown (place : Place) : Layout → Layout
  | .node info parents children =>
    .node (info.shown place children.isEmpty) (shownAll .parent parents)
      (shownAll (.child info.style) children)
termination_by structural n => n
def shownAll (place : Place) : List (Joined Layout) → List (Joined Layout)
  | [] => []
  | ⟨key, n⟩ :: es => ⟨key, n.shown place⟩ :: shownAll place es
termination_by structural es => es
end

theorem shownAll_eq_map (place : Place) (es : List (Joined Layout)) :
    shownAll place es = es.map fun e => ⟨e.key, e.layout.shown place⟩ := by
  induction es with
  | nil => rfl
  | cons e es ih => rw [shownAll, ih, List.map_cons]

theorem info_shown (n : Layout) (place : Place) :
    (n.shown place).info = n.info.shown place n.children.isEmpty := by
  cases n
  rfl

theorem relation_shown (n : Layout) (place : Place) : (n.shown place).relation = n.relation := by
  rw [relation, info_shown]
  rfl

end Layout

namespace Planner

variable (p : Planner) (name : String) (aliases : Aliases) (ambient : Option String)

theorem columns_shown (i : NodeInfo) (place : Place) (childless : Bool) (which : PlainColumns) :
    p.columns (i.shown place childless) which = p.columns i which := by
  cases which <;> rfl

theorem rowsInfo_shown (i : NodeInfo) (filter : Option Filter) (columns : RowColumns)
    {place : Place} {sorted : Bool} (h : sorted → place.sorts) (childless : Bool) :
    p.rowsInfo (i.shown place childless) name filter columns ambient sorted =
      p.rowsInfo i name filter columns ambient sorted := by
  rw [rowsInfo, rowsInfo, columns_shown]
  cases sorted with
  | false => rfl
  | true => simp [NodeInfo.shown, NodeInfo.sortTerms, h rfl]

theorem groupInfo_shown (i : NodeInfo) (filter : Option Filter) (xmlType : XmlType)
    (style : CollectionStyle) (childless : Bool) :
    groupInfo (i.shown (.child style) childless) name filter xmlType ambient style =
      groupInfo i name filter xmlType ambient style := by
  cases style <;> rfl

/-- Planning a rows query sees no more of a layout than it shows. -/
theorem rows_shown (n : Layout) (filter : Option Filter) (columns : RowColumns) {place : Place}
    {sorted : Bool} (h : sorted → place.sorts) :
    p.rows name aliases filter columns ambient sorted (n.shown place) =
      p.rows name aliases filter columns ambient sorted n := by
  induction n generalizing name aliases filter columns ambient place sorted with
  | node info parents children ihParents ihChildren =>
    rw [Layout.shown, rows_node, rows_node, rowsInfo_shown p name ambient info filter columns h,
      Layout.shownAll_eq_map, Layout.shownAll_eq_map, List.map_map, List.map_map]
    congr 1
    · apply List.map_congr_left
      intro e he
      simp only [Function.comp_apply, parent, Layout.relation_shown]
      exact ihParents e he _ _ _ _ _ nofun
    · apply List.map_congr_left
      intro e he
      -- where there is a child, the style is shown
      have hstyle : (info.shown place children.isEmpty).style = info.style := by
        simp [NodeInfo.shown, List.ne_nil_of_mem he]
      simp only [Function.comp_apply, child, groupRows, Layout.relation_shown, hstyle,
        Layout.info_shown, groupInfo_shown]
      congr 1
      exact ihChildren e he _ _ _ _ _ nofun

theorem topRows_shown (n : Layout) (name? filter : Option String) (columns : RowColumns) :
    p.topRows (n.shown .root) name? filter columns ambient =
      p.topRows n name? filter columns ambient := by
  rw [topRows, topRows, Layout.relation_shown]
  exact p.rows_shown _ _ ambient n _ _ fun _ => rfl

end Planner

/-! ## The order of embedded children -/

mutual
/-- The layout with the rows of its embedded children in no order. -/
def Layout.unsortedChildren : Layout → Layout
  | .node info parents children =>
    .node info (Layout.unsortedInParents parents) (Layout.unsortedAll children)
termination_by structural n => n
def Layout.unsortedInParents : List (Joined Layout) → List (Joined Layout)
  | [] => []
  | ⟨key, n⟩ :: es => ⟨key, n.unsortedChildren⟩ :: Layout.unsortedInParents es
termination_by structural es => es
def Layout.unsortedAll : List (Joined Layout) → List (Joined Layout)
  | [] => []
  | ⟨key, n⟩ :: es => ⟨key, n.unsortedChildren.unsorted⟩ :: Layout.unsortedAll es
termination_by structural es => es
end

mutual
/-- The rows query with no order in the groups inside it. -/
def RowsPlan.unsortedGroups : RowsPlan → RowsPlan
  | .rows info parents children =>
    .rows info (RowsPlan.unsortedInParents parents) (Group.unsortedAll children)
termination_by structural q => q
def RowsPlan.unsortedInParents : List RowsPlan → List RowsPlan
  | [] => []
  | q :: qs => q.unsortedGroups :: RowsPlan.unsortedInParents qs
termination_by structural qs => qs
def Group.unsortedAll : List (Group RowsPlan) → List (Group RowsPlan)
  | [] => []
  | ⟨info, rows⟩ :: gs => ⟨{ info with order := [] }, rows.unsortedGroups⟩ :: Group.unsortedAll gs
termination_by structural gs => gs
end

/-- The group in no order, with no order in the groups inside it. -/
def Group.unsorted (g : GroupPlan) : GroupPlan :=
  ⟨{ g.info with order := [] }, g.rows.unsortedGroups⟩

theorem Layout.unsortedChildren_node (info : NodeInfo) (parents children : List (Joined Layout)) :
    (Layout.node info parents children).unsortedChildren =
      .node info (parents.map fun e => ⟨e.key, e.layout.unsortedChildren⟩)
        (children.map fun e => ⟨e.key, e.layout.unsortedChildren.unsorted⟩) := by
  have hparents : unsortedInParents parents =
      parents.map fun e => ⟨e.key, e.layout.unsortedChildren⟩ := by
    induction parents with
    | nil => rfl
    | cons e es ih => rw [unsortedInParents, ih, List.map_cons]
  have hchildren : unsortedAll children =
      children.map fun e => ⟨e.key, e.layout.unsortedChildren.unsorted⟩ := by
    induction children with
    | nil => rfl
    | cons e es ih => rw [unsortedAll, ih, List.map_cons]
  rw [unsortedChildren, hparents, hchildren]

theorem Layout.info_unsortedChildren (n : Layout) : n.unsortedChildren.info = n.info := by
  cases n
  rfl

theorem Layout.relation_unsortedChildren (n : Layout) :
    n.unsortedChildren.relation = n.relation := by
  rw [relation, info_unsortedChildren, relation]

theorem RowsPlan.unsortedGroups_rows (info : RowsInfo) (parents : List RowsPlan)
    (children : List GroupPlan) :
    (RowsPlan.rows info parents children).unsortedGroups =
      .rows info (parents.map RowsPlan.unsortedGroups) (children.map Group.unsorted) := by
  have hparents : RowsPlan.unsortedInParents parents = parents.map RowsPlan.unsortedGroups := by
    induction parents with
    | nil => rfl
    | cons q qs ih => rw [RowsPlan.unsortedInParents, ih, List.map_cons]
  have hchildren : Group.unsortedAll children = children.map Group.unsorted := by
    induction children with
    | nil => rfl
    | cons g gs ih => rw [Group.unsortedAll, ih, List.map_cons, Group.unsorted]
  rw [RowsPlan.unsortedGroups, hparents, hchildren]

/-- The order of a group is in its model under one key, and under no other. -/
theorem GroupInfo.get?_model_order (i : GroupInfo) (order : List SortTerm)
    (rowsQuery key : String) :
    (GroupInfo.model { i with order } rowsQuery).get? key =
      if key = QueryModel.orderByKey then some (.list (orderByTexts i.name order))
      else (i.model rowsQuery).get? key := by
  by_cases h : key = QueryModel.orderByKey
  · rw [if_pos h, h]
    exact (GroupInfo.get?_model { i with order } rowsQuery).2.2.2.1
  · simp [model, h]

/-- The model of the rows query has no order, whatever is embedded in it. -/
def RowsPlan.Unsorted : RowsPlan → Prop
  | .rows info _ _ => ∀ columns parents children,
    (info.model columns parents children).get? QueryModel.orderByKey = some (.list [])

mutual
/-- In the rows query for a layout, embedded rows queries are in no order, and the groups of
embedded children in that of their nodes. -/
inductive Layout.SortsInside : Layout → RowsPlan → Prop
  | node {info : NodeInfo} {parents children : List (Joined Layout)} {i : RowsInfo}
      {qs : List RowsPlan} {gs : List (Group RowsPlan)} :
      List.Forall₂ Layout.SortsParent parents qs → List.Forall₂ Layout.SortsChild children gs →
      Layout.SortsInside (.node info parents children) (.rows i qs gs)
inductive Layout.SortsParent : Joined Layout → RowsPlan → Prop
  | parent {e : Joined Layout} {q : RowsPlan} :
      q.Unsorted → Layout.SortsInside e.layout q → Layout.SortsParent e q
inductive Layout.SortsChild : Joined Layout → Group RowsPlan → Prop
  | child {e : Joined Layout} {g : Group RowsPlan} :
      (∀ rowsQuery, (g.info.model rowsQuery).get? QueryModel.orderByKey =
        some (.list (orderByTexts g.info.name e.layout.info.sortTerms))) →
      g.rows.Unsorted → Layout.SortsInside e.layout g.rows → Layout.SortsChild e g
end

namespace Planner

variable (p : Planner) (name : String) (aliases : Aliases) (ambient : Option String) (n : Layout)
  (filter : Option Filter) (columns : RowColumns)

theorem rows_unsorted :
    p.rows name aliases filter columns ambient false n.unsorted =
      p.rows name aliases filter columns ambient false n := by
  have hshown : n.unsorted.shown .parent = n.shown .parent := by
    cases n
    rfl
  have hplace : false → Place.parent.sorts := nofun
  rw [← p.rows_shown name aliases ambient n.unsorted filter columns hplace, hshown,
    p.rows_shown name aliases ambient n filter columns hplace]

/-- Without the orders of embedded children the plan lacks those of its groups, and nothing else. -/
theorem rows_unsortedChildren (sorted : Bool) :
    p.rows name aliases filter columns ambient sorted n.unsortedChildren =
      (p.rows name aliases filter columns ambient sorted n).unsortedGroups := by
  induction n generalizing name aliases filter columns ambient sorted with
  | node info parents children ihParents ihChildren =>
    rw [Layout.unsortedChildren_node, rows_node, rows_node, RowsPlan.unsortedGroups_rows,
      List.map_map, List.map_map, List.map_map, List.map_map]
    congr 1
    · apply List.map_congr_left
      intro e he
      simp only [Function.comp_apply, parent, Layout.relation_unsortedChildren]
      exact ihParents e he ..
    · apply List.map_congr_left
      intro e he
      have hinfo : e.layout.unsortedChildren.unsorted.info =
          { e.layout.info with order := none } := by
        rw [Layout.unsorted, Layout.info_unsortedChildren]
        rfl
      simp only [Function.comp_apply, child, groupRows, Group.unsorted, Layout.relation, hinfo]
      congr 1
      rw [rows_unsorted]
      exact ihChildren e he ..

theorem unsorted_rows : (p.rows name aliases filter columns ambient false n).Unsorted := by
  cases n
  intro columns parents children
  obtain ⟨-, -, -, -, -, -, -, -, -, horder, -⟩ :=
    RowsInfo.get?_model (p.rowsInfo _ name filter _ ambient false) columns parents children
  exact horder

theorem sortsInside_rows (sorted : Bool) :
    n.SortsInside (p.rows name aliases filter columns ambient sorted n) := by
  induction n generalizing name aliases filter columns ambient sorted with
  | node info parents children ihParents ihChildren =>
    rw [rows_node]
    constructor
    · rw [List.forall₂_map_right_iff, List.forall₂_same]
      intro e he
      exact .parent (p.unsorted_rows ..) (ihParents e he ..)
    · rw [List.forall₂_map_right_iff, List.forall₂_same]
      intro e he
      refine .child (fun rowsQuery => ?_) (p.unsorted_rows ..) (ihChildren e he ..)
      obtain ⟨-, -, -, horder, -⟩ := GroupInfo.get?_model
        (p.child name aliases (info.ns <|> ambient) info.style e).info rowsQuery
      exact horder

end Planner

/-- A rows query is the same for all layouts that show the same. The order of an embedded child is
in that of its group, in every query: no rows query inside is sorted, and without the orders of
embedded children a plan lacks the orders of its groups only, each of which is one entry of a
model. -/
theorem Publisher.hides_attributes (p : Publisher) (name? filter ambient : Option String) :
    (∀ n n' : Layout, n.shown .root = n'.shown .root → ∀ columns,
      p.rows n name? filter columns ambient = p.rows n' name? filter columns ambient) ∧
    (∀ (n : Layout) (columns : RowColumns),
      let q := p.planner.topRows n name? filter columns ambient
      n.SortsInside q ∧
        p.planner.topRows n.unsortedChildren name? filter columns ambient = q.unsortedGroups) ∧
    (∀ (n : Layout) (xmlType : XmlType) (style : CollectionStyle),
      let g := p.planner.topGroup n name? filter xmlType ambient style
      n.SortsInside g.rows ∧
        p.planner.topGroup n.unsortedChildren name? filter xmlType ambient style =
          ⟨g.info, g.rows.unsortedGroups⟩) ∧
    ∀ (i : GroupInfo) (order : List SortTerm) (rowsQuery key : String),
      (GroupInfo.model { i with order } rowsQuery).get? key =
        if key = QueryModel.orderByKey then some (.list (orderByTexts i.name order))
        else (i.model rowsQuery).get? key := by
  refine ⟨fun n n' h columns => ?_, fun n columns => ⟨?_, ?_⟩, fun n xmlType style => ⟨?_, ?_⟩,
    GroupInfo.get?_model_order⟩
  · rw [rows, rows, ← p.planner.topRows_shown ambient n, h, p.planner.topRows_shown]
  · exact p.planner.sortsInside_rows ..
  · rw [Planner.topRows, Layout.relation_unsortedChildren]
    exact p.planner.rows_unsortedChildren ..
  · exact p.planner.sortsInside_rows ..
  · rw [Planner.topGroup, Layout.relation_unsortedChildren, Layout.info_unsortedChildren]
    simp only [Planner.rows_unsortedChildren]
    rfl

namespace Staff

/-- An employee with the boss, and with those who report to the employee directly in each row. -/
def inlineTeam : Layout :=
  .node { withBoss.info with style := .inline } withBoss.parents [⟨bossKey, withBoss⟩]

/-- Sorted bosses, other names of collections, and other styles where there are no children. -/
def disguised : Layout :=
  let boss : Layout := .leaf { alone.info with
    order := some ⟨[⟨"id", .desc⟩]⟩, collectionName := "bosses", style := .inline }
  .node { inlineTeam.info with collectionName := "all" } [⟨bossKey, boss⟩]
    [⟨bossKey, .node { withBoss.info with collectionName := "reports", style := .inline }
      [⟨bossKey, boss⟩] []⟩]

theorem disguised_rows_eq :
    inlineTeam.shown .root = disguised.shown .root ∧
      ∀ columns, publisher.rows inlineTeam (some "x") (some "x.id = 1") columns none =
        publisher.rows disguised (some "x") (some "x.id = 1") columns none := by
  have hshown : inlineTeam.shown .root = disguised.shown .root := rfl
  obtain ⟨hrows, -⟩ := publisher.hides_attributes (some "x") (some "x.id = 1") none
  exact ⟨hshown, hrows inlineTeam disguised hshown⟩

end Staff

end XmlPublishing

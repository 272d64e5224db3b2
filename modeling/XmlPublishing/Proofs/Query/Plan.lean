import XmlPublishing.Proofs.Layout.Built
import XmlPublishing.Query.Publisher

/-!
Query plans as trees, and what the planner makes of each embedded layout.

The planner treats embedded layouts one by one, each with the aliases of the place where it stands
(`Planner.parents_eq_map`, `Planner.children_eq_map`).
-/

namespace XmlPublishing

/-- What holds of a rows query if it holds of all rows queries inside it holds of all plans. -/
@[elab_as_elim, induction_eliminator]
theorem RowsPlan.induction {motive : RowsPlan → Prop}
    (rows : ∀ info parents children, (∀ q ∈ parents, motive q) →
      (∀ g ∈ children, motive g.rows) → motive (.rows info parents children))
    (q : RowsPlan) : motive q :=
  @RowsPlan.rec motive (fun qs => ∀ q ∈ qs, motive q) (fun gs => ∀ g ∈ gs, motive g.rows)
    (fun g => motive g.rows) rows
    (fun _ h => nomatch h) (fun _ _ head tail => List.forall_mem_cons.2 ⟨head, tail⟩)
    (fun _ h => nomatch h) (fun _ _ head tail => List.forall_mem_cons.2 ⟨head, tail⟩)
    (fun _ _ h => h) q

/-- What a rows query says of its own relation. -/
def RowsPlan.info : RowsPlan → RowsInfo
  | .rows info _ _ => info

namespace Planner

variable (p : Planner) (name : String) (aliases : Aliases) (ambient : Option String)

/-- The rows query of one embedded parent, in rows with the alias `name`. -/
def parent (e : Joined Layout) : RowsPlan :=
  let (parent, nested) := aliases.introduce e.layout.relation
  p.rows parent nested (some (.join ⟨name, parent, e.key.pairs, p.childOnLeft⟩)) .xmlOnly ambient
    false e.layout

/-- The rows query inside the group of a layout, which has one more alias than the group. -/
def groupRows (n : Layout) (style : CollectionStyle) : RowsPlan :=
  let (relation, nested) := aliases.introduce n.relation
  p.rows relation nested none ⟨.all, .xml⟩ (rowsAmbient n.info ambient style) false n

/-- The group of one embedded child, in rows with the alias `name`. -/
def child (style : CollectionStyle) (e : Joined Layout) : GroupPlan :=
  let (child, outer) := aliases.introduce e.layout.relation
  ⟨groupInfo e.layout.info child (some (.join ⟨child, name, e.key.pairs, p.childOnLeft⟩)) .xml
    ambient style, p.groupRows outer ambient e.layout style⟩

theorem parents_eq_map (es : List (Joined Layout)) :
    p.parents name aliases ambient es = es.map (p.parent name aliases ambient) := by
  induction es with
  | nil => rfl
  | cons e es ih => rw [List.map_cons, ← ih]; rfl

theorem children_eq_map (style : CollectionStyle) (es : List (Joined Layout)) :
    p.children name aliases ambient style es = es.map (p.child name aliases ambient style) := by
  induction es with
  | nil => rfl
  | cons e es ih => rw [List.map_cons, ← ih]; rfl

theorem rows_node (filter : Option Filter) (columns : RowColumns) (sorted : Bool)
    (info : NodeInfo) (parents children : List (Joined Layout)) :
    p.rows name aliases filter columns ambient sorted (.node info parents children) =
      .rows (p.rowsInfo info name filter columns ambient sorted)
        (parents.map (p.parent name aliases (info.ns <|> ambient)))
        (children.map (p.child name aliases (info.ns <|> ambient) info.style)) := by
  rw [rows, parents_eq_map, children_eq_map]

theorem info_rows (filter : Option Filter) (columns : RowColumns) (sorted : Bool) (n : Layout) :
    (p.rows name aliases filter columns ambient sorted n).info =
      p.rowsInfo n.info name filter columns ambient sorted := by
  cases n
  rfl

theorem topGroup_eq (n : Layout) (name? filter : Option String) (xmlType : XmlType)
    (style : CollectionStyle) :
    p.topGroup n name? filter xmlType ambient style =
      let (name, outer) := Aliases.empty.introduceAs name? n.relation
      ⟨groupInfo n.info name (filter.map .condition) xmlType ambient style,
        p.groupRows outer ambient n style⟩ := rfl

variable {p}

theorem exists_columns {i : NodeInfo} (hi : i.FitsIn p.schema) (which : PlainColumns) :
    ∃ columns, p.columns i which = some columns ∧
      ∀ c ∈ columns, p.schema.HasField i.relation c := by
  cases which with
  | omitted => exact ⟨[], rfl, nofun⟩
  | included => exact ⟨i.fields, rfl, hi.fields⟩
  | all =>
    obtain ⟨fields, hfields⟩ := Schema.contains_iff.1 hi.registered
    refine ⟨fields.map (·.name), by rw [columns, hfields]; rfl, fun c hc => ?_⟩
    obtain ⟨f, hf, rfl⟩ := List.mem_map.1 hc
    exact (Schema.hasField_iff hfields).2 (findField?_isSome_of_mem hf)

end Planner

/-- Standard queries over the employees. -/
def Staff.publisher : Publisher := ⟨schema, SqlXml.backend 2, {}⟩

end XmlPublishing

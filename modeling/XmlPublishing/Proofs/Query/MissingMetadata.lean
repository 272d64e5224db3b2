import XmlPublishing.Proofs.Query.Calls
import XmlPublishing.Proofs.Query.StandardText

/-!
What a standard query needs to know of the schema.

A query asks for the fields of a relation where it selects all of them: at the root, as its caller
wants, and at every embedded child, but not at embedded parents (`Layout.needed`). For any layout
and any schema, related or not, these are all that decide whether there is a text
(`Publisher.decided_by_metadata`): the first relation that is not registered is reported, and no
model is ever handed to the standard backend that it cannot read.
-/

namespace XmlPublishing

mutual
/-- The relations whose fields a query for the layout has to know, in the order in which it asks for
them: that of the root if `all` its fields are selected, then those inside its parents, then those
inside its children. -/
def Layout.needed (all : Bool) : Layout → List RelationId
  | .node info parents children =>
    (if all then [info.relation] else []) ++
      (Layout.neededByAll false parents ++ Layout.neededByAll true children)
termination_by structural n => n
def Layout.neededByAll (all : Bool) : List (Joined Layout) → List RelationId
  | [] => []
  | ⟨_, n⟩ :: es => n.needed all ++ Layout.neededByAll all es
termination_by structural es => es
end

theorem Layout.needed_node (all : Bool) (info : NodeInfo)
    (parents children : List (Joined Layout)) :
    (Layout.node info parents children).needed all =
      (if all then [info.relation] else []) ++
        (parents.flatMap (·.layout.needed false) ++ children.flatMap (·.layout.needed true)) := by
  have h (all : Bool) (es : List (Joined Layout)) :
      neededByAll all es = es.flatMap (·.layout.needed all) := by
    induction es with
    | nil => rfl
    | cons e es ih => rw [neededByAll, ih, List.flatMap_cons]
  rw [needed, h, h]

namespace Planner

variable (p : Planner)

theorem unknown_root (i : NodeInfo) (which : PlainColumns) :
    (if (p.columns i which).isSome then [] else [i.relation]) =
      (if decide (which = .all) then [i.relation] else []).filter
        fun r => !p.schema.contains r := by
  cases which with
  | omitted | included => rfl
  | all =>
    have hknown : (p.columns i .all).isSome = p.schema.contains i.relation := by
      simp [columns, Schema.fields?, Schema.contains]
    rw [hknown]
    cases h : p.schema.contains i.relation <;> simp [h]

/-- A plan lacks columns just where the schema lacks a relation that the layout needs. -/
theorem unknown_rows (n : Layout) (name : String) (aliases : Aliases) (filter : Option Filter)
    (columns : RowColumns) (ambient : Option String) (sorted : Bool) :
    (p.rows name aliases filter columns ambient sorted n).unknown =
      (n.needed (columns.plain = .all)).filter fun r => !p.schema.contains r := by
  induction n generalizing name aliases filter columns ambient sorted with
  | node info parents children ihParents ihChildren =>
    rw [rows_node, RowsPlan.unknown_rows, Layout.needed_node, List.filter_append,
      List.filter_append, List.filter_flatMap, List.filter_flatMap, List.flatMap_map,
      List.flatMap_map]
    congr 1
    · exact p.unknown_root info columns.plain
    congr 1
    · apply List.flatMap_congr
      intro e he
      exact ihParents e he ..
    · apply List.flatMap_congr
      intro e he
      exact ihChildren e he ..

end Planner

/-- Where the schema lacks one of the `needed` relations, the first of these is the result.
Otherwise there is a text. -/
structure Schema.Decides (s : Schema) (needed : List RelationId)
    (result : Except PublishError String) : Prop where
  ok_iff : (∃ text, result = .ok text) ↔ ∀ r ∈ needed, s.contains r
  error : ∀ e, result = .error e →
    ∃ r, needed.find? (fun r => !s.contains r) = some r ∧ e = .unknownRelation r

theorem Schema.decides_unlessUnknown (s : Schema) (needed : List RelationId) (text : String) :
    s.Decides needed (unlessUnknown (needed.filter fun r => !s.contains r) text) := by
  have hhead := List.head?_filter (p := fun r => !s.contains r) (l := needed)
  cases h : needed.filter fun r => !s.contains r with
  | nil =>
    have hknown : ∀ r ∈ needed, s.contains r := by simpa [List.filter_eq_nil_iff] using h
    exact ⟨⟨fun _ => hknown, fun _ => ⟨text, rfl⟩⟩, nofun⟩
  | cons r rs =>
    rw [h, List.head?_cons] at hhead
    have hlacks : ¬ s.contains r := by simpa using List.find?_some hhead.symm
    refine ⟨⟨nofun, fun hknown => ?_⟩, fun e he => ⟨r, hhead.symm, ?_⟩⟩
    · exact absurd (hknown r (List.mem_of_find?_eq_some hhead.symm)) hlacks
    · exact (Except.error.inj he).symm

/-- The standard backend finds all that it reads in the model of a call, in the kinds that it
expects for the shape of the query. -/
def SqlXml.Reads : Call → Prop
  | (.rows, m) => ∃ q, RowsParts.ofModel m = .ok q
  | (.collection, m) => ∃ q, GroupParts.ofModel true m = .ok q
  | (.forest, m) => ∃ q, GroupParts.ofModel false m = .ok q

theorem SqlXml.reads_models : HoldsOfModels SqlXml.Reads where
  rows i columns parents children := ⟨_, RowsParts.ofModel_model i columns parents children⟩
  group i rowsQuery := by
    have h := GroupParts.ofModel_model i rowsQuery
    rw [GroupInfo.shape]
    cases hw : i.wrapper.isSome with
    | false => exact ⟨_, hw ▸ h⟩
    | true => exact ⟨_, hw ▸ h⟩

/-- A standard query has a text if all relations are registered whose fields it selects as the
schema has them, and reports the first other one; the backend can read all models that it is called
with, also those before an error. -/
theorem Publisher.decided_by_metadata (s : Schema) (indent : Nat) (options : QueryOptions)
    (n : Layout) (name? filter ambient : Option String) :
    let p : Publisher := ⟨s, SqlXml.backend indent, options⟩
    (∀ columns,
      let result := p.rows n name? filter columns ambient
      s.Decides (n.needed (columns.plain = .all)) result ∧
        Records SqlXml.Reads
          ((p.planner.topRows n name? filter columns ambient).text p.renderRecorded) result) ∧
    (∀ xmlType,
      let result := p.collection n name? filter xmlType ambient
      s.Decides (n.needed true) result ∧
        Records SqlXml.Reads
          ((p.planner.topGroup n name? filter xmlType ambient .wrapped).text p.renderRecorded)
          result) ∧
    let result := p.forest n name? filter ambient
    s.Decides (n.needed true) result ∧
      Records SqlXml.Reads
        ((p.planner.topGroup n name? filter .xml ambient .inline).text p.renderRecorded)
        result := by
  intro p
  have hp : p.backend = SqlXml.backend indent := rfl
  have hgroup (xmlType : XmlType) (style : CollectionStyle) :
      s.Decides (n.needed true)
        ((p.planner.topGroup n name? filter xmlType ambient style).text p.render) := by
    rw [Group.text_eq_sql hp, Planner.topGroup_eq]
    dsimp only [Planner.groupRows]
    rw [Planner.unknown_rows]
    exact s.decides_unlessUnknown ..
  refine ⟨fun columns => ⟨?_, ?_⟩, fun xmlType => ⟨hgroup .., ?_⟩, hgroup .., ?_⟩
  · rw [rows, RowsPlan.text_eq_sql hp, Planner.topRows, Planner.unknown_rows]
    exact s.decides_unlessUnknown ..
  · exact RowsPlan.records_text SqlXml.reads_models p _
  · exact Group.records_text SqlXml.reads_models p _
  · exact Group.records_text SqlXml.reads_models p _

end XmlPublishing

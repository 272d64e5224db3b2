import XmlPublishing.Proofs.Query.Rendering
import XmlPublishing.Proofs.Xsd.UnknownNames

/-!
Layouts built over a schema can be published over it: every shape of query has a text, with any
choice of columns, aliases, filters and namespaces, and so has the schema document
(`Publisher.exists_texts`).

What could go wrong is a relation that is not registered, an unknown field, or a model that the
backend cannot read. The first two do not fit the schema, and the standard backend reads every
model of a plan.
-/

namespace XmlPublishing

/-- Every model of a plan can be rendered. -/
structure RendersAll (render : QueryShape → QueryModel → Except PublishError String) : Prop where
  rows : ∀ (i : RowsInfo) (columns parents children : List String),
    ∃ t, render .rows (i.model columns parents children) = .ok t
  group : ∀ (i : GroupInfo) (rowsQuery : String), ∃ t, render i.shape (i.model rowsQuery) = .ok t

theorem SqlXml.rendersAll {p : Publisher} {indent : Nat} (hp : p.backend = backend indent) :
    RendersAll p.render where
  rows i columns parents children := ⟨_, Publisher.render_rows hp i columns parents children⟩
  group i rowsQuery := ⟨_, Publisher.render_group hp i rowsQuery⟩

namespace RendersAll

variable {render : QueryShape → QueryModel → Except PublishError String} {p : Planner} {n : Layout}

theorem group_text (h : RendersAll render) {g : GroupPlan}
    (hg : ∃ t, g.rows.text render = .ok t) : ∃ t, g.text render = .ok t := by
  obtain ⟨rowsQuery, hrows⟩ := hg
  obtain ⟨t, ht⟩ := h.group g.info rowsQuery
  exact ⟨t, Group.text_eq_ok.2 ⟨rowsQuery, hrows, ht⟩⟩

theorem rows_text (h : RendersAll render) (hn : n.FitsIn p.schema) (name : String)
    (aliases : Aliases) (filter : Option Filter) (columns : RowColumns) (ambient : Option String)
    (sorted : Bool) :
    ∃ t, (p.rows name aliases filter columns ambient sorted n).text render = .ok t := by
  induction n generalizing name aliases filter columns ambient sorted with
  | node info parents children ihParents ihChildren =>
    obtain ⟨known, hknown, -⟩ := Planner.exists_columns hn.info columns.plain
    have hparents : ∀ q ∈ parents.map (p.parent name aliases (info.ns <|> ambient)),
        ∃ t, q.text render = .ok t := by
      intro q hq
      obtain ⟨e, he, rfl⟩ := List.mem_map.1 hq
      exact ihParents e he (hn.parents e he).2 ..
    have hchildren : ∀ g ∈ children.map (p.child name aliases (info.ns <|> ambient) info.style),
        ∃ t, g.text render = .ok t := by
      intro g hg
      obtain ⟨e, he, rfl⟩ := List.mem_map.1 hg
      exact h.group_text (ihChildren e he (hn.children e he).2 ..)
    obtain ⟨ps, hps⟩ := exists_mapM_eq_ok hparents
    obtain ⟨cs, hcs⟩ := exists_mapM_eq_ok hchildren
    obtain ⟨t, ht⟩ := h.rows (p.rowsInfo info name filter columns ambient sorted) known ps cs
    rw [Planner.rows_node]
    exact ⟨t, RowsPlan.text_eq_ok.2
      ⟨known, ps, cs, hknown, mapM_eq_ok.1 hps, mapM_eq_ok.1 hcs, ht⟩⟩

end RendersAll

/-- Queries and schema documents for a layout built over a schema never fail. -/
theorem Publisher.exists_texts {s : Schema} {n : Layout} (hn : n.BuiltOver s)
    (options : QueryOptions) (name? filter ambient : Option String) :
    ∃ p, Publisher.ofSchema? (some s) none options = .ok p ∧
      (∀ columns, ∃ t, p.rows n name? filter columns ambient = .ok t) ∧
      (∀ xmlType, ∃ t, p.collection n name? filter xmlType ambient = .ok t) ∧
      (∃ t, p.forest n name? filter ambient = .ok t) ∧
      ∀ o, ∃ t, Xsd.text s o n = .ok t := by
  let p : Publisher := ⟨s, SqlXml.backend options.indent, options⟩
  have hfits : n.FitsIn p.planner.schema := hn.fitsIn
  have hrender : RendersAll p.render := SqlXml.rendersAll rfl
  refine ⟨p, rfl, ?_, ?_, ?_, ?_⟩
  · intro columns
    exact hrender.rows_text hfits ..
  · intro xmlType
    exact hrender.group_text (hrender.rows_text hfits ..)
  · exact hrender.group_text (hrender.rows_text hfits ..)
  · intro o
    obtain ⟨doc, hdoc⟩ := Xsd.exists_ofLayout_eq_ok hn.fitsIn o
    exact ⟨doc.text o.indent, map_eq_ok.2 ⟨doc, hdoc, rfl⟩⟩

theorem Staff.exists_texts_team :
    team.BuiltOver schema ∧ ∃ p, Publisher.ofSchema? (some schema) none {} = .ok p ∧
      (∃ t, p.rows team (some "e") none ⟨.all, .largeChar⟩ none = .ok t) ∧
      ∃ t, Xsd.text schema {} team = .ok t := by
  obtain ⟨p, hp, hrows, -, -, hxsd⟩ :=
    Publisher.exists_texts team_builtOver {} (some "e") none none
  exact ⟨team_builtOver, p, hp, hrows _, hxsd _⟩

end XmlPublishing

import XmlPublishing.Proofs.Layout.Requests
import XmlPublishing.Proofs.Query.Aliases
import XmlPublishing.Proofs.Query.Rendering

/-!
One more embedded relation in a query.

The text of an embedded relation is made with the aliases of the rows around it, whatever stands
next to it (`Publisher.fragment`). So the model of a rows query with one more embedded relation is
the model without it and one more text at the end of one list (`Publisher.exists_model_of_add`).
Nodes with the same relation, namespace and style get the same text for the same request
(`Publisher.rowsModel_embed`).
-/

namespace XmlPublishing

open QueryModel

/-- The entry of a rows model with the texts of what is embedded on that side. -/
def EmbedSide.fragmentsKey : EmbedSide → String
  | .child => childFragmentsKey
  | .parent => parentFragmentsKey

/-- The texts of either side can be replaced in the model of a rows query. -/
theorem RowsInfo.insert_fragments (i : RowsInfo) (columns ps ps' cs cs' : List String) :
    (i.model columns ps cs).insert childFragmentsKey (.list cs') = i.model columns ps cs' ∧
      (i.model columns ps cs).insert parentFragmentsKey (.list ps') = i.model columns ps' cs := by
  cases hdeclares : i.declares <;> cases hfilter : i.filter <;>
    simp [model, hdeclares, hfilter, QueryModel.insert, insertEntry, insert?, QueryModel.empty,
      relationKey, aliasKey, selectFieldsKey, xmlFieldsKey, rowElementNameKey, namespaceKey,
      parentFragmentsKey, childFragmentsKey, filterKey, orderByKey, largeCharOutputKey,
      resultColumnKey]

theorem selectKey_unique {candidates : List ForeignKey} {fields : Option FieldSet}
    {a b a' b' : RelationId} {k k' : ForeignKey} (h : selectKey candidates fields a b = .ok k)
    (h' : selectKey candidates fields a' b' = .ok k') : k = k' :=
  List.singleton_inj.1 ((selectKey_eq_ok.1 h).symm.trans (selectKey_eq_ok.1 h'))

/-- Nodes with the same relation and style are joined to the same layout, by the same key. -/
theorem Layout.Adds.unique {d : Defaults} {i i' : NodeInfo} {r : EmbedRequest}
    {e e' : Joined Layout} (h : Adds d i r e) (h' : Adds d i' r e')
    (hrelation : i.relation == i'.relation) (hstyle : i.style = i'.style) : e = e' := by
  obtain ⟨key, layout⟩ := e
  obtain ⟨key', layout'⟩ := e'
  cases h with
  | child _ hkey hlayout =>
    cases h' with
    | child _ hkey' hlayout' =>
      rw [Schema.keysBetween_congr BEq.rfl hrelation] at hkey
      obtain rfl : key = key' := selectKey_unique hkey hkey'
      rw [hstyle] at hlayout
      exact congrArg _ (Except.ok.inj (hlayout.symm.trans hlayout'))
  | parent _ hkey hlayout =>
    cases h' with
    | parent _ hkey' hlayout' =>
      rw [Schema.keysBetween_congr hrelation BEq.rfl] at hkey
      obtain rfl : key = key' := selectKey_unique hkey hkey'
      rw [hstyle] at hlayout
      exact congrArg _ (Except.ok.inj (hlayout.symm.trans hlayout'))

theorem RowsPlan.model_eq_ok {render : QueryShape → QueryModel → Except PublishError String}
    {info : RowsInfo} {parents : List RowsPlan} {children : List GroupPlan} {m : QueryModel} :
    (RowsPlan.rows info parents children).model render = .ok m ↔
      ∃ columns ps cs, info.columns = some columns ∧
        List.Forall₂ (fun q t => q.text render = .ok t) parents ps ∧
        List.Forall₂ (fun g t => g.text render = .ok t) children cs ∧
        m = info.model columns ps cs := by
  rw [RowsPlan.model_rows]
  simp only [bind_eq_ok, RowsInfo.knownColumns_eq_ok, mapM_eq_ok, pure_eq_ok, exists_and_left]

namespace Publisher

/-- The text of what is embedded on the given side of rows with the alias `name`. -/
def fragment (p : Publisher) (name : String) (aliases : Aliases) (ambient : Option String)
    (style : CollectionStyle) (e : Joined Layout) : EmbedSide → Except PublishError String
  | .child => (p.planner.child name aliases ambient style e).text p.render
  | .parent => (p.planner.parent name aliases ambient e).text p.render

variable {p : Publisher} {name : String} {aliases : Aliases} {filter : Option Filter}
  {columns : RowColumns} {ambient : Option String} {sorted : Bool} {n : Layout} {e : Joined Layout}
  {m' : QueryModel}

/-- With one more relation embedded, the model has one more text. -/
theorem exists_model_of_add {side : EmbedSide}
    (h : (p.planner.rows name aliases filter columns ambient sorted (n.add e side)).model p.render =
      .ok m') :
    ∃ text, p.fragment name aliases (n.ns <|> ambient) n.style e side = .ok text ∧ ∃ m texts,
      (p.planner.rows name aliases filter columns ambient sorted n).model p.render = .ok m ∧
      m.get? side.fragmentsKey = some (.list texts) ∧
      m' = m.insert side.fragmentsKey (.list (texts ++ [text])) := by
  obtain ⟨info, parents, children⟩ := n
  let i := p.planner.rowsInfo info name filter columns ambient sorted
  cases side with
  | child =>
    have hadd : (Layout.node info parents children).add e .child =
        .node info parents (children ++ [e]) := rfl
    rw [hadd, Planner.rows_node, List.map_append, List.map_singleton, RowsPlan.model_eq_ok] at h
    obtain ⟨known, ps, ts, hknown, hps, hts, rfl⟩ := h
    obtain ⟨cs, text, rfl, hcs, htext⟩ := forall₂_concat_left.1 hts
    obtain ⟨hinsert, -⟩ := i.insert_fragments known ps ps cs (cs ++ [text])
    refine ⟨text, htext, i.model known ps cs, cs, ?_, ?_, hinsert.symm⟩
    · rw [Planner.rows_node, RowsPlan.model_eq_ok]
      exact ⟨known, ps, cs, hknown, hps, hcs, rfl⟩
    · obtain ⟨-, -, -, -, -, -, -, hfragments, -⟩ := i.get?_model known ps cs
      exact hfragments
  | parent =>
    have hadd : (Layout.node info parents children).add e .parent =
        .node info (parents ++ [e]) children := rfl
    rw [hadd, Planner.rows_node, List.map_append, List.map_singleton, RowsPlan.model_eq_ok] at h
    obtain ⟨known, ts, cs, hknown, hts, hcs, rfl⟩ := h
    obtain ⟨ps, text, rfl, hps, htext⟩ := forall₂_concat_left.1 hts
    obtain ⟨-, hinsert⟩ := i.insert_fragments known ps (ps ++ [text]) cs cs
    refine ⟨text, htext, i.model known ps cs, ps, ?_, ?_, hinsert.symm⟩
    · rw [Planner.rows_node, RowsPlan.model_eq_ok]
      exact ⟨known, ps, cs, hknown, hps, hcs, rfl⟩
    · obtain ⟨-, -, -, -, -, -, hfragments, -, -⟩ := i.get?_model known ps cs
      exact hfragments

/-- `text` is what the request adds to the rows query of nodes with the given relation, namespace
and style. -/
def AddsText (p : Publisher) (d : Defaults) (r : EmbedRequest) (name? ambient : Option String)
    (relation : RelationId) (ns : Option String) (style : CollectionStyle) (text : String) : Prop :=
  let top := Aliases.empty.introduceAs name? relation
  ∃ i e, i.relation == relation ∧ i.style = style ∧ Layout.Adds d i r e ∧
    p.fragment top.1 top.2 (ns <|> ambient) style e r.side = .ok text

theorem AddsText.unique {d : Defaults} {r : EmbedRequest} {name? : Option String}
    {relation : RelationId} {ns : Option String} {style : CollectionStyle} {text text' : String}
    (h : p.AddsText d r name? ambient relation ns style text)
    (h' : p.AddsText d r name? ambient relation ns style text') : text = text' := by
  obtain ⟨i, e, hrelation, hstyle, hadds, htext⟩ := h
  obtain ⟨i', e', hrelation', hstyle', hadds', htext'⟩ := h'
  obtain rfl : e = e' :=
    hadds.unique hadds' (BEq.trans hrelation (BEq.symm hrelation')) (hstyle.trans hstyle'.symm)
  exact Except.ok.inj (htext.symm.trans htext')

/-- Where a rows query succeeds with one more relation embedded, it succeeds without it, and the two
models differ in one text, at the end of those for the side of the request. That text is the same
for all nodes with the same relation, namespace and style. -/
theorem rowsModel_embed (p : Publisher) (d : Defaults) (r : EmbedRequest)
    (name? ambient : Option String) (relation : RelationId) (ns : Option String)
    (style : CollectionStyle) :
    ∃ text, ∀ (n n' : Layout) (filter : Option String) (columns : RowColumns) (m' : QueryModel),
      n.relation == relation → n.ns = ns → n.style = style → n.embed d r = .ok n' →
      p.rowsModel n' name? filter columns ambient = .ok m' →
      ∃ m texts, p.rowsModel n name? filter columns ambient = .ok m ∧
        m.get? r.side.fragmentsKey = some (.list texts) ∧
        m' = m.insert r.side.fragmentsKey (.list (texts ++ [text])) := by
  obtain ⟨text, hunique⟩ :
      ∃ text, ∀ t, p.AddsText d r name? ambient relation ns style t → t = text := by
    by_cases h : ∃ t, p.AddsText d r name? ambient relation ns style t
    · obtain ⟨text, htext⟩ := h
      exact ⟨text, fun t ht => ht.unique htext⟩
    · exact ⟨"", fun t ht => absurd ⟨t, ht⟩ h⟩
  refine ⟨text, fun n n' filter columns m' hrelation hns hstyle hn' hm' => ?_⟩
  obtain ⟨e, hadds, rfl, -⟩ := Layout.embed_eq_ok.1 hn'
  have hname : (n.add e r.side).relation = n.relation :=
    congrArg NodeInfo.relation (n.info_add e r.side)
  let top := Aliases.empty.introduceAs name? n.relation
  have htop : (p.planner.rows top.1 top.2 (filter.map .condition) columns ambient true
      (n.add e r.side)).model p.render = .ok m' := by
    rw [rowsModel, Planner.topRows, hname] at hm'
    exact hm'
  obtain ⟨t, ht, m, texts, hm, hmodels⟩ := exists_model_of_add htop
  have hadded : p.AddsText d r name? ambient relation ns style t := by
    rw [AddsText, ← Aliases.introduceAs_congr _ _ hrelation, ← hns, ← hstyle]
    exact ⟨n.info, e, hrelation, rfl, hadds, ht⟩
  obtain rfl : t = text := hunique t hadded
  exact ⟨m, texts, hm, hmodels⟩

end Publisher

namespace Staff

/-- An employee with those who report to the employee. -/
def withReports : Layout := alone.addChild ⟨bossKey, alone⟩

def bossAndReports : Layout := withReports.addParent ⟨bossKey, alone⟩

/-- The boss adds the same text with and without those who report to the employee next to it. -/
theorem text_of_boss :
    ∃ text,
      (∃ m texts, publisher.rowsModel alone none none .xmlOnly none = .ok m ∧
        publisher.rowsModel withBoss none none .xmlOnly none =
          .ok (m.insert parentFragmentsKey (.list (texts ++ [text])))) ∧
      ∃ m texts, publisher.rowsModel withReports none (some "e.id = 1") ⟨.all, .xml⟩ none = .ok m ∧
        publisher.rowsModel bossAndReports none (some "e.id = 1") ⟨.all, .xml⟩ none =
          .ok (m.insert parentFragmentsKey (.list (texts ++ [text]))) := by
  obtain ⟨text, htext⟩ :=
    publisher.rowsModel_embed defaults wantsBoss none none employee none .wrapped
  refine ⟨text, ?_, ?_⟩
  · obtain ⟨m', hm'⟩ : ∃ m', publisher.rowsModel withBoss none none .xmlOnly none = .ok m' :=
      ⟨_, rfl⟩
    obtain ⟨m, texts, hm, -, rfl⟩ := htext alone withBoss none .xmlOnly m' rfl rfl rfl rfl hm'
    exact ⟨m, texts, hm, hm'⟩
  · obtain ⟨m', hm'⟩ : ∃ m', publisher.rowsModel bossAndReports none (some "e.id = 1")
        ⟨.all, .xml⟩ none = .ok m' := ⟨_, rfl⟩
    obtain ⟨m, texts, hm, -, rfl⟩ :=
      htext withReports bossAndReports (some "e.id = 1") ⟨.all, .xml⟩ m' rfl rfl rfl rfl hm'
    exact ⟨m, texts, hm, hm'⟩

end Staff

end XmlPublishing

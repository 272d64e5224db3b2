import XmlPublishing.Proofs.Query.Correlation
import XmlPublishing.Proofs.Query.InStep

/-!
The other side of a key on the left.

Options say which side of a key stands on the left in the conditions of embedded queries. With the
other choice (`Publisher.swapSides`) the backend is asked for the same queries in the same order.
Their models have the same entries, but the comparisons have their sides swapped, and for the texts
of embedded queries stand those that the backend gives for models that differ in the same way
(`QueryModel.Alike`, `TextSwapped`, `CallSwapped`).
-/

namespace XmlPublishing

/-- The publisher with the other side of keys on the left. -/
def Publisher.swapSides (p : Publisher) : Publisher :=
  { p with options := { p.options with childSideOnLeft := !p.options.childSideOnLeft } }

/-- The entries whose values may differ: the condition, and the texts of embedded queries. -/
def QueryModel.variableKeys : List String :=
  [filterKey, parentFragmentsKey, childFragmentsKey, rowsQueryKey]

/-- The entries of two models are alike if conditions are related by `F` and texts of embedded
queries by `T`; all others are equal. -/
inductive EntryAlike (F T : String → String → Prop) :
    String × ModelValue → String × ModelValue → Prop
  | same {key : String} (v : ModelValue) :
      key ∉ QueryModel.variableKeys → EntryAlike F T (key, v) (key, v)
  | filter {f f' : String} :
      F f f' → EntryAlike F T (QueryModel.filterKey, .text f) (QueryModel.filterKey, .text f')
  | parents {ts ts' : List String} :
      List.Forall₂ T ts ts' →
      EntryAlike F T (QueryModel.parentFragmentsKey, .list ts)
        (QueryModel.parentFragmentsKey, .list ts')
  | children {ts ts' : List String} :
      List.Forall₂ T ts ts' →
      EntryAlike F T (QueryModel.childFragmentsKey, .list ts)
        (QueryModel.childFragmentsKey, .list ts')
  | rowsQuery {t t' : String} :
      T t t' → EntryAlike F T (QueryModel.rowsQueryKey, .text t) (QueryModel.rowsQueryKey, .text t')

/-- The two models have alike entries, in the same order. -/
def QueryModel.Alike (F T : String → String → Prop) (m m' : QueryModel) : Prop :=
  List.Forall₂ (EntryAlike F T) m.entries m'.entries

/-- Neither query has a filter, or their conditions are related by `F`. -/
abbrev FiltersAlike (F : String → String → Prop) : Option Filter → Option Filter → Prop :=
  Option.Rel fun f f' => F f.text f'.text

/-- The second condition is the first with the sides of every comparison swapped. -/
def ConditionSwapped (f f' : String) : Prop :=
  ∃ cs, f = conjunction cs ∧ f' = conjunction (cs.map .swap)

/-- The texts are given for models that are alike but for the sides of comparisons in conditions,
in the models themselves and in those behind the texts of embedded queries. -/
inductive TextSwapped (render : QueryShape → QueryModel → Except PublishError String) :
    String → String → Prop
  | rendered {shape : QueryShape} {m m' : QueryModel} {t t' : String} :
      List.Forall₂ (EntryAlike ConditionSwapped (TextSwapped render)) m.entries m'.entries →
      render shape m = .ok t → render shape m' = .ok t' → TextSwapped render t t'

/-- The calls are for queries of one shape, with models that are alike but for the sides of
comparisons. -/
def CallSwapped (render : QueryShape → QueryModel → Except PublishError String) (c c' : Call) :
    Prop :=
  c.1 = c'.1 ∧ c.2.Alike ConditionSwapped (TextSwapped render) c'.2

theorem ForeignKey.conditionSwapped (k : ForeignKey) (childOnLeft : Bool) (child parent : String) :
    ConditionSwapped (k.condition childOnLeft child parent)
      (k.condition (!childOnLeft) child parent) := by
  cases childOnLeft with
  | true => exact ⟨k.comparisons child parent, rfl, rfl⟩
  | false =>
    refine ⟨(k.comparisons child parent).map .swap, rfl, ?_⟩
    rw [List.map_map, show Comparison.swap ∘ Comparison.swap = id from rfl, List.map_id]
    rfl

/-! ## Models -/

variable {F T : String → String → Prop}

theorem EntryAlike.key_eq {e e' : String × ModelValue} (h : EntryAlike F T e e') : e.1 = e'.1 := by
  cases h <;> rfl

namespace QueryModel

theorem insertEntry_alike {es es' : List (String × ModelValue)} {key : String} {v v' : ModelValue}
    (h : List.Forall₂ (EntryAlike F T) es es') (hv : EntryAlike F T (key, v) (key, v')) :
    List.Forall₂ (EntryAlike F T) (insertEntry key v es) (insertEntry key v' es') := by
  induction h with
  | nil => exact .cons hv .nil
  | @cons e e' es es' he hes ih =>
    obtain ⟨k, w⟩ := e
    obtain ⟨k', w'⟩ := e'
    obtain rfl : k = k' := he.key_eq
    rw [insertEntry, insertEntry]
    by_cases hk : k = key
    · subst hk
      rw [if_pos rfl, if_pos rfl]
      exact .cons hv hes
    · rw [if_neg hk, if_neg hk]
      exact .cons he ih

namespace Alike

variable {m m' : QueryModel}

theorem empty : Alike F T empty empty := .nil

theorem insert (h : m.Alike F T m') {key : String} {v v' : ModelValue}
    (hv : EntryAlike F T (key, v) (key, v')) : (m.insert key v).Alike F T (m'.insert key v') :=
  insertEntry_alike h hv

theorem same (h : m.Alike F T m') {key : String} (v : ModelValue) (hkey : key ∉ variableKeys) :
    (m.insert key v).Alike F T (m'.insert key v) :=
  h.insert (.same v hkey)

theorem same? (h : m.Alike F T m') {key : String} (v? : Option ModelValue)
    (hkey : key ∉ variableKeys) : (m.insert? key v?).Alike F T (m'.insert? key v?) := by
  cases v? with
  | none => exact h
  | some v => exact h.same v hkey

theorem filter (h : m.Alike F T m') {f f' : Option Filter}
    (hf : FiltersAlike F f f') :
    (m.insert? filterKey (f.map fun f => .text f.text)).Alike F T
      (m'.insert? filterKey (f'.map fun f => .text f.text)) := by
  cases hf with
  | none => exact h
  | some hf => exact h.insert (.filter hf)

end Alike

end QueryModel

/-- The models of a rows query with either filter are alike. -/
theorem RowsInfo.model_alike (i : RowsInfo) {filter' : Option Filter} {ps ps' cs cs' : List String}
    (columns : List String) (hf : FiltersAlike F i.filter filter')
    (hps : List.Forall₂ T ps ps') (hcs : List.Forall₂ T cs cs') :
    (i.model columns ps cs).Alike F T ({ i with filter := filter' }.model columns ps' cs') := by
  unfold RowsInfo.model
  iterate 3 refine QueryModel.Alike.same ?_ _ (by decide)
  refine QueryModel.Alike.filter ?_ hf
  refine QueryModel.Alike.insert ?_ (.children hcs)
  refine QueryModel.Alike.insert ?_ (.parents hps)
  refine QueryModel.Alike.same? ?_ _ (by decide)
  iterate 5 refine QueryModel.Alike.same ?_ _ (by decide)
  exact .empty

theorem GroupInfo.model_alike (i : GroupInfo) {filter' : Option Filter} {t t' : String}
    (hf : FiltersAlike F i.filter filter') (ht : T t t') :
    (i.model t).Alike F T ({ i with filter := filter' }.model t') := by
  unfold GroupInfo.model
  iterate 3 refine QueryModel.Alike.same ?_ _ (by decide)
  refine QueryModel.Alike.filter ?_ hf
  refine QueryModel.Alike.same ?_ _ (by decide)
  refine QueryModel.Alike.insert ?_ (.rowsQuery ht)
  iterate 2 refine QueryModel.Alike.same? ?_ _ (by decide)
  exact .empty

/-! ## Plans -/

namespace Publisher

variable (p : Publisher)

/-- Two runs over this publisher and the one with sides swapped, which end with texts of models
that are alike but for the sides of comparisons. -/
abbrev TextsInStep (x x' : Recording String) : Prop :=
  InStep (CallSwapped p.render) (TextSwapped p.render) x x'

/-- Two such runs that end with models, with conditions related by `F` in them. -/
abbrev ModelsInStep (F : String → String → Prop) (x x' : Recording QueryModel) : Prop :=
  InStep (CallSwapped p.render) (QueryModel.Alike F (TextSwapped p.render)) x x'

variable {p} {x x' : Recording QueryModel}

theorem render_inStep (shape : QueryShape) {m m' : QueryModel}
    (h : m.Alike ConditionSwapped (TextSwapped p.render) m') :
    p.TextsInStep (p.renderRecorded shape m) (p.swapSides.renderRecorded shape m') := by
  have hcalls : List.Forall₂ (CallSwapped p.render) [(shape, m)] [(shape, m')] :=
    .cons ⟨rfl, h⟩ .nil
  intro before before'
  refine ⟨p.render shape m, p.render shape m', [(shape, m)], [(shape, m')], rfl, rfl, ?_⟩
  cases ht : p.render shape m with
  | error e => exact .left [] hcalls
  | ok t =>
    cases ht' : p.render shape m' with
    | error e => exact .right [] hcalls
    | ok t' => exact .ok (.rendered h ht ht') hcalls

theorem ModelsInStep.render (h : p.ModelsInStep ConditionSwapped x x') (shape : QueryShape) :
    p.TextsInStep (x >>= p.renderRecorded shape) (x' >>= p.swapSides.renderRecorded shape) :=
  h.bind (fun _ _ hm => render_inStep shape hm) (.render p shape) (.render p.swapSides shape)

end Publisher

variable {p : Publisher}

/-- A rows query with either filter, and parts inside that are in step. -/
theorem RowsInfo.model_inStep (i : RowsInfo) {filter' : Option Filter}
    (hf : FiltersAlike F i.filter filter')
    {ps ps' : List RowsPlan} {cs cs' : List GroupPlan}
    (hps : List.Forall₂ (fun q q' =>
      p.TextsInStep (q.text p.renderRecorded) (q'.text p.swapSides.renderRecorded)) ps ps')
    (hcs : List.Forall₂ (fun g g' =>
      p.TextsInStep (g.text p.renderRecorded) (g'.text p.swapSides.renderRecorded)) cs cs') :
    p.ModelsInStep F ((RowsPlan.rows i ps cs).model p.renderRecorded)
      ((RowsPlan.rows { i with filter := filter' } ps' cs').model p.swapSides.renderRecorded) := by
  have hparents := InStep.mapM hps
  have hchildren := InStep.mapM hcs
  rw [RowsPlan.model_rows, RowsPlan.model_rows, RowsInfo.knownColumns, RowsInfo.knownColumns]
  cases i.columns with
  | none => exact .throw _
  | some columns =>
    refine hparents.bind (fun ps ps' hps => ?_)
      (fun ps => hchildren.adds_left.bind fun cs => .pure _)
      (fun ps' => hchildren.adds_right.bind fun cs' => .pure _)
    refine hchildren.bind (fun cs cs' hcs => ?_) (fun cs => .pure _) (fun cs' => .pure _)
    exact .pure (i.model_alike columns hf hps hcs)

/-- A group with either filter, around rows queries that are in step. -/
theorem GroupInfo.model_inStep (i : GroupInfo) {filter' : Option Filter}
    (hf : FiltersAlike F i.filter filter') {q q' : RowsPlan}
    (hq : p.ModelsInStep ConditionSwapped (q.model p.renderRecorded)
      (q'.model p.swapSides.renderRecorded)) :
    p.ModelsInStep F (Group.model p.renderRecorded ⟨i, q⟩)
      (Group.model p.swapSides.renderRecorded ⟨{ i with filter := filter' }, q'⟩) := by
  refine (hq.render .rows).bind (fun t t' ht => ?_) (fun t => .pure _) (fun t' => .pure _)
  exact .pure (i.model_alike hf ht)

/-- The conditions that the two publishers write for a key. -/
theorem ForeignKey.joins_rel (k : ForeignKey) (child parent : String) :
    FiltersAlike ConditionSwapped
      (some (.join ⟨child, parent, k.pairs, p.planner.childOnLeft⟩))
      (some (.join ⟨child, parent, k.pairs, p.swapSides.planner.childOnLeft⟩)) := by
  refine .some ?_
  rw [text_join, text_join]
  exact k.conditionSwapped _ child parent

/-- Rows queries for a layout are in step, with any filters of their own. -/
theorem Publisher.rows_inStep (n : Layout) (name : String) (aliases : Aliases)
    {filter filter' : Option Filter} (hf : FiltersAlike F filter filter')
    (columns : RowColumns) (ambient : Option String) (sorted : Bool) :
    p.ModelsInStep F
      ((p.planner.rows name aliases filter columns ambient sorted n).model p.renderRecorded)
      ((p.swapSides.planner.rows name aliases filter' columns ambient sorted n).model
        p.swapSides.renderRecorded) := by
  induction n generalizing F name aliases filter filter' columns ambient sorted with
  | node info parents children ihParents ihChildren =>
    rw [Planner.rows_node, Planner.rows_node]
    refine (p.planner.rowsInfo info name filter columns ambient sorted).model_inStep hf ?_ ?_
    · rw [List.forall₂_map_left_iff, List.forall₂_map_right_iff, List.forall₂_same]
      intro e he
      exact (ihParents e he _ _ (e.key.joins_rel name _) _ _ _).render .rows
    · rw [List.forall₂_map_left_iff, List.forall₂_map_right_iff, List.forall₂_same]
      intro e he
      exact (GroupInfo.model_inStep _ (e.key.joins_rel _ name)
        (ihChildren e he _ _ .none _ _ _)).render _

theorem filtersAlike_of_caller (filter : Option String) :
    FiltersAlike Eq (filter.map .condition) (filter.map .condition) := by
  cases filter with
  | none => exact .none
  | some filter => exact .some rfl

/-- In all queries for a layout built over a schema, the condition of each embedded query compares
the sides of its key, pair by pair, through the aliases of their rows. For the publisher with the
other side on the left the backend is asked for the same queries, with models that are alike but for
the sides of these comparisons. -/
theorem Publisher.correlates (p : Publisher) {n : Layout} (hn : n.BuiltOver p.schema)
    (name? filter ambient : Option String) :
    (∀ columns,
      let q (p : Publisher) := p.planner.topRows n name? filter columns ambient
      n.EachFragment (·.Correlated p.schema p.options.childSideOnLeft) [] (q p) ∧
        p.ModelsInStep Eq ((q p).model p.renderRecorded)
          ((q p.swapSides).model p.swapSides.renderRecorded)) ∧
    ∀ xmlType style,
      let g (p : Publisher) := p.planner.topGroup n name? filter xmlType ambient style
      n.EachFragment (·.Correlated p.schema p.options.childSideOnLeft) [(g p).entry] (g p).rows ∧
        p.ModelsInStep Eq ((g p).model p.renderRecorded)
          ((g p.swapSides).model p.swapSides.renderRecorded) := by
  have hfits : n.FitsIn p.planner.schema := hn.fitsIn
  constructor
  · intro columns
    have h := Planner.topRows_joinedAt hfits name? filter columns ambient
    exact ⟨h.imp fun site call hcall => hcall.correlated,
      rows_inStep n _ _ (filtersAlike_of_caller filter) columns ambient true⟩
  · intro xmlType style
    have h := Planner.topGroup_joinedAt hfits name? filter xmlType ambient style
    exact ⟨h.imp fun site call hcall => hcall.correlated,
      GroupInfo.model_inStep _ (filtersAlike_of_caller filter) (rows_inStep n _ _ .none _ _ _)⟩

namespace Staff

/-- An employee is joined to the boss and to those who report to the employee through different
columns of the same alias, and with the other side on the left there are models for the same
queries. -/
theorem team_correlated :
    let q (p : Publisher) := p.planner.topRows team (some "x") none .xmlOnly none
    let run (p : Publisher) := ((q p).model p.renderRecorded).run.run []
    team.BuiltOver schema ∧
      (∃ row boss reports, q publisher = .rows row [boss] [reports] ∧
        (∀ m, boss.HasModel m → m.get? QueryModel.filterKey = some (.text "x.boss = e.id")) ∧
        ∀ m, reports.HasModel m → m.get? QueryModel.filterKey = some (.text "e.boss = x.id")) ∧
      ∃ m m' calls calls', run publisher = (.ok m, calls) ∧
        run publisher.swapSides = (.ok m', calls') ∧
        List.Forall₂ (CallSwapped publisher.render) calls calls' ∧
        m.Alike Eq (TextSwapped publisher.render) m' := by
  intro q run
  obtain ⟨hrows, -⟩ := publisher.correlates team_builtOver (some "x") none none
  obtain ⟨hfragments, hsteps⟩ := hrows .xmlOnly
  refine ⟨team_builtOver, ⟨_, _, _, rfl, ?_⟩, ?_⟩
  · cases hfragments with
    | node hparents hchildren _ _ =>
      obtain ⟨hboss, -⟩ := List.forall₂_cons.1 hparents
      obtain ⟨hreports, -⟩ := List.forall₂_cons.1 hchildren
      exact ⟨fun m hm => (hboss m hm).2, fun m hm => (hreports m hm).2⟩
  · have hok : (run publisher).1.isOk := rfl
    have hok' : (run publisher.swapSides).1.isOk := rfl
    obtain ⟨y, y', calls, calls', hrun, hrun', halong⟩ := hsteps [] []
    cases halong with
    | ok halike hcalls => exact ⟨_, _, calls, calls', hrun, hrun', hcalls, halike⟩
    | left rest hcalls =>
      have hfails : (run publisher).1 = .error _ := congrArg Prod.fst hrun
      rw [hfails] at hok
      cases hok
    | right rest hcalls =>
      have hfails : (run publisher.swapSides).1 = .error _ := congrArg Prod.fst hrun'
      rw [hfails] at hok'
      cases hok'

end Staff

end XmlPublishing

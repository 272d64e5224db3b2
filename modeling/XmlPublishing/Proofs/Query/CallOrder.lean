import XmlPublishing.Proofs.Layout.Tree
import XmlPublishing.Proofs.Query.InStep

/-!
The order of the calls of the backend, and the first one that fails.

For the rows of a node, the backend is called with what is inside each embedded parent and then with
its model, and so on for the embedded children, each of which has one more call for its group
(`Layout.AsksRows`, `Layout.AsksGroup`). Every text that it gives stands in the next model around
it. A run makes these calls in this order, up to the first one that fails, which decides the result
(`Outcome`, `Publisher.asks_in_order`). Only the metadata of the relations is needed for this.
-/

namespace XmlPublishing

open QueryModel

/-- The shape of the query for a listing. -/
def CollectionStyle.shape : CollectionStyle → QueryShape
  | .wrapped => .collection
  | .inline => .forest

mutual
/-- With these answers, the model `m` of the rows of a layout is reached by calls in this order: for
each parent those for its rows, and a call with the model of these; then for each child those for
its group, and a call with the model of this. `m` has the answers at their places. -/
inductive Layout.AsksRows (answer : Call → String) : Layout → List Call → QueryModel → Prop
  | node {info : NodeInfo} {parents children : List (Joined Layout)}
      {ps cs : List (List Call × QueryModel)} {m : QueryModel} :
      List.Forall₂ (fun e p => e.layout.AsksRows answer p.1 p.2) parents ps →
      List.Forall₂ (fun e c => e.layout.AsksGroup answer c.1 c.2) children cs →
      m.get? relationKey = some (.text info.relation.text) →
      m.get? parentFragmentsKey = some (.list (ps.map fun p => answer (.rows, p.2))) →
      m.get? childFragmentsKey = some (.list (cs.map fun c => answer (info.style.shape, c.2))) →
      Layout.AsksRows answer (.node info parents children)
        ((ps.flatMap fun p => p.1 ++ [(.rows, p.2)]) ++
          cs.flatMap fun c => c.1 ++ [(info.style.shape, c.2)]) m
/-- The model of a group is reached by the calls for its rows and one with the model of these. -/
inductive Layout.AsksGroup (answer : Call → String) : Layout → List Call → QueryModel → Prop
  | group {n : Layout} {calls : List Call} {m g : QueryModel} :
      n.AsksRows answer calls m →
      g.get? rowsQueryKey = some (.text (answer (.rows, m))) →
      Layout.AsksGroup answer n (calls ++ [(.rows, m)]) g
end

variable {α β γ δ : Type} {p : Publisher} {calls calls' : List Call} {a : α} {b : β}

/-- The text that the backend gives, if it gives one. -/
def Publisher.answer (p : Publisher) (c : Call) : String :=
  match p.backend c.1 c.2 with
  | .ok text => text
  | .error _ => ""

/-- How a run ends that would make the given calls and end with `a`, and which calls it makes: all
of them if the backend answers each, and otherwise those up to the first failure, whose message it
ends with. -/
inductive Outcome (p : Publisher) (calls : List Call) (a : α) :
    Except PublishError α → List Call → Prop
  | answered : (∀ c ∈ calls, (p.backend c.1 c.2).isOk) → Outcome p calls a (.ok a) calls
  | failed {before after : List Call} {c : Call} {e : BackendError} :
      calls = before ++ c :: after → (∀ c ∈ before, (p.backend c.1 c.2).isOk) →
      p.backend c.1 c.2 = .error e →
      Outcome p calls a (.error (.rendering e.message)) (before ++ [c])

/-- The recorded run ends as `y` does, and so a run ends that would make these calls and end with
`a`. -/
def Makes (p : Publisher) (calls : List Call) (a : α) (x : Recording α)
    (y : Except PublishError α) : Prop :=
  ∀ before, ∃ made, x.run.run before = (y, before ++ made) ∧ Outcome p calls a y made

theorem Outcome.append {z : Except PublishError β} {made : List Call}
    (hcalls : ∀ c ∈ calls, (p.backend c.1 c.2).isOk) (h : Outcome p calls' b z made) :
    Outcome p (calls ++ calls') b z (calls ++ made) := by
  cases h with
  | answered hcalls' =>
    refine .answered fun c hc => ?_
    rcases List.mem_append.1 hc with hc | hc
    · exact hcalls c hc
    · exact hcalls' c hc
  | @failed before after c e heq hbefore hc =>
    rw [heq, ← List.append_assoc, ← List.append_assoc]
    refine .failed rfl (fun c' hc' => ?_) hc
    rcases List.mem_append.1 hc' with hc' | hc'
    · exact hcalls c' hc'
    · exact hbefore c' hc'

theorem Outcome.error_append {e : PublishError} {made : List Call}
    (h : Outcome p calls a (.error e) made) (calls' : List Call) (b : β) :
    Outcome p (calls ++ calls') b (.error e) made := by
  cases h with
  | @failed before after c e heq hbefore hc =>
    rw [heq, List.append_assoc]
    exact .failed rfl hbefore hc

namespace Makes

theorem pure (a : α) : Makes p [] a (Pure.pure a : Recording α) (.ok a) := by
  intro before
  exact ⟨[], by rw [List.append_nil]; rfl, .answered nofun⟩

/-- What comes after a step matters only for the value that the step would end with. -/
theorem bind {x : Recording α} {y : Except PublishError α} {f : α → Recording β}
    {g : α → Except PublishError β} (h : Makes p calls a x y)
    (hf : Makes p calls' b (f a) (g a)) : Makes p (calls ++ calls') b (x >>= f) (y >>= g) := by
  intro before
  obtain ⟨made, hx, hmade⟩ := h before
  cases y with
  | error e =>
    exact ⟨made, run_bind_of_error hx, hmade.error_append calls' b⟩
  | ok a' =>
    cases hmade with
    | answered hcalls =>
      obtain ⟨made', hfa, hmade'⟩ := hf (before ++ calls)
      refine ⟨calls ++ made', ?_, hmade'.append hcalls⟩
      rw [run_bind_of_ok hx, hfa, List.append_assoc]
      rfl

theorem bind_pure {x : Recording α} {y : Except PublishError α} (h : Makes p calls a x y)
    (f : α → β) : Makes p calls (f a) (x >>= fun a => Pure.pure (f a))
      (y >>= fun a => Pure.pure (f a)) := by
  have hall : Makes p (calls ++ []) (f a) (x >>= fun a => Pure.pure (f a))
      (y >>= fun a => Pure.pure (f a)) := h.bind (.pure (f a))
  rwa [List.append_nil] at hall

theorem mapM {f : γ → Recording β} {g : γ → Except PublishError β} {callsOf : δ → List Call}
    {endOf : δ → β} {cs : List γ} {xs : List δ}
    (h : List.Forall₂ (fun c x => Makes p (callsOf x) (endOf x) (f c) (g c)) cs xs) :
    Makes p (xs.flatMap callsOf) (xs.map endOf) (cs.mapM f) (cs.mapM g) := by
  induction h with
  | nil => exact .pure []
  | @cons c x cs xs hc hcs ih =>
    rw [List.mapM_cons, List.mapM_cons, List.flatMap_cons, List.map_cons]
    exact hc.bind (ih.bind_pure (endOf x :: ·))

theorem knownColumns {i : RowsInfo} {columns : List String} (h : i.columns = some columns) :
    Makes p [] columns (i.knownColumns : Recording (List String)) i.knownColumns := by
  unfold RowsInfo.knownColumns
  rw [h]
  exact .pure columns

theorem render (shape : QueryShape) (m : QueryModel) :
    Makes p [(shape, m)] (p.answer (shape, m)) (p.renderRecorded shape m) (p.render shape m) := by
  intro before
  refine ⟨[(shape, m)], rfl, ?_⟩
  rw [Publisher.answer, Publisher.render]
  cases h : p.backend shape m with
  | ok text =>
    refine .answered fun c hc => ?_
    obtain rfl := List.mem_singleton.1 hc
    rw [h]
    rfl
  | error e =>
    have hnone : ∀ c ∈ ([] : List Call), (p.backend c.1 c.2).isOk := List.forall_mem_nil _
    exact .failed (List.nil_append [(shape, m)]).symm hnone h

end Makes

/-! ## Plans -/

theorem Planner.exists_columns_of_contains (p : Planner) {i : NodeInfo}
    (hi : p.schema.contains i.relation) (which : PlainColumns) :
    ∃ columns, p.columns i which = some columns := by
  cases which with
  | omitted => exact ⟨[], rfl⟩
  | included => exact ⟨i.fields, rfl⟩
  | all =>
    obtain ⟨fields, hfields⟩ := Schema.contains_iff.1 hi
    exact ⟨fields.map (·.name), by rw [columns, hfields]; rfl⟩

theorem GroupInfo.shape_groupInfo (i : NodeInfo) (name : String) (filter : Option Filter)
    (xmlType : XmlType) (ambient : Option String) (style : CollectionStyle) :
    (Planner.groupInfo i name filter xmlType ambient style).shape = style.shape := by
  cases style <;> rfl

/-- The model `m` of the rows query is reached by these calls. -/
def RowsPlan.ReachedBy (p : Publisher) (q : RowsPlan) (calls : List Call) (m : QueryModel) : Prop :=
  Makes p calls m (q.model p.renderRecorded) (q.model p.render)

/-- The model `m` of the group is reached by these calls. -/
def Group.ReachedBy (p : Publisher) (g : GroupPlan) (calls : List Call) (m : QueryModel) : Prop :=
  Makes p calls m (g.model p.renderRecorded) (g.model p.render)

theorem RowsPlan.ReachedBy.text {q : RowsPlan} {m : QueryModel} (h : q.ReachedBy p calls m) :
    Makes p (calls ++ [(.rows, m)]) (p.answer (.rows, m)) (q.text p.renderRecorded)
      (q.text p.render) := by
  rw [RowsPlan.text, RowsPlan.text]
  exact h.bind (.render .rows m)

theorem RowsPlan.ReachedBy.group {g : GroupPlan} {m : QueryModel} (h : g.rows.ReachedBy p calls m) :
    g.ReachedBy p (calls ++ [(.rows, m)]) (g.info.model (p.answer (.rows, m))) := by
  rw [Group.ReachedBy, Group.model, Group.model]
  exact h.text.bind_pure g.info.model

theorem Group.ReachedBy.text {g : GroupPlan} {m : QueryModel} (h : g.ReachedBy p calls m) :
    Makes p (calls ++ [(g.info.shape, m)]) (p.answer (g.info.shape, m)) (g.text p.renderRecorded)
      (g.text p.render) := by
  rw [Group.text, Group.text]
  exact h.bind (.render g.info.shape m)

theorem RowsPlan.reachedBy_rows {info : RowsInfo} {parents : List RowsPlan}
    {children : List GroupPlan} {columns : List String} {ps cs : List (List Call × QueryModel)}
    {shape : QueryShape} (hcolumns : info.columns = some columns)
    (hparents : List.Forall₂ (fun q x => q.ReachedBy p x.1 x.2) parents ps)
    (hchildren : List.Forall₂ (fun g x => g.info.shape = shape ∧ g.ReachedBy p x.1 x.2)
      children cs) :
    (RowsPlan.rows info parents children).ReachedBy p
      ((ps.flatMap fun x => x.1 ++ [(.rows, x.2)]) ++ cs.flatMap fun x => x.1 ++ [(shape, x.2)])
      (info.model columns (ps.map fun x => p.answer (.rows, x.2))
        (cs.map fun x => p.answer (shape, x.2))) := by
  have hps := Makes.mapM (hparents.imp fun q x h => h.text)
  have htexts : List.Forall₂ (fun g x => Makes p (x.1 ++ [(shape, x.2)]) (p.answer (shape, x.2))
      (g.text p.renderRecorded) (g.text p.render)) children cs := by
    refine hchildren.imp fun g x h => ?_
    obtain ⟨rfl, hreached⟩ := h
    exact hreached.text
  have hcs := Makes.mapM htexts
  rw [RowsPlan.ReachedBy, RowsPlan.model_rows, RowsPlan.model_rows]
  exact (Makes.knownColumns hcolumns).bind (hps.bind (hcs.bind_pure _))

theorem Layout.AsksRows.group {n : Layout} {g : GroupPlan} {m : QueryModel}
    (h : n.AsksRows p.answer calls m) :
    n.AsksGroup p.answer (calls ++ [(.rows, m)]) (g.info.model (p.answer (.rows, m))) := by
  obtain ⟨-, hrows, -⟩ := g.info.get?_model (p.answer (.rows, m))
  exact .group h hrows

theorem Publisher.asks_rows (p : Publisher) {n : Layout}
    (hn : ∀ k ∈ n.nodes, p.schema.contains k.relation) (name : String) (aliases : Aliases)
    (filter : Option Filter) (columns : RowColumns) (ambient : Option String) (sorted : Bool) :
    ∃ calls m, n.AsksRows p.answer calls m ∧
      (p.planner.rows name aliases filter columns ambient sorted n).ReachedBy p calls m := by
  induction n generalizing name aliases filter columns ambient sorted with
  | node info parents children ihParents ihChildren =>
    have hself : p.schema.contains info.relation := hn _ (Layout.self_mem_nodes _)
    obtain ⟨known, hknown⟩ := p.planner.exists_columns_of_contains hself columns.plain
    let inner := info.ns <|> ambient
    have hparents : ∀ e ∈ parents, ∃ x : List Call × QueryModel,
        e.layout.AsksRows p.answer x.1 x.2 ∧
          (p.planner.parent name aliases inner e).ReachedBy p x.1 x.2 := by
      intro e he
      have hnodes := fun k hk => hn k (Layout.mem_nodes_trans hk (Layout.mem_nodes_of_parent he))
      obtain ⟨calls, m, hasks, hreached⟩ := ihParents e he hnodes _ _ _ _ _ _
      exact ⟨(calls, m), hasks, hreached⟩
    have hchildren : ∀ e ∈ children, ∃ x : List Call × QueryModel,
        e.layout.AsksGroup p.answer x.1 x.2 ∧
          (p.planner.child name aliases inner info.style e).info.shape = info.style.shape ∧
          (p.planner.child name aliases inner info.style e).ReachedBy p x.1 x.2 := by
      intro e he
      have hnodes := fun k hk => hn k (Layout.mem_nodes_trans hk (Layout.mem_nodes_of_child he))
      obtain ⟨calls, m, hasks, hreached⟩ := ihChildren e he hnodes _ _ _ _ _ _
      exact ⟨(_, _), hasks.group, GroupInfo.shape_groupInfo .., hreached.group⟩
    obtain ⟨ps, hps⟩ := exists_forall₂ hparents
    obtain ⟨cs, hcs⟩ := exists_forall₂ hchildren
    obtain ⟨-, hrelation, -, -, -, -, hparentFragments, hchildFragments, -⟩ :=
      (p.planner.rowsInfo info name filter columns ambient sorted).get?_model known
        (ps.map fun x => p.answer (.rows, x.2)) (cs.map fun x => p.answer (info.style.shape, x.2))
    refine ⟨_, _, .node (hps.imp fun _ _ h => h.1) (hcs.imp fun _ _ h => h.1) hrelation
      hparentFragments hchildFragments, ?_⟩
    rw [Planner.rows_node]
    exact RowsPlan.reachedBy_rows hknown
      (List.forall₂_map_left_iff.2 (hps.imp fun _ _ h => h.2))
      (List.forall₂_map_left_iff.2 (hcs.imp fun _ _ h => h.2))

theorem Publisher.asks_group (p : Publisher) {n : Layout}
    (hn : ∀ k ∈ n.nodes, p.schema.contains k.relation) (name? filter : Option String)
    (xmlType : XmlType) (ambient : Option String) (style : CollectionStyle) :
    let g := p.planner.topGroup n name? filter xmlType ambient style
    ∃ calls m, n.AsksGroup p.answer calls m ∧ g.ReachedBy p calls m ∧
      Makes p (calls ++ [(style.shape, m)]) (p.answer (style.shape, m)) (g.text p.renderRecorded)
        (g.text p.render) := by
  intro g
  have hshape : g.info.shape = style.shape := GroupInfo.shape_groupInfo ..
  obtain ⟨calls, m, hasks, hreached⟩ := p.asks_rows hn _ _ _ _ _ _
  have hgroup : g.ReachedBy p _ _ := hreached.group
  exact ⟨_, _, hasks.group, hgroup, hshape ▸ hgroup.text⟩

/-- Where all relations of a layout are registered, a query calls the backend in the order of the
layout, from the inside out, with all texts that it gives at their places. A query as text makes one
call more than its model. The first call that fails is the last one, and its message is the
result. -/
theorem Publisher.asks_in_order (p : Publisher) {n : Layout}
    (hn : ∀ k ∈ n.nodes, p.schema.contains k.relation) (name? filter ambient : Option String) :
    (∀ columns,
      let q := p.planner.topRows n name? filter columns ambient
      ∃ calls m, n.AsksRows p.answer calls m ∧
        Makes p calls m (q.model p.renderRecorded) (p.rowsModel n name? filter columns ambient) ∧
        Makes p (calls ++ [(.rows, m)]) (p.answer (.rows, m)) (q.text p.renderRecorded)
          (p.rows n name? filter columns ambient)) ∧
    (∀ xmlType,
      let g := p.planner.topGroup n name? filter xmlType ambient .wrapped
      ∃ calls m, n.AsksGroup p.answer calls m ∧
        Makes p calls m (g.model p.renderRecorded)
          (p.collectionModel n name? filter xmlType ambient) ∧
        Makes p (calls ++ [(.collection, m)]) (p.answer (.collection, m)) (g.text p.renderRecorded)
          (p.collection n name? filter xmlType ambient)) ∧
    let g := p.planner.topGroup n name? filter .xml ambient .inline
    ∃ calls m, n.AsksGroup p.answer calls m ∧
      Makes p calls m (g.model p.renderRecorded) (p.forestModel n name? filter ambient) ∧
      Makes p (calls ++ [(.forest, m)]) (p.answer (.forest, m)) (g.text p.renderRecorded)
        (p.forest n name? filter ambient) := by
  refine ⟨fun columns => ?_, fun xmlType => ?_, ?_⟩
  · intro q
    obtain ⟨calls, m, hasks, hreached⟩ := p.asks_rows hn _ _ _ _ _ _
    exact ⟨calls, m, hasks, hreached, hreached.text⟩
  · exact p.asks_group hn name? filter xmlType ambient .wrapped
  · exact p.asks_group hn name? filter .xml ambient .inline

namespace Staff

/-- A backend that has no listings. -/
def withoutListings : Publisher where
  schema := schema
  backend shape _ := if shape = .collection then .error (.failed "no listings") else .ok "rows"
  options := {}

/-- The listing of those who report to an employee is refused, after the calls for what comes before
it. -/
theorem team_withoutListings :
    (∀ k ∈ team.nodes, schema.contains k.relation) ∧
      ∃ calls m, team.AsksRows withoutListings.answer calls m ∧
        ∃ made, ((withoutListings.planner.topRows team none none .xmlOnly none).model
            withoutListings.renderRecorded).run.run [] =
            (.error (.rendering "no listings"), made) ∧
          Outcome withoutListings calls m (.error (.rendering "no listings")) made := by
  have hregistered : ∀ k ∈ team.nodes, schema.contains k.relation := by decide
  have hrefused : withoutListings.rowsModel team none none .xmlOnly none =
      .error (.rendering "no listings") := rfl
  obtain ⟨hrows, -⟩ := withoutListings.asks_in_order hregistered none none none
  obtain ⟨calls, m, hasks, hmakes, -⟩ := hrows .xmlOnly
  rw [hrefused] at hmakes
  exact ⟨hregistered, calls, m, hasks, hmakes []⟩

end Staff

end XmlPublishing

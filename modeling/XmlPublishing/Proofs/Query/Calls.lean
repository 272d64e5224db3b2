import XmlPublishing.Proofs.Query.Rendering

/-!
The calls of the backend.

Plans are turned into text by any way to render models, also by one that writes down each model
before it is rendered (`Publisher.renderRecorded`). Such a run ends as the run without recording
does, and what it has written down stays when it fails (`Records`). What holds of the models of all
queries holds of every model that is recorded for a plan (`RowsPlan.records_text`,
`Group.records_text`).
-/

namespace XmlPublishing

/-- A call of the backend: the shape of a query, and its model. -/
abbrev Call := QueryShape × QueryModel

/-- Runs that write down their calls. -/
abbrev Recording := ExceptT PublishError (StateM (List Call))

/-- Renders as `p` does, and writes down the call, whether it succeeds or not. -/
def Publisher.renderRecorded (p : Publisher) (shape : QueryShape) (m : QueryModel) :
    Recording String :=
  ExceptT.mk fun calls => (p.render shape m, calls ++ [(shape, m)])

variable {α β γ : Type} {C : Call → Prop}

/-- The recorded run ends as `y` does, and all calls in it satisfy `C`. -/
def Records (C : Call → Prop) (x : Recording α) (y : Except PublishError α) : Prop :=
  ∀ before, ∃ calls, x.run.run before = (y, before ++ calls) ∧ ∀ c ∈ calls, C c

namespace Records

theorem result (y : Except PublishError α) : Records C (ExceptT.mk fun calls => (y, calls)) y := by
  intro before
  exact ⟨[], by rw [List.append_nil]; rfl, nofun⟩

theorem bind {x : Recording α} {y : Except PublishError α} {f : α → Recording β}
    {g : α → Except PublishError β} (h : Records C x y) (hf : ∀ a, Records C (f a) (g a)) :
    Records C (x >>= f) (y >>= g) := by
  intro before
  obtain ⟨calls, hx, hcalls⟩ := h before
  rw [ExceptT.run_bind, StateT.run_bind, hx]
  cases y with
  | error e => exact ⟨calls, rfl, hcalls⟩
  | ok a =>
    obtain ⟨calls', ha, hcalls'⟩ := hf a (before ++ calls)
    refine ⟨calls ++ calls', ?_, fun c hc => ?_⟩
    · rw [← List.append_assoc]
      exact ha
    · rcases List.mem_append.1 hc with hc | hc
      · exact hcalls c hc
      · exact hcalls' c hc

theorem mapM {f : γ → Recording β} {g : γ → Except PublishError β} {cs : List γ}
    (h : ∀ c ∈ cs, Records C (f c) (g c)) : Records C (cs.mapM f) (cs.mapM g) := by
  induction cs with
  | nil => exact .result (.ok [])
  | cons c cs ih =>
    obtain ⟨hc, hcs⟩ := List.forall_mem_cons.1 h
    rw [List.mapM_cons, List.mapM_cons]
    exact hc.bind fun b => (ih hcs).bind fun bs => .result (.ok (b :: bs))

theorem knownColumns (i : RowsInfo) :
    Records C (i.knownColumns : Recording (List String)) i.knownColumns := by
  unfold RowsInfo.knownColumns
  cases i.columns with
  | none => exact .result (.error _)
  | some columns => exact .result (.ok columns)

theorem render (p : Publisher) {shape : QueryShape} {m : QueryModel} (h : C (shape, m)) :
    Records C (p.renderRecorded shape m) (p.render shape m) := by
  intro before
  exact ⟨[(shape, m)], rfl, by simpa using h⟩

end Records

/-- What holds of the models of all queries. -/
structure HoldsOfModels (C : Call → Prop) : Prop where
  rows : ∀ (i : RowsInfo) (columns parents children : List String),
    C (.rows, i.model columns parents children)
  group : ∀ (i : GroupInfo) (rowsQuery : String), C (i.shape, i.model rowsQuery)

theorem Group.records_text_of_rows (hC : HoldsOfModels C) (p : Publisher) {g : GroupPlan}
    (h : Records C (g.rows.text p.renderRecorded) (g.rows.text p.render)) :
    Records C (g.text p.renderRecorded) (g.text p.render) := by
  rw [Group.text_eq, Group.text_eq]
  exact h.bind fun rowsQuery => .render p (hC.group g.info rowsQuery)

theorem RowsPlan.records_text (hC : HoldsOfModels C) (p : Publisher) (q : RowsPlan) :
    Records C (q.text p.renderRecorded) (q.text p.render) := by
  induction q with
  | rows info parents children ihParents ihChildren =>
    rw [RowsPlan.text_rows, RowsPlan.text_rows]
    apply (Records.knownColumns info).bind
    intro columns
    apply (Records.mapM ihParents).bind
    intro ps
    apply (Records.mapM fun g hg => Group.records_text_of_rows hC p (ihChildren g hg)).bind
    intro cs
    exact .render p (hC.rows info columns ps cs)

theorem Group.records_text (hC : HoldsOfModels C) (p : Publisher) (g : GroupPlan) :
    Records C (g.text p.renderRecorded) (g.text p.render) :=
  Group.records_text_of_rows hC p (g.rows.records_text hC p)

end XmlPublishing

import XmlPublishing.Proofs.Query.Calls

/-!
Two runs in step.

Two runs that write down their calls are followed together, whatever the backend does. It is asked
for related texts, one after another, until it fails in one of the runs, and if it never does, the
results are related (`Along`, `InStep`). Chains of steps are in step if each step is (`InStep.bind`,
`InStep.mapM`), so that a fact about two runs is proved along the equations of the plans.
-/

namespace XmlPublishing

variable {α α' β β' γ γ' : Type} {S : Call → Call → Prop} {R : α → α' → Prop} {T : β → β' → Prop}

/-- The calls of two runs are related one by one until one of the runs fails, and if neither does,
so are the results. -/
inductive Along (S : Call → Call → Prop) (R : α → α' → Prop) :
    Except PublishError α × List Call → Except PublishError α' × List Call → Prop
  | ok {a : α} {a' : α'} {calls calls' : List Call} :
      R a a' → List.Forall₂ S calls calls' → Along S R (.ok a, calls) (.ok a', calls')
  | left {e : PublishError} {y' : Except PublishError α'} {calls calls' : List Call}
      (more' : List Call) :
      List.Forall₂ S calls calls' → Along S R (.error e, calls) (y', calls' ++ more')
  | right {y : Except PublishError α} {e' : PublishError} {calls calls' : List Call}
      (more : List Call) :
      List.Forall₂ S calls calls' → Along S R (y, calls ++ more) (.error e', calls')

theorem Along.append {calls calls' more more' : List Call} {z : Except PublishError β}
    {z' : Except PublishError β'} (hcalls : List.Forall₂ S calls calls')
    (h : Along S T (z, more) (z', more')) : Along S T (z, calls ++ more) (z', calls' ++ more') := by
  cases h with
  | ok hr hmore => exact .ok hr (List.rel_append hcalls hmore)
  | left rest hmore =>
    rw [← List.append_assoc]
    exact .left rest (List.rel_append hcalls hmore)
  | right rest hmore =>
    rw [← List.append_assoc]
    exact .right rest (List.rel_append hcalls hmore)

/-- However the run ends, it only adds to the calls before it. -/
def Adds (x : Recording α) : Prop :=
  ∀ before, ∃ y calls, x.run.run before = (y, before ++ calls)

/-- From any calls before them, the two runs add related ones. -/
def InStep (S : Call → Call → Prop) (R : α → α' → Prop) (x : Recording α) (x' : Recording α') :
    Prop :=
  ∀ before before', ∃ y y' calls calls', x.run.run before = (y, before ++ calls) ∧
    x'.run.run before' = (y', before' ++ calls') ∧ Along S R (y, calls) (y', calls')

variable {x : Recording α} {x' : Recording α'} {f : α → Recording β} {f' : α' → Recording β'}

theorem run_bind_of_ok {before after : List Call} {a : α} (h : x.run.run before = (.ok a, after)) :
    (x >>= f).run.run before = (f a).run.run after := by
  rw [ExceptT.run_bind, StateT.run_bind, h]
  rfl

theorem run_bind_of_error {before after : List Call} {e : PublishError}
    (h : x.run.run before = (.error e, after)) :
    (x >>= f).run.run before = (.error e, after) := by
  rw [ExceptT.run_bind, StateT.run_bind, h]
  rfl

theorem Adds.exists_run_bind (hf : ∀ a, Adds (f a)) {before after : List Call}
    {y : Except PublishError α} (h : x.run.run before = (y, after)) :
    ∃ z more, (x >>= f).run.run before = (z, after ++ more) := by
  cases y with
  | error e => exact ⟨.error e, [], by rw [run_bind_of_error h, List.append_nil]⟩
  | ok a =>
    rw [run_bind_of_ok h]
    exact hf a after

theorem Adds.bind (h : Adds x) (hf : ∀ a, Adds (f a)) : Adds (x >>= f) := by
  intro before
  obtain ⟨y, calls, hx⟩ := h before
  obtain ⟨z, more, hz⟩ := exists_run_bind hf hx
  exact ⟨z, calls ++ more, by rw [hz, List.append_assoc]⟩

theorem Adds.pure (a : α) : Adds (Pure.pure a : Recording α) := by
  intro before
  exact ⟨.ok a, [], by rw [List.append_nil]; rfl⟩

theorem Adds.render (p : Publisher) (shape : QueryShape) (m : QueryModel) :
    Adds (p.renderRecorded shape m) := by
  intro before
  exact ⟨p.render shape m, [(shape, m)], rfl⟩

namespace InStep

theorem adds_left (h : InStep S R x x') : Adds x := by
  intro before
  obtain ⟨y, -, calls, -, hx, -⟩ := h before []
  exact ⟨y, calls, hx⟩

theorem adds_right (h : InStep S R x x') : Adds x' := by
  intro before
  obtain ⟨-, y', -, calls', -, hx', -⟩ := h [] before
  exact ⟨y', calls', hx'⟩

theorem pure {a : α} {a' : α'} (h : R a a') :
    InStep S R (Pure.pure a : Recording α) (Pure.pure a') := by
  intro before before'
  refine ⟨.ok a, .ok a', [], [], ?_, ?_, .ok h .nil⟩
  · rw [List.append_nil]
    rfl
  · rw [List.append_nil]
    rfl

theorem throw (e : PublishError) :
    InStep S R (MonadExcept.throw e : Recording α) (MonadExcept.throw e) := by
  intro before before'
  refine ⟨.error e, .error e, [], [], ?_, ?_, .left [] .nil⟩
  · rw [List.append_nil]
    rfl
  · rw [List.append_nil]
    rfl

theorem bind (h : InStep S R x x') (hf : ∀ a a', R a a' → InStep S T (f a) (f' a'))
    (hadds : ∀ a, Adds (f a)) (hadds' : ∀ a', Adds (f' a')) :
    InStep S T (x >>= f) (x' >>= f') := by
  intro before before'
  obtain ⟨y, y', calls, calls', hx, hx', halong⟩ := h before before'
  cases halong with
  | ok hr hcalls =>
    obtain ⟨z, z', more, more', hz, hz', hmore⟩ :=
      hf _ _ hr (before ++ calls) (before' ++ calls')
    refine ⟨z, z', calls ++ more, calls' ++ more', ?_, ?_, hmore.append hcalls⟩
    · rw [run_bind_of_ok hx, hz, List.append_assoc]
    · rw [run_bind_of_ok hx', hz', List.append_assoc]
  -- the run that goes on where the other has failed only adds to its calls
  | left rest hcalls =>
    obtain ⟨z', more', hz'⟩ := Adds.exists_run_bind hadds' hx'
    refine ⟨_, z', calls, _ ++ (rest ++ more'), run_bind_of_error hx, ?_, .left _ hcalls⟩
    rw [hz', List.append_assoc, List.append_assoc]
  | right rest hcalls =>
    obtain ⟨z, more, hz⟩ := Adds.exists_run_bind hadds hx
    refine ⟨z, _, _ ++ (rest ++ more), calls', ?_, run_bind_of_error hx', .right _ hcalls⟩
    rw [hz, List.append_assoc, List.append_assoc]

theorem mapM {g : γ → Recording β} {g' : γ' → Recording β'} {cs : List γ} {cs' : List γ'}
    (h : List.Forall₂ (fun c c' => InStep S T (g c) (g' c')) cs cs') :
    InStep S (List.Forall₂ T) (cs.mapM g) (cs'.mapM g') := by
  induction h with
  | nil => exact .pure .nil
  | cons hc hcs ih =>
    rw [List.mapM_cons, List.mapM_cons]
    refine hc.bind (fun b b' hb => ?_) (fun b => ih.adds_left.bind fun bs => .pure (b :: bs))
      (fun b' => ih.adds_right.bind fun bs' => .pure (b' :: bs'))
    exact ih.bind (fun bs bs' hbs => .pure (.cons hb hbs)) (fun bs => .pure (b :: bs))
      (fun bs' => .pure (b' :: bs'))

end InStep

end XmlPublishing

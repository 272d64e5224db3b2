import XmlPublishing.Proofs.Query.Rendering

/-!
The text of the standard backend as a function of the plan.

`RowsPlan.sql` writes a plan without a way to fail. Publishing gives just this text, unless a rows
query in the plan does not know its columns: then the relation of the first one is reported
(`RowsPlan.text_eq_sql`, `Group.text_eq_sql`).
-/

namespace XmlPublishing

section

variable {α β γ : Type} (rs rs' : List RelationId)

/-- The value, if no relation is unknown; otherwise the first one is reported. -/
def unlessUnknown (unknown : List RelationId) (a : α) : Except PublishError α :=
  match unknown with
  | [] => .ok a
  | r :: _ => .error (.unknownRelation r)

variable {rs rs'}

theorem unlessUnknown_bind {a : α} {b : β} {f : α → Except PublishError β}
    (h : f a = unlessUnknown rs' b) :
    unlessUnknown rs a >>= f = unlessUnknown (rs ++ rs') b := by
  cases rs with
  | nil => exact h
  | cons r rs => rfl

theorem unlessUnknown_bind_ok {a : α} {b : β} {f : α → Except PublishError β} (h : f a = .ok b) :
    unlessUnknown rs a >>= f = unlessUnknown rs b := by
  have hb : f a = unlessUnknown [] b := h
  rw [unlessUnknown_bind hb, List.append_nil]

theorem mapM_unlessUnknown {f : γ → Except PublishError β} {unknown : γ → List RelationId}
    {g : γ → β} {cs : List γ} (h : ∀ c ∈ cs, f c = unlessUnknown (unknown c) (g c)) :
    cs.mapM f = unlessUnknown (cs.flatMap unknown) (cs.map g) := by
  induction cs with
  | nil => rfl
  | cons c cs ih =>
    obtain ⟨hc, hcs⟩ := List.forall_mem_cons.1 h
    rw [List.mapM_cons, hc, List.flatMap_cons, List.map_cons]
    apply unlessUnknown_bind
    rw [ih hcs]
    exact unlessUnknown_bind_ok rfl

end

/-! ## Plans -/

mutual
/-- The relations of the rows queries that do not know their columns: first that of the query
itself, then those inside its parents, then those inside its children. -/
def RowsPlan.unknown : RowsPlan → List RelationId
  | .rows info parents children =>
    (if info.columns.isSome then [] else [info.relation]) ++
      (RowsPlan.unknownAll parents ++ Group.unknownAll children)
termination_by structural q => q
def RowsPlan.unknownAll : List RowsPlan → List RelationId
  | [] => []
  | q :: qs => q.unknown ++ RowsPlan.unknownAll qs
termination_by structural qs => qs
def Group.unknownAll : List (Group RowsPlan) → List RelationId
  | [] => []
  | ⟨_, rows⟩ :: gs => rows.unknown ++ Group.unknownAll gs
termination_by structural gs => gs
end

mutual
/-- The standard text of a rows query, which selects no plain columns where they are not known. -/
def RowsPlan.sql (unit : String) : RowsPlan → String
  | .rows info parents children =>
    SqlXml.joinLines ((info.parts (info.columns.getD []) (RowsPlan.sqlAll unit parents)
      (Group.sqlAll unit children)).lines unit)
termination_by structural q => q
def RowsPlan.sqlAll (unit : String) : List RowsPlan → List String
  | [] => []
  | q :: qs => q.sql unit :: RowsPlan.sqlAll unit qs
termination_by structural qs => qs
def Group.sqlAll (unit : String) : List (Group RowsPlan) → List String
  | [] => []
  | ⟨info, rows⟩ :: gs =>
    SqlXml.joinLines ((info.parts (rows.sql unit)).lines unit) :: Group.sqlAll unit gs
termination_by structural gs => gs
end

/-- The standard text of a group. -/
def Group.sql (unit : String) (g : GroupPlan) : String :=
  SqlXml.joinLines ((g.info.parts (g.rows.sql unit)).lines unit)

theorem RowsPlan.unknown_rows (info : RowsInfo) (parents : List RowsPlan)
    (children : List GroupPlan) :
    (RowsPlan.rows info parents children).unknown =
      (if info.columns.isSome then [] else [info.relation]) ++
        (parents.flatMap RowsPlan.unknown ++ children.flatMap (·.rows.unknown)) := by
  have hparents : RowsPlan.unknownAll parents = parents.flatMap RowsPlan.unknown := by
    induction parents with
    | nil => rfl
    | cons q qs ih => rw [RowsPlan.unknownAll, ih, List.flatMap_cons]
  have hchildren : Group.unknownAll children = children.flatMap (·.rows.unknown) := by
    induction children with
    | nil => rfl
    | cons g gs ih => rw [Group.unknownAll, ih, List.flatMap_cons]
  rw [RowsPlan.unknown, hparents, hchildren]

theorem RowsPlan.sql_rows (unit : String) (info : RowsInfo) (parents : List RowsPlan)
    (children : List GroupPlan) :
    (RowsPlan.rows info parents children).sql unit =
      SqlXml.joinLines ((info.parts (info.columns.getD []) (parents.map (·.sql unit))
        (children.map (·.sql unit))).lines unit) := by
  have hparents : RowsPlan.sqlAll unit parents = parents.map (·.sql unit) := by
    induction parents with
    | nil => rfl
    | cons q qs ih => rw [RowsPlan.sqlAll, ih, List.map_cons]
  have hchildren : Group.sqlAll unit children = children.map (·.sql unit) := by
    induction children with
    | nil => rfl
    | cons g gs ih => rw [Group.sqlAll, ih, List.map_cons, Group.sql]
  rw [RowsPlan.sql, hparents, hchildren]

theorem RowsInfo.knownColumns_eq (i : RowsInfo) :
    (i.knownColumns : Except PublishError (List String)) =
      unlessUnknown (if i.columns.isSome then [] else [i.relation]) (i.columns.getD []) := by
  rw [knownColumns]
  cases i.columns <;> rfl

section

variable {p : Publisher} {indent : Nat}

theorem Group.text_eq_sql_of_rows (hp : p.backend = SqlXml.backend indent) {g : GroupPlan}
    (h : g.rows.text p.render =
      unlessUnknown g.rows.unknown (g.rows.sql (String.ofList (List.replicate indent ' ')))) :
    g.text p.render =
      unlessUnknown g.rows.unknown (g.sql (String.ofList (List.replicate indent ' '))) := by
  rw [Group.text_eq, h]
  apply unlessUnknown_bind_ok
  rw [Publisher.render_group hp, Group.sql]

theorem RowsPlan.text_eq_sql (hp : p.backend = SqlXml.backend indent) (q : RowsPlan) :
    q.text p.render =
      unlessUnknown q.unknown (q.sql (String.ofList (List.replicate indent ' '))) := by
  induction q with
  | rows info parents children ihParents ihChildren =>
    have hchildren := mapM_unlessUnknown fun g hg =>
      Group.text_eq_sql_of_rows hp (ihChildren g hg)
    rw [RowsPlan.text_rows, RowsInfo.knownColumns_eq, mapM_unlessUnknown ihParents, hchildren,
      unknown_rows, sql_rows]
    -- columns first, then parents, then children, as in the list of unknown relations
    apply unlessUnknown_bind
    apply unlessUnknown_bind
    apply unlessUnknown_bind_ok
    exact Publisher.render_rows hp ..

theorem Group.text_eq_sql (hp : p.backend = SqlXml.backend indent) (g : GroupPlan) :
    g.text p.render =
      unlessUnknown g.rows.unknown (g.sql (String.ofList (List.replicate indent ' '))) :=
  Group.text_eq_sql_of_rows hp (g.rows.text_eq_sql hp)

end

end XmlPublishing

import XmlPublishing.Proofs.Query.Plan
import XmlPublishing.Proofs.Sequence

/-!
From plans to text.

A model is a map from keys to values (`QueryModel.get?_insert`), and the standard backend finds in
the model of a plan all that it reads, in the kinds that it expects (`SqlXml.backend_rows`,
`SqlXml.backend_group`). So a plan has a text if the plain columns of its rows queries are known
(`RowsPlan.text_eq_ok`, `Group.text_eq_ok`). Facts about the texts of the standard backend are
proved by induction along them (`RowsPlan.text_induction`).
-/

namespace XmlPublishing

namespace QueryModel

theorem lookup_cons (key k : String) (v : ModelValue) (es : List (String × ModelValue)) :
    ((key, v) :: es).lookup k = if k = key then some v else es.lookup k := by
  rw [List.lookup_cons]
  by_cases h : k = key
  · rw [if_pos h, beq_iff_eq.2 h]
  · rw [if_neg h, beq_eq_false_iff_ne.2 h]

theorem lookup_insertEntry (key k : String) (v : ModelValue) (es : List (String × ModelValue)) :
    (insertEntry key v es).lookup k = if k = key then some v else es.lookup k := by
  induction es with
  | nil => exact lookup_cons key k v []
  | cons e es ih =>
    obtain ⟨key', v'⟩ := e
    rw [insertEntry]
    by_cases hkey : key' = key
    · rw [if_pos hkey, lookup_cons, lookup_cons, hkey]
      split <;> rfl
    · rw [if_neg hkey, lookup_cons, lookup_cons, ih]
      by_cases h : k = key'
      · rw [if_pos h, if_pos h, if_neg (h ▸ hkey)]
      · rw [if_neg h, if_neg h]

@[simp] theorem get?_empty (k : String) : empty.get? k = none := rfl

@[simp] theorem get?_insert (m : QueryModel) (key k : String) (v : ModelValue) :
    (m.insert key v).get? k = if k = key then some v else m.get? k :=
  lookup_insertEntry key k v m.entries

@[simp] theorem get?_insert? (m : QueryModel) (key k : String) (v? : Option ModelValue) :
    (m.insert? key v?).get? k = if k = key then v?.or (m.get? k) else m.get? k := by
  cases v? with
  | none => rw [insert?, Option.none_or, ite_self]
  | some v => rw [insert?, get?_insert, Option.some_or]

variable {m : QueryModel} {key : String}

theorem text_of_get? {s : String} (h : m.get? key = some (.text s)) : m.text key = .ok s := by
  rw [text, get, h]; rfl

theorem list_of_get? {items : List String} (h : m.get? key = some (.list items)) :
    m.list key = .ok items := by
  rw [list, get, h]; rfl

theorem flag_of_get? {b : Bool} (h : m.get? key = some (.flag b)) : m.flag key = .ok b := by
  rw [flag, get, h]; rfl

theorem text?_of_get? {s? : Option String} (h : m.get? key = s?.map .text) :
    m.text? key = .ok s? := by
  rw [text?, h]
  cases s? <;> rfl

end QueryModel

/-- What the standard backend writes a rows query from. -/
def RowsInfo.parts (i : RowsInfo) (columns parents children : List String) : SqlXml.RowsParts where
  name := i.name
  relation := i.relation.text
  selectFields := columns
  xmlFields := i.fields
  rowName := i.rowName
  ns := i.declares
  parents := parents
  children := children
  filter := i.filter.map Filter.text
  orderBy := orderByTexts i.name i.order
  largeChar := i.largeChar
  column := rowXmlColumn

open QueryModel in
theorem RowsInfo.get?_model (i : RowsInfo) (columns parents children : List String) :
    let m := i.model columns parents children
    m.get? aliasKey = some (.text i.name) ∧ m.get? relationKey = some (.text i.relation.text) ∧
    m.get? selectFieldsKey = some (.list columns) ∧ m.get? xmlFieldsKey = some (.list i.fields) ∧
    m.get? rowElementNameKey = some (.text i.rowName) ∧
    m.get? namespaceKey = i.declares.map .text ∧
    m.get? parentFragmentsKey = some (.list parents) ∧
    m.get? childFragmentsKey = some (.list children) ∧
    m.get? filterKey = (i.filter.map Filter.text).map .text ∧
    m.get? orderByKey = some (.list (orderByTexts i.name i.order)) ∧
    m.get? largeCharOutputKey = some (.flag i.largeChar) ∧
    m.get? resultColumnKey = some (.text rowXmlColumn) := by
  simp [model, aliasKey, relationKey, selectFieldsKey, xmlFieldsKey, rowElementNameKey,
    namespaceKey, parentFragmentsKey, childFragmentsKey, filterKey, orderByKey,
    largeCharOutputKey, resultColumnKey, Function.comp_def]

theorem SqlXml.RowsParts.ofModel_model (i : RowsInfo) (columns parents children : List String) :
    SqlXml.RowsParts.ofModel (i.model columns parents children) =
      .ok (i.parts columns parents children) := by
  obtain ⟨h₁, h₂, h₃, h₄, h₅, h₆, h₇, h₈, h₉, h₁₀, h₁₁, h₁₂⟩ :=
    i.get?_model columns parents children
  rw [ofModel, QueryModel.text_of_get? h₁, QueryModel.text_of_get? h₂, QueryModel.list_of_get? h₃,
    QueryModel.list_of_get? h₄, QueryModel.text_of_get? h₅, QueryModel.text?_of_get? h₆,
    QueryModel.list_of_get? h₇, QueryModel.list_of_get? h₈, QueryModel.text?_of_get? h₉,
    QueryModel.list_of_get? h₁₀, QueryModel.flag_of_get? h₁₁, QueryModel.text_of_get? h₁₂]
  rfl

/-- What the standard backend writes a group from. -/
def GroupInfo.parts (i : GroupInfo) (rowsQuery : String) : SqlXml.GroupParts where
  name := i.name
  rowsQuery := rowsQuery
  filter := i.filter.map Filter.text
  orderBy := orderByTexts i.name i.order
  largeChar := i.largeChar
  column := collectionXmlColumn
  wrapper := i.wrapper.map fun w => (w.name, w.declares)

open QueryModel in
theorem GroupInfo.get?_model (i : GroupInfo) (rowsQuery : String) :
    let m := i.model rowsQuery
    m.get? aliasKey = some (.text i.name) ∧ m.get? rowsQueryKey = some (.text rowsQuery) ∧
    m.get? filterKey = (i.filter.map Filter.text).map .text ∧
    m.get? orderByKey = some (.list (orderByTexts i.name i.order)) ∧
    m.get? largeCharOutputKey = some (.flag i.largeChar) ∧
    m.get? resultColumnKey = some (.text collectionXmlColumn) ∧
    m.get? collectionElementNameKey = i.wrapper.map (fun w => .text w.name) ∧
    m.get? namespaceKey = (i.wrapper.bind (·.declares)).map .text := by
  simp [model, aliasKey, rowsQueryKey, filterKey, orderByKey, largeCharOutputKey,
    resultColumnKey, collectionElementNameKey, namespaceKey, Function.comp_def]

theorem SqlXml.GroupParts.ofModel_model (i : GroupInfo) (rowsQuery : String) :
    SqlXml.GroupParts.ofModel i.wrapper.isSome (i.model rowsQuery) = .ok (i.parts rowsQuery) := by
  obtain ⟨h₁, h₂, h₃, h₄, h₅, h₆, h₇, h₈⟩ := i.get?_model rowsQuery
  rw [ofModel, QueryModel.text_of_get? h₁, QueryModel.text_of_get? h₂, QueryModel.text?_of_get? h₃,
    QueryModel.list_of_get? h₄, QueryModel.flag_of_get? h₅, QueryModel.text_of_get? h₆]
  cases hw : i.wrapper with
  | none =>
    simp only [GroupInfo.parts, hw]
    rfl
  | some w =>
    rw [hw] at h₇ h₈
    rw [QueryModel.text_of_get? h₇, QueryModel.text?_of_get? h₈]
    simp only [GroupInfo.parts, hw]
    rfl

namespace SqlXml

theorem backend_rows (indent : Nat) (i : RowsInfo) (columns parents children : List String) :
    backend indent .rows (i.model columns parents children) =
      .ok (joinLines ((i.parts columns parents children).lines
        (String.ofList (List.replicate indent ' ')))) := by
  simp only [backend, RowsParts.ofModel_model, Except.map]

theorem backend_group (indent : Nat) (i : GroupInfo) (rowsQuery : String) :
    backend indent i.shape (i.model rowsQuery) =
      .ok (joinLines ((i.parts rowsQuery).lines (String.ofList (List.replicate indent ' ')))) := by
  have h := GroupParts.ofModel_model i rowsQuery
  rw [GroupInfo.shape]
  cases hw : i.wrapper.isSome with
  | false => simp only [Bool.false_eq_true, reduceIte, backend, hw ▸ h, Except.map]
  | true => simp only [reduceIte, backend, hw ▸ h, Except.map]

end SqlXml

/-- `m` is the model of the rows query, with some texts of what is embedded in it. -/
def RowsPlan.HasModel (q : RowsPlan) (m : QueryModel) : Prop :=
  ∃ columns parents children, q.info.columns = some columns ∧
    m = q.info.model columns parents children

/-- `m` is the model of the group, with some text of its rows query. -/
def Group.HasModel (g : GroupPlan) (m : QueryModel) : Prop :=
  ∃ rowsQuery, m = g.info.model rowsQuery

/-! ## Texts of plans -/

variable {render : QueryShape → QueryModel → Except PublishError String}

theorem RowsInfo.knownColumns_eq_ok {i : RowsInfo} {columns : List String} :
    (i.knownColumns : Except PublishError (List String)) = .ok columns ↔
      i.columns = some columns := by
  unfold RowsInfo.knownColumns
  cases i.columns with
  | none => exact ⟨nofun, nofun⟩
  | some columns' =>
    constructor
    · intro h
      exact congrArg some (Except.ok.inj h)
    · intro h
      exact congrArg Except.ok (Option.some.inj h)

section

variable {m : Type → Type} [Monad m] [LawfulMonad m] [MonadExceptOf PublishError m]
  (render : QueryShape → QueryModel → m String)

theorem RowsPlan.texts_eq_mapM (qs : List RowsPlan) :
    RowsPlan.texts render qs = qs.mapM (·.text render) := by
  induction qs with
  | nil => rw [RowsPlan.texts, List.mapM_nil]
  | cons q qs ih => rw [RowsPlan.texts, List.mapM_cons, ih, RowsPlan.text, bind_assoc]

theorem Group.texts_eq_mapM (gs : List GroupPlan) :
    Group.texts render gs = gs.mapM (·.text render) := by
  induction gs with
  | nil => rw [Group.texts, List.mapM_nil]
  | cons g gs ih =>
    rw [Group.texts, List.mapM_cons, ih, Group.text, Group.model, RowsPlan.text]
    simp only [bind_assoc, pure_bind]

theorem RowsPlan.model_rows (info : RowsInfo) (parents : List RowsPlan)
    (children : List GroupPlan) :
    (RowsPlan.rows info parents children).model render =
      info.knownColumns >>= fun columns =>
        parents.mapM (·.text render) >>= fun ps =>
          children.mapM (·.text render) >>= fun cs => pure (info.model columns ps cs) := by
  rw [RowsPlan.model]
  simp only [RowsPlan.texts_eq_mapM, Group.texts_eq_mapM]

theorem RowsPlan.text_rows (info : RowsInfo) (parents : List RowsPlan)
    (children : List GroupPlan) :
    (RowsPlan.rows info parents children).text render =
      info.knownColumns >>= fun columns =>
        parents.mapM (·.text render) >>= fun ps =>
          children.mapM (·.text render) >>= fun cs => render .rows (info.model columns ps cs) := by
  rw [RowsPlan.text, RowsPlan.model_rows]
  simp only [bind_assoc, pure_bind]

theorem Group.text_eq (g : GroupPlan) :
    g.text render =
      g.rows.text render >>= fun rowsQuery => render g.info.shape (g.info.model rowsQuery) := by
  rw [Group.text, Group.model, bind_assoc]
  simp only [pure_bind]

end

/-- A group has a text when its rows query has one that its own can be written around. -/
theorem Group.text_eq_ok {g : GroupPlan} {t : String} :
    g.text render = .ok t ↔ ∃ rowsQuery, g.rows.text render = .ok rowsQuery ∧
      render g.info.shape (g.info.model rowsQuery) = .ok t := by
  rw [Group.text_eq, bind_eq_ok]

/-- A rows query has a text when its columns are known and everything inside it has a text that its
own can be written around. -/
theorem RowsPlan.text_eq_ok {info : RowsInfo} {parents : List RowsPlan} {children : List GroupPlan}
    {t : String} :
    (RowsPlan.rows info parents children).text render = .ok t ↔
      ∃ columns ps cs, info.columns = some columns ∧
        List.Forall₂ (fun q t => q.text render = .ok t) parents ps ∧
        List.Forall₂ (fun g t => g.text render = .ok t) children cs ∧
        render .rows (info.model columns ps cs) = .ok t := by
  rw [RowsPlan.text_rows]
  simp only [bind_eq_ok, RowsInfo.knownColumns_eq_ok, mapM_eq_ok]
  constructor
  · intro h
    obtain ⟨columns, hcolumns, ps, hps, cs, hcs, ht⟩ := h
    exact ⟨columns, ps, cs, hcolumns, hps, hcs, ht⟩
  · intro h
    obtain ⟨columns, ps, cs, hcolumns, hps, hcs, ht⟩ := h
    exact ⟨columns, hcolumns, ps, hps, cs, hcs, ht⟩

/-! ## Texts of the standard backend -/

section

open SqlXml

variable {p : Publisher} {indent : Nat}

theorem Publisher.render_rows (hp : p.backend = SqlXml.backend indent) (i : RowsInfo)
    (columns parents children : List String) :
    p.render .rows (i.model columns parents children) =
      .ok (joinLines ((i.parts columns parents children).lines
        (String.ofList (List.replicate indent ' ')))) := by
  rw [Publisher.render, hp, backend_rows, Except.mapError]

theorem Publisher.render_group (hp : p.backend = SqlXml.backend indent) (i : GroupInfo)
    (rowsQuery : String) :
    p.render i.shape (i.model rowsQuery) =
      .ok (joinLines ((i.parts rowsQuery).lines (String.ofList (List.replicate indent ' ')))) := by
  rw [Publisher.render, hp, backend_group, Except.mapError]

theorem Group.text_eq_ok_of_standard (hp : p.backend = SqlXml.backend indent) {g : GroupPlan}
    {t : String} :
    g.text p.render = .ok t ↔ ∃ rowsQuery, g.rows.text p.render = .ok rowsQuery ∧
      joinLines ((g.info.parts rowsQuery).lines (String.ofList (List.replicate indent ' '))) =
        t := by
  rw [Group.text_eq_ok]
  refine exists_congr fun rowsQuery => and_congr_right fun _ => ?_
  rw [Publisher.render_group hp, Except.ok.injEq]

/-- What holds of the text of a rows query if it holds of the texts of all queries inside it holds
of the texts of all plans. -/
theorem RowsPlan.text_induction (hp : p.backend = SqlXml.backend indent)
    (R : RowsPlan → String → Prop) (G : GroupPlan → String → Prop)
    (rows : ∀ info parents children columns ps cs, List.Forall₂ R parents ps →
      List.Forall₂ G children cs → R (.rows info parents children)
        (joinLines ((info.parts columns ps cs).lines (String.ofList (List.replicate indent ' ')))))
    (group : ∀ (g : GroupPlan) rowsQuery, R g.rows rowsQuery →
      G g (joinLines ((g.info.parts rowsQuery).lines (String.ofList (List.replicate indent ' ')))))
    {q : RowsPlan} {text : String} (h : q.text p.render = .ok text) : R q text := by
  induction q generalizing text with
  | rows info parents children ihParents ihChildren =>
    obtain ⟨columns, ps, cs, -, hps, hcs, htext⟩ := RowsPlan.text_eq_ok.1 h
    rw [Publisher.render_rows hp] at htext
    cases htext
    refine rows info parents children columns ps cs ?_ ?_
    · exact forall₂_imp_of_mem hps fun q hq t _ ht => ihParents q hq ht
    · refine forall₂_imp_of_mem hcs fun g hg t _ ht => ?_
      obtain ⟨rowsQuery, hrows, rfl⟩ := (Group.text_eq_ok_of_standard hp).1 ht
      exact group g rowsQuery (ihChildren g hg hrows)

end

end XmlPublishing

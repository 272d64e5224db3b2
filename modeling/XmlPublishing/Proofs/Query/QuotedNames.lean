import Mathlib.Tactic.MkIffOfInductiveProp
import XmlPublishing.Proofs.Agreement
import XmlPublishing.Proofs.Query.Aliases
import XmlPublishing.Proofs.Query.Rendering
import XmlPublishing.Proofs.Query.Tokens
import XmlPublishing.Proofs.Text.Case

/-!
Names of elements cannot change the SQL around them.

Two layouts that differ only in the names of elements (`Layout.unnamed`) have queries that fail
alike, or differ only inside of quotes (`Publisher.masked_eq_of_unnamed_eq`): the names may be any
text. All else that a query is made of is written as it is, so relations, fields and the caller's
alias must not contain quotes themselves. That includes the fields of the schema wherever a query
selects all of them. A condition of the caller's may contain quotes: it stands after everything that
has a name in it.
-/

namespace XmlPublishing

open Text SqlXml

/-! ## Layouts without names -/

def NodeInfo.unnamed (i : NodeInfo) : NodeInfo := { i with rowName := "", collectionName := "" }

theorem NodeInfo.eq_of_unnamed_eq {i i' : NodeInfo} (h : i.unnamed = i'.unnamed) :
    i' = { i with rowName := i'.rowName, collectionName := i'.collectionName } := by
  cases i
  cases i'
  simpa [unnamed, eq_comm] using h

namespace Layout

mutual
/-- The layout with empty names for all elements. -/
def unnamed : Layout → Layout
  | .node info parents children =>
    .node info.unnamed (unnamedAll parents) (unnamedAll children)
termination_by structural n => n
def unnamedAll : List (Joined Layout) → List (Joined Layout)
  | [] => []
  | ⟨key, n⟩ :: es => ⟨key, n.unnamed⟩ :: unnamedAll es
termination_by structural es => es
end

/-- Embedded layouts that differ at most in names. -/
def SameUnnamed (e e' : Joined Layout) : Prop :=
  e.key = e'.key ∧ e.layout.unnamed = e'.layout.unnamed

theorem unnamedAll_eq_iff {es es' : List (Joined Layout)} :
    unnamedAll es = unnamedAll es' ↔ List.Forall₂ SameUnnamed es es' := by
  induction es generalizing es' with
  | nil => cases es' <;> simp [unnamedAll]
  | cons e es ih =>
    cases es' with
    | nil => simp [unnamedAll]
    | cons e' es' => simp [unnamedAll, SameUnnamed, ih]

theorem unnamed_node_eq_iff {i i' : NodeInfo} {ps ps' cs cs' : List (Joined Layout)} :
    (node i ps cs).unnamed = (node i' ps' cs').unnamed ↔
      i.unnamed = i'.unnamed ∧ List.Forall₂ SameUnnamed ps ps' ∧
        List.Forall₂ SameUnnamed cs cs' := by
  rw [unnamed, unnamed, node.injEq, unnamedAll_eq_iff, unnamedAll_eq_iff]

theorem info_unnamed_eq {n n' : Layout} (h : n.unnamed = n'.unnamed) :
    n.info.unnamed = n'.info.unnamed := by
  cases n
  cases n'
  exact (unnamed_node_eq_iff.1 h).1

theorem relation_eq_of_unnamed_eq {n n' : Layout} (h : n.unnamed = n'.unnamed) :
    n.relation = n'.relation := by
  have hrelation := congrArg NodeInfo.relation (info_unnamed_eq h)
  exact hrelation

/-- What a node writes outside of quotes has no quotes in it: relation, fields, sort order, and the
fields of the keys that join what is embedded. -/
@[mk_iff]
structure RootQuoteFree (n : Layout) : Prop where
  relation : QuoteFree n.relation.text
  fields : ∀ field ∈ n.fields, QuoteFree field
  order : ∀ term ∈ n.info.sortTerms, QuoteFree term.field
  keys : ∀ e ∈ n.parents ++ n.children, ∀ pair ∈ e.key.pairs,
    QuoteFree pair.1 ∧ QuoteFree pair.2

instance (n : Layout) : Decidable n.RootQuoteFree :=
  decidable_of_iff' _ (rootQuoteFree_iff n)

/-- No node writes quotes outside of quotes. -/
def QuoteFree (n : Layout) : Prop := ∀ m ∈ n.nodes, m.RootQuoteFree

instance (n : Layout) : Decidable n.QuoteFree :=
  inferInstanceAs (Decidable (∀ m ∈ n.nodes, m.RootQuoteFree))

end Layout

/-- The fields that the schema lists for a relation have no quotes in them. -/
def Schema.FieldsQuoteFree (s : Schema) (r : RelationId) : Prop :=
  ∀ fields ∈ s.fields? r, ∀ field ∈ fields, Text.QuoteFree field.name

instance (s : Schema) (r : RelationId) : Decidable (s.FieldsQuoteFree r) :=
  inferInstanceAs (Decidable (∀ fields ∈ s.fields? r, ∀ field ∈ fields, Text.QuoteFree field.name))

/-- Of all embedded children, whose rows are selected with all fields of their relations, the schema
lists no field with quotes in it. -/
def Layout.ChildFieldsQuoteFree (s : Schema) (n : Layout) : Prop :=
  ∀ m ∈ n.nodes, ∀ e ∈ m.children, s.FieldsQuoteFree e.layout.relation

instance (s : Schema) (n : Layout) : Decidable (n.ChildFieldsQuoteFree s) :=
  inferInstanceAs (Decidable (∀ m ∈ n.nodes, ∀ e ∈ m.children, s.FieldsQuoteFree e.layout.relation))

/-! ## Aliases -/

namespace Text

theorem notMem_marks_of_isAlphanum {c : Char} (h : c.isAlphanum) : c ∉ marks := by
  have hmarks : marks.all fun c => !c.isAlphanum := rfl
  intro hc
  have hnot := List.all_eq_true.1 hmarks c hc
  rw [h] at hnot
  cases hnot

theorem toLower_notMem_marks {c : Char} (h : c.isAlpha) : c.toLower ∉ marks := by
  revert h
  refine toLower_cases (by decide +kernel) (fun c hc h => ?_) c
  rw [hc]
  exact notMem_marks_of_isAlphanum (Bool.or_eq_true_iff.2 (.inl h))

theorem isQuote_eq_false_of_notMem_marks {c : Char} (h : c ∉ marks) : isQuote c = false := by
  rw [Bool.eq_false_iff]
  intro hc
  rw [isQuote, Bool.or_eq_true, decide_eq_true_eq, decide_eq_true_eq] at hc
  rcases hc with rfl | rfl
  · exact h (by decide)
  · exact h (by decide)

end Text

theorem SqlXml.Plain.quoteFree {s : String} (h : Plain s) : QuoteFree s :=
  fun c hc => isQuote_eq_false_of_notMem_marks (h c hc)

namespace Aliases

variable (s : Aliases) (r : RelationId)

theorem plain_fresh : Plain (s.fresh r) := by
  intro c hc
  rcases mem_fresh hc with hdigit | ⟨letter, hletter, rfl⟩
  · exact notMem_marks_of_isAlphanum (Bool.or_eq_true_iff.2 (.inr hdigit))
  · exact toLower_notMem_marks hletter

theorem quoteFree_fresh : QuoteFree (s.fresh r) := (s.plain_fresh r).quoteFree

variable {P : String → Prop}

theorem introduceAs_of_fresh {name? : Option String} (hfresh : P (s.fresh r))
    (h : ∀ name ∈ name?, P name) : P (s.introduceAs name? r).1 := by
  cases name? with
  | none => exact hfresh
  | some name => exact h name rfl

end Aliases

/-! ## Characters of plans -/

theorem quoteFree_unit (indent : Nat) : QuoteFree (String.ofList (List.replicate indent ' ')) := by
  intro c hc
  rw [String.toList_ofList] at hc
  rw [List.eq_of_mem_replicate hc]
  rfl

section

variable {ok : Char → Prop}

theorem SqlXml.Plain.imp {s : String} (h : Plain s) (hok : ∀ c ∉ marks, ok c) :
    ∀ c ∈ s.toList, ok c := fun c hc => hok c (h c hc)

theorem Text.forall_mem_append {s s' : String} :
    (∀ c ∈ (s ++ s').toList, ok c) ↔ (∀ c ∈ s.toList, ok c) ∧ ∀ c ∈ s'.toList, ok c := by
  rw [String.toList_append, List.forall_mem_append]

theorem forall_mem_orderByTexts (hok : ∀ c ∉ marks, ok c) {name : String}
    (hname : ∀ c ∈ name.toList, ok c) {terms : List SortTerm}
    (hterms : ∀ term ∈ terms, ∀ c ∈ term.field.toList, ok c) :
    ∀ text ∈ orderByTexts name terms, ∀ c ∈ text.toList, ok c := by
  intro text htext
  obtain ⟨term, hterm, rfl⟩ := List.mem_map.1 htext
  have hdot : Plain "." := by decide
  have hblank : Plain " " := by decide
  have hkeyword : Plain term.direction.keyword := by cases term.direction <;> decide
  rw [SortTerm.text]
  simp only [Text.forall_mem_append]
  exact ⟨⟨hname, hdot.imp hok⟩, ⟨hterms term hterm, hblank.imp hok⟩, hkeyword.imp hok⟩

theorem Join.forall_mem_text (hok : ∀ c ∉ marks, ok c) {j : Join}
    (hchild : ∀ c ∈ j.childAlias.toList, ok c) (hparent : ∀ c ∈ j.parentAlias.toList, ok c)
    (hpairs : ∀ pair ∈ j.pairs, (∀ c ∈ pair.1.toList, ok c) ∧ ∀ c ∈ pair.2.toList, ok c) :
    ∀ c ∈ j.text.toList, ok c := by
  have hand : Plain " and " := by decide
  refine forall_mem_intercalate (hand.imp hok) fun text htext => ?_
  obtain ⟨pair, hpair, rfl⟩ := List.mem_map.1 htext
  obtain ⟨hfield, hfield'⟩ := hpairs pair hpair
  have hdot : Plain "." := by decide
  have hequals : Plain " = " := by decide
  have hsides : (∀ c ∈ (j.childAlias ++ "." ++ pair.1).toList, ok c) ∧
      ∀ c ∈ (j.parentAlias ++ "." ++ pair.2).toList, ok c := by
    simp only [Text.forall_mem_append]
    exact ⟨⟨⟨hchild, hdot.imp hok⟩, hfield⟩, ⟨hparent, hdot.imp hok⟩, hfield'⟩
  dsimp only
  split
  · rw [Text.forall_mem_append, Text.forall_mem_append]
    exact ⟨⟨hsides.1, hequals.imp hok⟩, hsides.2⟩
  · rw [Text.forall_mem_append, Text.forall_mem_append]
    exact ⟨⟨hsides.2, hequals.imp hok⟩, hsides.1⟩

end

/-- The plain columns are fields of the node, or all that the schema lists. -/
theorem Planner.forall_mem_columns {P : String → Prop} {planner : Planner} {i : NodeInfo}
    {plain : PlainColumns} (hfields : ∀ field ∈ i.fields, P field)
    (hall : plain = .all →
      ∀ fields ∈ planner.schema.fields? i.relation, ∀ field ∈ fields, P field.name) :
    ∀ columns ∈ planner.columns i plain, ∀ column ∈ columns, P column := by
  intro columns hcolumns column hcolumn
  cases plain with
  | omitted =>
    cases hcolumns
    cases hcolumn
  | included =>
    cases hcolumns
    exact hfields column hcolumn
  | all =>
    obtain ⟨fields, hfound, rfl⟩ := Option.map_eq_some_iff.1 hcolumns
    obtain ⟨field, hfield, rfl⟩ := List.mem_map.1 hcolumn
    exact hall rfl fields hfound field hfield

theorem quoteFree_orderByTexts {name : String} (hname : QuoteFree name) {terms : List SortTerm}
    (hterms : ∀ term ∈ terms, QuoteFree term.field) :
    ∀ term ∈ orderByTexts name terms, QuoteFree term :=
  forall_mem_orderByTexts (fun _ => isQuote_eq_false_of_notMem_marks) hname hterms

theorem Join.quoteFree_text {j : Join} (hchild : QuoteFree j.childAlias)
    (hparent : QuoteFree j.parentAlias)
    (hpairs : ∀ pair ∈ j.pairs, QuoteFree pair.1 ∧ QuoteFree pair.2) : QuoteFree j.text :=
  j.forall_mem_text (fun _ => isQuote_eq_false_of_notMem_marks) hchild hparent hpairs

/-- What a rows query writes outside of quotes, up to its clauses. -/
structure RowsInfo.QuoteFree (i : RowsInfo) : Prop where
  relation : Text.QuoteFree i.relation.text
  name : Text.QuoteFree i.name
  columns : ∀ columns ∈ i.columns, ∀ column ∈ columns, Text.QuoteFree column
  fields : ∀ field ∈ i.fields, Text.QuoteFree field

/-- The clauses of a rows query. -/
def RowsInfo.clauses (i : RowsInfo) : List String :=
  tail (i.filter.map Filter.text) (orderByTexts i.name i.order)

/-- The clauses of a group. -/
def GroupInfo.clauses (i : GroupInfo) : List String := tail (i.filter.map Filter.text) []

section

variable {p : Publisher} {indent : Nat}

/-- Texts that agree: both plans fail alike, or their texts differ at most inside of quotes. -/
abbrev SameTexts (t t' : Except PublishError String) : Prop := Agree Eq SameText t t'

theorem RowsPlan.text_sameBefore (hp : p.backend = SqlXml.backend indent) {info : RowsInfo}
    (hinfo : info.QuoteFree) (rowName : String) {parents parents' : List RowsPlan}
    (hparents : List.Forall₂ (fun q q' => SameTexts (q.text p.render) (q'.text p.render))
      parents parents') {children children' : List GroupPlan}
    (hchildren : List.Forall₂ (fun g g' => SameTexts (g.text p.render) (g'.text p.render))
      children children') :
    Agree Eq (SameBefore info.clauses) ((RowsPlan.rows info parents children).text p.render)
      ((RowsPlan.rows { info with rowName } parents' children').text p.render) := by
  have hcolumn : QuoteFree rowXmlColumn := by decide
  rw [RowsPlan.text_rows, RowsPlan.text_rows]
  have hknown : Agree Eq (fun columns columns' => columns = columns' ∧ columns ∈ info.columns)
      (info.knownColumns : Except PublishError (List String))
      (RowsInfo.knownColumns { info with rowName }) := by
    unfold RowsInfo.knownColumns
    dsimp only
    cases info.columns with
    | none => exact .error rfl
    | some columns => exact .ok ⟨rfl, rfl⟩
  refine hknown.bind fun columns _ hcolumns => ?_
  obtain ⟨rfl, hcolumns⟩ := hcolumns
  refine (Agree.mapM hparents).bind fun ps ps' hps => ?_
  refine (Agree.mapM hchildren).bind fun cs cs' hcs => ?_
  rw [Publisher.render_rows hp, Publisher.render_rows hp]
  exact .ok (sameBefore_rowsLines (quoteFree_unit indent) (q := info.parts columns ps cs)
    hinfo.relation hinfo.name hcolumn (hinfo.columns columns hcolumns) hinfo.fields rowName hps hcs)

theorem Group.text_sameBefore (hp : p.backend = SqlXml.backend indent) {info : GroupInfo}
    (hname : QuoteFree info.name) (horder : ∀ term ∈ info.order, QuoteFree term.field)
    (collectionName : String) {rows rows' : RowsPlan}
    (hrows : SameTexts (rows.text p.render) (rows'.text p.render)) :
    Agree Eq (SameBefore info.clauses) (Group.text p.render ⟨info, rows⟩)
      (Group.text p.render ⟨{ info with
        wrapper := info.wrapper.map fun w => { w with name := collectionName } }, rows'⟩) := by
  have hcolumn : QuoteFree collectionXmlColumn := by decide
  rw [Group.text_eq, Group.text_eq]
  refine hrows.bind fun rowsQuery rowsQuery' hquery => ?_
  have hparts : GroupInfo.parts { info with
        wrapper := info.wrapper.map fun w => { w with name := collectionName } } rowsQuery' =
      { info.parts rowsQuery with
        rowsQuery := rowsQuery'
        wrapper := (info.parts rowsQuery).wrapper.map fun w => (collectionName, w.2) } := by
    rw [GroupInfo.parts, GroupInfo.parts, Option.map_map, Option.map_map]
    rfl
  rw [Publisher.render_group hp, Publisher.render_group hp, hparts]
  exact .ok (sameBefore_groupLines (quoteFree_unit indent) (q := info.parts rowsQuery) hname hcolumn
    (quoteFree_orderByTexts hname horder) hquery collectionName)

/-! ## Queries -/

namespace Planner

variable {n n' : Layout}

theorem quoteFree_rowsInfo (planner : Planner) (hn : n.RootQuoteFree) {name : String}
    (hname : QuoteFree name) (filter : Option Filter) {columns : RowColumns}
    (hknown : columns.plain = .all → planner.schema.FieldsQuoteFree n.relation)
    (ambient : Option String) (sorted : Bool) :
    (planner.rowsInfo n.info name filter columns ambient sorted).QuoteFree where
  relation := hn.relation
  name := hname
  columns := forall_mem_columns hn.fields hknown
  fields := hn.fields

theorem group_sameBefore (hp : p.backend = SqlXml.backend indent) {i i' : NodeInfo}
    (hnames : i.unnamed = i'.unnamed) (horder : ∀ term ∈ i.sortTerms, Text.QuoteFree term.field)
    {name : String} (hname : Text.QuoteFree name) (filter : Option Filter) (xmlType : XmlType)
    (ambient : Option String) (style : CollectionStyle) {rows rows' : RowsPlan}
    (hrows : SameTexts (rows.text p.render) (rows'.text p.render)) :
    Agree Eq (SameBefore (tail (filter.map Filter.text) []))
      (Group.text p.render ⟨groupInfo i name filter xmlType ambient style, rows⟩)
      (Group.text p.render ⟨groupInfo i' name filter xmlType ambient style, rows'⟩) := by
  let info := groupInfo i name filter xmlType ambient style
  have hinfo : groupInfo i' name filter xmlType ambient style =
      { info with wrapper := info.wrapper.map fun w => { w with name := i'.collectionName } } := by
    rw [NodeInfo.eq_of_unnamed_eq hnames]
    cases style <;> rfl
  rw [hinfo]
  exact @Group.text_sameBefore p indent hp info hname horder i'.collectionName rows rows' hrows

/-- With any alias, the rows queries of the two layouts fail alike, or differ only inside of quotes
up to their clauses. Where they select all fields, the schema must list none with quotes in it. -/
def SameRows (p : Publisher) (n n' : Layout) : Prop :=
  ∀ name, Text.QuoteFree name →
    ∀ (aliases : Aliases) (filter : Option Filter) (columns : RowColumns),
      (columns.plain = .all → p.schema.FieldsQuoteFree n.relation) →
      ∀ (ambient : Option String) (sorted : Bool),
      Agree Eq (SameBefore (tail (filter.map Filter.text)
          (orderByTexts name (if sorted then n.info.sortTerms else []))))
        ((p.planner.rows name aliases filter columns ambient sorted n).text p.render)
        ((p.planner.rows name aliases filter columns ambient sorted n').text p.render)

theorem closed_filter {filter : Option Filter} (h : ∀ f ∈ filter, Text.QuoteFree f.text) :
    ∀ line ∈ tail (filter.map Filter.text) [], Closed line := by
  refine closed_tail (fun text htext => ?_) nofun
  obtain ⟨f, hf, rfl⟩ := Option.map_eq_some_iff.1 htext
  exact h f hf

/-- A rows query in another query, whose rows are in no order. -/
theorem SameRows.nested (h : SameRows p n n') {name : String} (hname : Text.QuoteFree name)
    (aliases : Aliases) {filter : Option Filter} (hfilter : ∀ f ∈ filter, Text.QuoteFree f.text)
    {columns : RowColumns} (hcolumns : columns.plain = .all → p.schema.FieldsQuoteFree n.relation)
    (ambient : Option String) :
    SameTexts ((p.planner.rows name aliases filter columns ambient false n).text p.render)
      ((p.planner.rows name aliases filter columns ambient false n').text p.render) :=
  (h name hname aliases filter columns hcolumns ambient false).imp fun _ _ ht =>
    ht.sameText (closed_filter hfilter)

theorem SameRows.parent {e e' : Joined Layout} (h : SameRows p e.layout e'.layout)
    (hsame : Layout.SameUnnamed e e') (hpairs : ∀ pair ∈ e.key.pairs,
      Text.QuoteFree pair.1 ∧ Text.QuoteFree pair.2) {name : String} (hname : Text.QuoteFree name)
    (aliases : Aliases) (ambient : Option String) :
    SameTexts ((p.planner.parent name aliases ambient e).text p.render)
      ((p.planner.parent name aliases ambient e').text p.render) := by
  obtain ⟨hkey, hlayout⟩ := hsame
  have hparent := aliases.quoteFree_fresh e.layout.relation
  rw [Planner.parent, Planner.parent, ← hkey, ← Layout.relation_eq_of_unnamed_eq hlayout]
  refine h.nested hparent _ (fun f hf => ?_) (fun hall => ?_) ambient
  · cases hf
    exact Join.quoteFree_text hname hparent hpairs
  · cases hall

theorem SameRows.groupRows (h : SameRows p n n') (hnames : n.unnamed = n'.unnamed)
    (hknown : p.schema.FieldsQuoteFree n.relation) (aliases : Aliases) (ambient : Option String)
    (style : CollectionStyle) :
    SameTexts ((p.planner.groupRows aliases ambient n style).text p.render)
      ((p.planner.groupRows aliases ambient n' style).text p.render) := by
  have hambient : rowsAmbient n'.info ambient style = rowsAmbient n.info ambient style := by
    rw [NodeInfo.eq_of_unnamed_eq (Layout.info_unnamed_eq hnames)]
    cases style <;> rfl
  rw [Planner.groupRows, Planner.groupRows, ← Layout.relation_eq_of_unnamed_eq hnames, hambient]
  refine h.nested (aliases.quoteFree_fresh n.relation) _ (fun f hf => ?_) (fun _ => hknown) _
  cases hf

theorem SameRows.child (hp : p.backend = SqlXml.backend indent) {e e' : Joined Layout}
    (h : SameRows p e.layout e'.layout) (hsame : Layout.SameUnnamed e e')
    (hknown : p.schema.FieldsQuoteFree e.layout.relation)
    (horder : ∀ term ∈ e.layout.info.sortTerms, Text.QuoteFree term.field)
    (hpairs : ∀ pair ∈ e.key.pairs, Text.QuoteFree pair.1 ∧ Text.QuoteFree pair.2)
    {name : String} (hname : Text.QuoteFree name) (aliases : Aliases) (ambient : Option String)
    (style : CollectionStyle) :
    SameTexts (Group.text p.render (p.planner.child name aliases ambient style e))
      (Group.text p.render (p.planner.child name aliases ambient style e')) := by
  obtain ⟨hkey, hlayout⟩ := hsame
  have hchild := aliases.quoteFree_fresh e.layout.relation
  have hrows := h.groupRows hlayout hknown (aliases.introduce e.layout.relation).2 ambient style
  rw [Planner.child, Planner.child, ← hkey, ← Layout.relation_eq_of_unnamed_eq hlayout]
  refine (group_sameBefore hp (Layout.info_unnamed_eq hlayout) horder hchild _ .xml ambient style
    hrows).imp fun _ _ ht => ht.sameText (closed_filter fun f hf => ?_)
  cases hf
  exact Join.quoteFree_text hchild hname hpairs

theorem sameRows (hp : p.backend = SqlXml.backend indent) (hn : n.QuoteFree)
    (hknown : n.ChildFieldsQuoteFree p.schema) (hnames : n.unnamed = n'.unnamed) :
    SameRows p n n' := by
  induction n generalizing n' with
  | node info parents children ihParents ihChildren =>
    intro name hname aliases filter columns hcolumns ambient sorted
    obtain ⟨info', parents', children'⟩ := n'
    obtain ⟨hinfo, hparents, hchildren⟩ := Layout.unnamed_node_eq_iff.1 hnames
    obtain ⟨hroot, hrootParents, hrootChildren⟩ := Layout.forall_mem_nodes.1 hn
    obtain ⟨hknownRoot, hknownParents, hknownChildren⟩ := Layout.forall_mem_nodes.1 hknown
    have hrows := p.planner.quoteFree_rowsInfo hroot hname filter hcolumns ambient sorted
    have hinfo := NodeInfo.eq_of_unnamed_eq hinfo
    have hinfo' : p.planner.rowsInfo info' name filter columns ambient sorted =
        { p.planner.rowsInfo info name filter columns ambient sorted with
          rowName := info'.rowName } := by
      rw [hinfo]
      rfl
    have hns : info'.ns = info.ns := by rw [hinfo]
    have hstyle : info'.style = info.style := by rw [hinfo]
    rw [rows_node, rows_node, hinfo', hns, hstyle]
    refine RowsPlan.text_sameBefore hp hrows info'.rowName ?_ ?_
    · rw [List.forall₂_map_left_iff, List.forall₂_map_right_iff]
      refine forall₂_imp_of_mem hparents fun e he e' _ hsame => ?_
      have hsub := ihParents e he (hrootParents e he) (hknownParents e he) hsame.2
      exact hsub.parent hsame (hroot.keys e (List.mem_append_left _ he)) hname ..
    · rw [List.forall₂_map_left_iff, List.forall₂_map_right_iff]
      refine forall₂_imp_of_mem hchildren fun e he e' _ hsame => ?_
      have hsub := ihChildren e he (hrootChildren e he) (hknownChildren e he) hsame.2
      have horder := (hrootChildren e he e.layout (Layout.self_mem_nodes _)).order
      have hpairs := hroot.keys e (List.mem_append_right _ he)
      exact hsub.child hp hsame (hknownRoot e he) horder hpairs hname ..

end Planner

/-- Layouts that differ at most in the names of elements have queries that fail alike, or that are
the same when everything quoted is masked. Their relations, fields and sort orders and the caller's
alias must have no quotes in them, nor the fields of the schema where all of them are selected. -/
theorem Publisher.masked_eq_of_unnamed_eq (hp : p.backend = SqlXml.backend indent) {n n' : Layout}
    (hnames : n.unnamed = n'.unnamed) (hn : n.QuoteFree)
    (hchildren : n.ChildFieldsQuoteFree p.schema) {name? : Option String}
    (hname : ∀ name ∈ name?, QuoteFree name) (filter ambient : Option String) :
    (∀ columns : RowColumns, (columns.plain = .all → p.schema.FieldsQuoteFree n.relation) →
        (p.rows n name? filter columns ambient).map masked =
          (p.rows n' name? filter columns ambient).map masked) ∧
      (p.schema.FieldsQuoteFree n.relation →
        (∀ xmlType, (p.collection n name? filter xmlType ambient).map masked =
          (p.collection n' name? filter xmlType ambient).map masked) ∧
        (p.forest n name? filter ambient).map masked =
          (p.forest n' name? filter ambient).map masked) := by
  have hrows := Planner.sameRows hp hn hchildren hnames
  have hfresh := Aliases.empty.quoteFree_fresh n.relation
  have halias := Aliases.empty.introduceAs_of_fresh n.relation hfresh hname
  have hgroup (hknown : p.schema.FieldsQuoteFree n.relation) (xmlType : XmlType)
      (style : CollectionStyle) :
      ((p.planner.topGroup n name? filter xmlType ambient style).text p.render).map masked =
        ((p.planner.topGroup n' name? filter xmlType ambient style).text p.render).map masked := by
    rw [Planner.topGroup_eq, Planner.topGroup_eq, ← Layout.relation_eq_of_unnamed_eq hnames]
    have horder := (hn n n.self_mem_nodes).order
    exact (Planner.group_sameBefore hp (Layout.info_unnamed_eq hnames) horder halias _ xmlType
      ambient style (hrows.groupRows hnames hknown _ ambient style)).map_eq
        fun t t' ht => ht.masked_eq
  refine ⟨fun columns hcolumns => ?_, fun hknown => ⟨fun xmlType => hgroup hknown xmlType .wrapped,
    hgroup hknown .xml .inline⟩⟩
  rw [rows, rows, Planner.topRows, Planner.topRows, ← Layout.relation_eq_of_unnamed_eq hnames]
  exact (hrows _ halias _ _ _ hcolumns ..).map_eq fun t t' ht => ht.masked_eq

end

namespace Staff

/-- The team with quotes, brackets, commas and ends of lines in its names. -/
def oddTeam : Layout :=
  .node { team.info with rowName := "x\"), ('\n\ny\"", collectionName := "\"\r\n" }
    [⟨bossKey, alone.renameRows "'"⟩]
    [⟨bossKey, .node { withBoss.info with rowName := "\n", collectionName := "\"" }
      [⟨bossKey, alone.renameRows "\"\""⟩] []⟩]

theorem oddTeam_masked_eq :
    team.unnamed = oddTeam.unnamed ∧ team.QuoteFree ∧ team.ChildFieldsQuoteFree schema ∧
      schema.FieldsQuoteFree team.relation ∧
      ∀ columns,
        (publisher.rows team (some "x") (some "x.id = '\"") columns (some "a'")).map masked =
          (publisher.rows oddTeam (some "x") (some "x.id = '\"") columns
            (some "a'")).map masked := by
  have hp : publisher.backend = SqlXml.backend 2 := rfl
  have hnames : team.unnamed = oddTeam.unnamed := rfl
  have hfree : team.QuoteFree := by decide +kernel
  have hchildren : team.ChildFieldsQuoteFree schema := by decide +kernel
  have hknown : schema.FieldsQuoteFree team.relation := by decide +kernel
  have hname : ∀ name ∈ some "x", QuoteFree name := by decide
  obtain ⟨hrows, -⟩ := Publisher.masked_eq_of_unnamed_eq hp hnames hfree hchildren hname
    (some "x.id = '\"") (some "a'")
  exact ⟨hnames, hfree, hchildren, hknown, fun columns => hrows columns fun _ => hknown⟩

/-- Employees with a quote in the name of a field. -/
def quotedSchema : Schema where
  caseSensitivity := .preserve
  relations := [⟨employee, .table, [{ name := "id" }, { name := "a\"b" }]⟩]
  foreignKeys := []
  distinct := List.pairwise_singleton _ _
  fits := nofun

def quotedPublisher : Publisher := ⟨quotedSchema, SqlXml.backend 2, {}⟩

def onlyId : Layout := .leaf ⟨employee, ["id"], "x", "xs", .wrapped, none, none⟩

/-- Fields that the layout leaves out count, too: among all columns, one with a quote in it turns
the name that follows inside out. -/
theorem onlyId_masked_ne :
    let renamed := onlyId.renameRows "y"
    onlyId.unnamed = renamed.unnamed ∧ onlyId.QuoteFree ∧ renamed.QuoteFree ∧
      Publisher.ofSchema? (some quotedSchema) none {} = .ok quotedPublisher ∧
      (quotedPublisher.rows onlyId none none ⟨.all, .xml⟩ none).map masked ≠
        (quotedPublisher.rows renamed none none ⟨.all, .xml⟩ none).map masked := by
  refine ⟨rfl, by decide, by decide, rfl, ?_⟩
  have htext : (quotedPublisher.rows onlyId none none ⟨.all, .xml⟩ none).map masked =
      .ok "select\n  e.id,\n  e.a\"x\"id\"" := rfl
  have hrenamed : (quotedPublisher.rows (onlyId.renameRows "y") none none ⟨.all, .xml⟩ none).map
      masked = .ok "select\n  e.id,\n  e.a\"y\"id\"" := rfl
  rw [htext, hrenamed]
  nofun

end Staff

end XmlPublishing

import Mathlib.Data.List.Nodup
import XmlPublishing.Proofs.Layout.Built

/-!
Which elements of a row can be told apart.

At every node of a layout built over a schema, the names of the embedded elements differ from each
other and from those of the fields (`BuiltOver.allApart`): edits check the names of what they put
next to each other, and taking fields away keeps names apart. The fields are not compared with each
other. So all names in a row are different exactly when those of its fields are
(`BuiltOver.nodup_elementNames_iff`), and a selection that repeats a field gives two elements of one
name (`Staff.selectFields_repeats_name`).
-/

namespace XmlPublishing

namespace Layout

variable {s : Schema} {d : Defaults} {n n' : Layout}

/-- The names of all elements in a row, in small letters: the fields, the rows of parents, and the
collections or rows of children. -/
def elementNames (n : Layout) : List String :=
  (n.fields ++ n.parents.map (·.layout.rowName) ++
    n.children.map (·.layout.contentName n.style)).map Text.lower

theorem elementNames_eq (n : Layout) :
    n.elementNames = n.fields.map Text.lower ++ n.embeddedNames := by
  rw [elementNames, embeddedNames, contentNames, List.append_assoc, List.map_append]
  simp only [List.map_append, List.map_map, Function.comp_def]

theorem NamesApart.nodup_iff_fields (h : n.NamesApart) :
    n.elementNames.Nodup ↔ (n.fields.map Text.lower).Nodup := by
  rw [elementNames_eq, List.nodup_append']
  exact ⟨And.left, fun hfields => ⟨hfields, h.nodup, h.disjoint⟩⟩

/-- At all nodes, the embedded elements can be told apart. -/
def AllApart (n : Layout) : Prop := ∀ m ∈ n.nodes, m.NamesApart

theorem allApart_leaf (info : NodeInfo) : (leaf info).AllApart :=
  forall_mem_nodes.2 ⟨⟨List.nodup_nil, List.disjoint_nil_right _⟩, nofun, nofun⟩

theorem allApart_of_child {k : ForeignKey} {style : CollectionStyle}
    (h : d.child k style = .ok n) : n.AllApart := by
  obtain ⟨fields, rowName, collectionName, -, -, -, rfl⟩ := Defaults.child_eq_ok_iff.1 h
  exact allApart_leaf _

theorem allApart_of_parent {k : ForeignKey} {style : CollectionStyle}
    (h : d.parent k style = .ok n) : n.AllApart := by
  obtain ⟨fields, rowName, -, -, rfl⟩ := Defaults.parent_eq_ok_iff.1 h
  exact allApart_leaf _

theorem allApart_of_madeBy {default : ForeignKey → Except PublishError Layout}
    (hdefault : ∀ {k n}, default k = .ok n → n.AllApart) {keys : List ForeignKey}
    {es : List (Joined Layout)} (h : List.Forall₂ (MadeBy default) keys es) :
    ∀ e ∈ es, e.layout.AllApart := by
  intro e he
  obtain ⟨k, -, -, hlayout⟩ := forall₂_exists_left h he
  exact hdefault hlayout

theorem allApart_of_subtreeFor {default : Except PublishError Layout}
    (hdefault : default = .ok n → n.AllApart) {subtree : Option Layout}
    (hsub : ∀ t ∈ subtree, t.AllApart) {r : RelationId}
    (h : subtreeFor r default subtree = .ok n) : n.AllApart := by
  rcases subtreeFor_eq_ok h with ⟨rfl, -⟩ | ⟨-, h⟩
  · exact hsub n rfl
  · exact hdefault h

namespace AllApart

theorem root (h : n.AllApart) : n.NamesApart := (forall_mem_nodes.1 h).1

theorem parents (h : n.AllApart) : ∀ e ∈ n.parents, e.layout.AllApart := (forall_mem_nodes.1 h).2.1

theorem children (h : n.AllApart) : ∀ e ∈ n.children, e.layout.AllApart :=
  (forall_mem_nodes.1 h).2.2

theorem withInfo (h : n.AllApart) {i : NodeInfo} (hi : (n.withInfo i).NamesApart) :
    (n.withInfo i).AllApart :=
  forall_mem_nodes.2 ⟨hi, h.parents, h.children⟩

/-- Names stay apart when fields are taken away. -/
theorem withFewerFields (h : n.AllApart) {i : NodeInfo} (hfields : i.fields.Sublist n.fields)
    (hstyle : i.style = n.style) : (n.withInfo i).AllApart := by
  refine h.withInfo (h.root.of_sublist hfields ?_)
  rw [contentNames, show (n.withInfo i).style = n.style from hstyle]
  exact .refl _

theorem addChild (h : n.AllApart) {e : Joined Layout} (he : e.layout.AllApart)
    (hapart : (n.addChild e).NamesApart) : (n.addChild e).AllApart := by
  refine forall_mem_nodes.2 ⟨hapart, h.parents, fun e' he' => ?_⟩
  rcases List.mem_append.1 he' with he' | he'
  · exact h.children e' he'
  · exact List.mem_singleton.1 he' ▸ he

theorem addParent (h : n.AllApart) {e : Joined Layout} (he : e.layout.AllApart)
    (hapart : (n.addParent e).NamesApart) : (n.addParent e).AllApart := by
  refine forall_mem_nodes.2 ⟨hapart, fun e' he' => ?_, h.children⟩
  rcases List.mem_append.1 he' with he' | he'
  · exact h.parents e' he'
  · exact List.mem_singleton.1 he' ▸ he

end AllApart

theorem BuiltOver.allApart (h : n.BuiltOver s) : n.AllApart := by
  induction h with
  | root _ h =>
    obtain ⟨fields, -, rfl⟩ := Defaults.root_eq_ok_iff.1 h
    exact allApart_leaf _
  | embedChild _ _ _ h ih ihSub =>
    obtain ⟨-, key, layout, -, hlayout, rfl, hapart⟩ := embedChild_eq_ok.1 h
    exact ih.addChild (allApart_of_subtreeFor allApart_of_child ihSub hlayout) hapart
  | embedParent _ _ _ h ih ihSub =>
    obtain ⟨-, key, layout, -, hlayout, rfl, hapart⟩ := embedParent_eq_ok.1 h
    exact ih.addParent (allApart_of_subtreeFor allApart_of_parent ihSub hlayout) hapart
  | embedChildren _ _ h ih =>
    obtain ⟨children, hchildren, rfl, hapart⟩ := embedChildren_eq_ok.1 h
    exact forall_mem_nodes.2 ⟨hapart, ih.parents, allApart_of_madeBy allApart_of_child hchildren⟩
  | embedParents _ _ h ih =>
    obtain ⟨parents, hparents, rfl, hapart⟩ := embedParents_eq_ok.1 h
    exact forall_mem_nodes.2 ⟨hapart, allApart_of_madeBy allApart_of_parent hparents, ih.children⟩
  | sortBy _ _ h ih =>
    obtain ⟨known, -, -, rfl⟩ := sortBy_eq_ok.1 h
    exact ih.withFewerFields (.refl _) rfl
  | selectFields _ _ h ih =>
    obtain ⟨known, fields, -, -, rfl, hapart⟩ := selectFields_eq_ok.1 h
    exact ih.withInfo hapart
  | dropFields _ h ih =>
    obtain ⟨-, rfl⟩ := dropFields_eq_ok.1 h
    exact ih.withFewerFields List.filter_sublist rfl
  | unsorted _ ih | inNamespace _ ih | inheritNamespace _ ih | renameRows _ ih
  | renameCollection _ ih => exact ih.withFewerFields (.refl _) rfl

/-- At every node of a layout built over a schema, the embedded elements can be told apart from each
other and from the fields, and all elements in a row can when the fields can. -/
theorem BuiltOver.nodup_elementNames_iff (hn : n.BuiltOver s) :
    ∀ m ∈ n.nodes, m.NamesApart ∧
      (m.elementNames.Nodup ↔ (m.fields.map Text.lower).Nodup) := by
  intro m hm
  have hapart : m.NamesApart := hn.allApart m hm
  exact ⟨hapart, hapart.nodup_iff_fields⟩

end Layout

namespace Staff

theorem team_nodup_elementNames :
    team.BuiltOver schema ∧ withBoss ∈ team.nodes ∧ withBoss.elementNames.Nodup := by
  have hmem : withBoss ∈ team.nodes :=
    Layout.mem_nodes_of_child (n := team) (e := ⟨bossKey, withBoss⟩) (List.mem_singleton_self _)
  refine ⟨team_builtOver, hmem, ?_⟩
  rw [(team_builtOver.nodup_elementNames_iff withBoss hmem).2]
  decide

/-- A selection may repeat a field; the row then has two elements of that name. -/
theorem selectFields_repeats_name :
    ∃ n, alone.selectFields defaults ["id", "ID"] = .ok n ∧ n.BuiltOver schema ∧
      ¬ n.elementNames.Nodup := by
  have h : alone.selectFields defaults ["id", "ID"] =
      .ok (alone.withInfo { alone.info with fields := ["id", "id"] }) := rfl
  refine ⟨_, h, .selectFields rfl alone_builtOver h, ?_⟩
  decide

end Staff

end XmlPublishing

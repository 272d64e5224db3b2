import XmlPublishing.Layout.Basic
import XmlPublishing.Proofs.Sequence

/-!
Layouts as trees: induction over them, the list of all nodes, and `==` as an equivalence.

`==` on layouts goes node by node (`beq_node`), so a fact about layouts that only compares
relations and keys by `==` is proved by induction along it.
-/

namespace XmlPublishing

/-- The two stand in the same place: their keys and layouts are equal. -/
def Joined.Same (e e' : Joined Layout) : Prop := e.key == e'.key ∧ e.layout == e'.layout

namespace Layout

/-- What holds of a node if it holds of everything embedded in it holds of all layouts. -/
@[elab_as_elim, induction_eliminator]
theorem induction {motive : Layout → Prop}
    (node : ∀ info parents children, (∀ e ∈ parents, motive e.layout) →
      (∀ e ∈ children, motive e.layout) → motive (.node info parents children))
    (n : Layout) : motive n :=
  @Layout.rec motive (fun es => ∀ e ∈ es, motive e.layout) (fun e => motive e.layout) node
    (fun _ h => nomatch h)
    (fun _ _ head tail => List.forall_mem_cons.2 ⟨head, tail⟩) (fun _ _ h => h) n

/-! ## Nodes -/

mutual
/-- The nodes of a layout: the layout itself, and the nodes of all that is embedded in it. -/
def nodes : Layout → List Layout
  | .node info parents children =>
    .node info parents children :: (nodesOf parents ++ nodesOf children)
termination_by structural n => n
def nodesOf : List (Joined Layout) → List Layout
  | [] => []
  | ⟨_, n⟩ :: es => nodes n ++ nodesOf es
termination_by structural es => es
end

theorem mem_nodesOf {m : Layout} {es : List (Joined Layout)} :
    m ∈ nodesOf es ↔ ∃ e ∈ es, m ∈ e.layout.nodes := by
  induction es with
  | nil => simp [nodesOf]
  | cons e es ih => simp [nodesOf, ih]

theorem mem_nodes {m n : Layout} :
    m ∈ n.nodes ↔ m = n ∨ (∃ e ∈ n.parents, m ∈ e.layout.nodes) ∨
      ∃ e ∈ n.children, m ∈ e.layout.nodes := by
  obtain ⟨info, parents, children⟩ := n
  simp only [nodes, List.mem_cons, List.mem_append, mem_nodesOf, Layout.parents, Layout.children]

theorem nodes_node (info : NodeInfo) (parents children : List (Joined Layout)) :
    (Layout.node info parents children).nodes = .node info parents children ::
      (parents.flatMap (·.layout.nodes) ++ children.flatMap (·.layout.nodes)) := by
  have h (es : List (Joined Layout)) : nodesOf es = es.flatMap (·.layout.nodes) := by
    induction es with
    | nil => rfl
    | cons e es ih => rw [nodesOf, ih, List.flatMap_cons]
  rw [nodes, h, h]

theorem self_mem_nodes (n : Layout) : n ∈ n.nodes := mem_nodes.2 (.inl rfl)

theorem mem_nodes_of_parent {n : Layout} {e : Joined Layout} (he : e ∈ n.parents) :
    e.layout ∈ n.nodes :=
  mem_nodes.2 (.inr (.inl ⟨e, he, self_mem_nodes _⟩))

theorem mem_nodes_of_child {n : Layout} {e : Joined Layout} (he : e ∈ n.children) :
    e.layout ∈ n.nodes :=
  mem_nodes.2 (.inr (.inr ⟨e, he, self_mem_nodes _⟩))

theorem mem_nodes_trans {k m n : Layout} (hk : k ∈ m.nodes) (hm : m ∈ n.nodes) : k ∈ n.nodes := by
  induction n with
  | node info parents children ihParents ihChildren =>
    rcases mem_nodes.1 hm with rfl | ⟨e, he, hm⟩ | ⟨e, he, hm⟩
    · exact hk
    · exact mem_nodes.2 (.inr (.inl ⟨e, he, ihParents e he hm⟩))
    · exact mem_nodes.2 (.inr (.inr ⟨e, he, ihChildren e he hm⟩))

theorem length_nodes_le_flatMap {es : List (Joined Layout)} {e : Joined Layout} (he : e ∈ es) :
    e.layout.nodes.length ≤ (es.flatMap (·.layout.nodes)).length := by
  have hmem : e.layout.nodes ∈ es.map (·.layout.nodes) := List.mem_map_of_mem he
  rw [List.flatMap_def]
  exact (List.sublist_flatten_of_mem hmem).length_le

theorem length_nodes_lt_of_parent {n : Layout} {e : Joined Layout} (he : e ∈ n.parents) :
    e.layout.nodes.length < n.nodes.length := by
  obtain ⟨info, parents, children⟩ := n
  rw [nodes_node, List.length_cons, List.length_append]
  exact Nat.lt_succ_of_le (Nat.le_add_right_of_le (length_nodes_le_flatMap he))

theorem length_nodes_lt_of_child {n : Layout} {e : Joined Layout} (he : e ∈ n.children) :
    e.layout.nodes.length < n.nodes.length := by
  obtain ⟨info, parents, children⟩ := n
  rw [nodes_node, List.length_cons, List.length_append]
  exact Nat.lt_succ_of_le (Nat.le_add_left_of_le (length_nodes_le_flatMap he))

/-- What holds of the root, and of all nodes of what is embedded in it, holds of all nodes. -/
theorem forall_mem_nodes {P : Layout → Prop} {n : Layout} :
    (∀ m ∈ n.nodes, P m) ↔ P n ∧ (∀ e ∈ n.parents, ∀ m ∈ e.layout.nodes, P m) ∧
      ∀ e ∈ n.children, ∀ m ∈ e.layout.nodes, P m := by
  constructor
  · intro h
    exact ⟨h n (self_mem_nodes n),
      fun e he m hm => h m (mem_nodes_trans hm (mem_nodes_of_parent he)),
      fun e he m hm => h m (mem_nodes_trans hm (mem_nodes_of_child he))⟩
  · intro h m hm
    obtain ⟨hn, hparents, hchildren⟩ := h
    rcases mem_nodes.1 hm with rfl | ⟨e, he, hm⟩ | ⟨e, he, hm⟩
    · exact hn
    · exact hparents e he m hm
    · exact hchildren e he m hm

/-! ## Equality -/

end Layout

theorem NodeInfo.beq_iff {i i' : NodeInfo} :
    i == i' ↔ i.relation == i'.relation ∧ { i with relation := i'.relation } = i' := by
  rw [← decide_eq_true_iff (p := _ = i'), ← Bool.and_eq_true]
  rfl

/-- Equal nodes differ at most in how their relation is spelled. -/
theorem NodeInfo.eq_of_beq {i i' : NodeInfo} (h : i == i') :
    i = { i' with relation := i.relation } := by
  obtain ⟨-, h⟩ := beq_iff.1 h
  rw [← h]

instance : EquivBEq NodeInfo where
  rfl := NodeInfo.beq_iff.2 ⟨BEq.rfl, rfl⟩
  symm {i i'} h := by
    obtain ⟨hr, h⟩ := NodeInfo.beq_iff.1 h
    exact NodeInfo.beq_iff.2 ⟨BEq.symm hr, by rw [← h]⟩
  trans {i i' i''} h h' := by
    obtain ⟨hr, h⟩ := NodeInfo.beq_iff.1 h
    obtain ⟨hr', h'⟩ := NodeInfo.beq_iff.1 h'
    exact NodeInfo.beq_iff.2 ⟨BEq.trans hr hr', by rw [← h', ← h]⟩

namespace Layout

theorem beqList_iff {es es' : List (Joined Layout)} :
    beqList es es' ↔ List.Forall₂ Joined.Same es es' := by
  induction es generalizing es' with
  | nil => cases es' <;> simp [beqList]
  | cons e es ih =>
    cases es' with
    | nil => simp [beqList]
    | cons e' es' =>
      simp only [beqList, Bool.and_eq_true, ih, List.forall₂_cons, Joined.Same]
      rfl

/-- Equality of layouts: equal roots, with equal layouts embedded through equal keys. -/
theorem beq_node {i i' : NodeInfo} {ps ps' cs cs' : List (Joined Layout)} :
    Layout.node i ps cs == Layout.node i' ps' cs' ↔
      i == i' ∧ List.Forall₂ Joined.Same ps ps' ∧ List.Forall₂ Joined.Same cs cs' := by
  rw [← beqList_iff, ← beqList_iff, ← Bool.and_eq_true, ← Bool.and_eq_true, ← Bool.and_assoc]
  rfl

theorem beq_refl (n : Layout) : n == n := by
  induction n with
  | node info parents children ihParents ihChildren =>
    exact beq_node.2 ⟨BEq.rfl, List.forall₂_same.2 fun e he => ⟨BEq.rfl, ihParents e he⟩,
      List.forall₂_same.2 fun e he => ⟨BEq.rfl, ihChildren e he⟩⟩

theorem beq_symm {n n' : Layout} (h : n == n') : n' == n := by
  induction n generalizing n' with
  | node info parents children ihParents ihChildren =>
    obtain ⟨info', parents', children'⟩ := n'
    obtain ⟨hi, hp, hc⟩ := beq_node.1 h
    refine beq_node.2 ⟨BEq.symm hi, .flip (forall₂_imp_of_mem hp ?_),
      .flip (forall₂_imp_of_mem hc ?_)⟩
    · exact fun e he _ _ h => ⟨BEq.symm h.1, ihParents e he h.2⟩
    · exact fun e he _ _ h => ⟨BEq.symm h.1, ihChildren e he h.2⟩

theorem beq_trans {n n' n'' : Layout} (h : n == n') (h' : n' == n'') : n == n'' := by
  induction n generalizing n' n'' with
  | node info parents children ihParents ihChildren =>
    obtain ⟨info', parents', children'⟩ := n'
    obtain ⟨info'', parents'', children''⟩ := n''
    obtain ⟨hi, hp, hc⟩ := beq_node.1 h
    obtain ⟨hi', hp', hc'⟩ := beq_node.1 h'
    refine beq_node.2 ⟨BEq.trans hi hi', forall₂_trans_of_mem hp hp' ?_,
      forall₂_trans_of_mem hc hc' ?_⟩
    · exact fun e he _ _ _ _ h h' => ⟨BEq.trans h.1 h'.1, ihParents e he h.2 h'.2⟩
    · exact fun e he _ _ _ _ h h' => ⟨BEq.trans h.1 h'.1, ihChildren e he h.2 h'.2⟩

instance : EquivBEq Layout where
  rfl := beq_refl _
  symm := beq_symm
  trans := beq_trans

/-! ## What equal layouts share -/

variable {m n : Layout}

theorem info_beq (h : m == n) : m.info == n.info := by
  cases m
  cases n
  exact (beq_node.1 h).1

theorem relation_beq (h : m == n) : m.relation == n.relation :=
  (NodeInfo.beq_iff.1 (info_beq h)).1

theorem fields_eq_of_beq (h : m == n) : m.fields = n.fields := by
  rw [fields, NodeInfo.eq_of_beq (info_beq h), fields]

theorem rowName_eq_of_beq (h : m == n) : m.rowName = n.rowName := by
  rw [rowName, NodeInfo.eq_of_beq (info_beq h), rowName]

theorem collectionName_eq_of_beq (h : m == n) : m.collectionName = n.collectionName := by
  rw [collectionName, NodeInfo.eq_of_beq (info_beq h), collectionName]

theorem style_eq_of_beq (h : m == n) : m.style = n.style := by
  rw [style, NodeInfo.eq_of_beq (info_beq h), style]

theorem ns_eq_of_beq (h : m == n) : m.ns = n.ns := by
  rw [ns, NodeInfo.eq_of_beq (info_beq h), ns]

theorem contentName_eq_of_beq (h : m == n) (style : CollectionStyle) :
    m.contentName style = n.contentName style := by
  cases style with
  | wrapped => exact collectionName_eq_of_beq h
  | inline => exact rowName_eq_of_beq h

theorem parents_same (h : m == n) : List.Forall₂ Joined.Same m.parents n.parents := by
  cases m
  cases n
  exact (beq_node.1 h).2.1

theorem children_same (h : m == n) : List.Forall₂ Joined.Same m.children n.children := by
  cases m
  cases n
  exact (beq_node.1 h).2.2

/-- Equal layouts have equal nodes, in the same order. -/
theorem nodes_same (h : m == n) : List.Forall₂ (fun a b => a == b) m.nodes n.nodes := by
  induction m generalizing n with
  | node info parents children ihParents ihChildren =>
    obtain ⟨info', parents', children'⟩ := n
    obtain ⟨-, hparents, hchildren⟩ := beq_node.1 h
    rw [nodes_node, nodes_node]
    refine .cons h (List.rel_append ?_ ?_)
    · exact List.rel_flatMap
        (forall₂_imp_of_mem hparents fun e he _ _ hsame => ihParents e he hsame.2) fun _ _ h => h
    · exact List.rel_flatMap
        (forall₂_imp_of_mem hchildren fun e he _ _ hsame => ihChildren e he hsame.2) fun _ _ h => h

end Layout

end XmlPublishing

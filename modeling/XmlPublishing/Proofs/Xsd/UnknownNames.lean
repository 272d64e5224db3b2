import XmlPublishing.Proofs.Xsd.Registry

/-!
What a schema document needs to know of the schema.

A layout mentions relations and fields, node by node (`Layout.mentions`). Its document exists if the
schema has all of them, and otherwise the first one that it lacks is reported (`text_checked`), for
any layout, related to the schema or not. One that fits the schema always has a document
(`exists_ofLayout_eq_ok`).

Nodes equal to one that has a type are not looked at again. That is safe because equal nodes mention
the same things, and because a node whose own description is not finished cannot be equal to one
inside it, which is smaller: so what a registry has of the size of a node or less is known
(`Settled`), and every step only adds nodes that are known (`Checks`).
-/

namespace XmlPublishing

/-- A relation or field that a node names. -/
inductive Mention where
  | relation (r : RelationId)
  | field (r : RelationId) (name : String)

namespace Mention

def isKnown (s : Schema) : Mention → Bool
  | .relation r => s.contains r
  | .field r name => (s.fields? r).any fun fields => (findField? fields name).isSome

/-- The error for something that the schema lacks. -/
def error : Mention → PublishError
  | .relation r => .unknownRelation r
  | .field r name => .noSuchField r name

theorem isKnown_field {s : Schema} {r : RelationId} {name : String} :
    (field r name).isKnown s ↔ s.HasField r name := by
  rw [isKnown, Option.any_eq_true]
  rfl

/-- The first of the mentions that the schema lacks. -/
def firstUnknown? (s : Schema) (ms : List Mention) : Option Mention :=
  ms.find? fun m => !m.isKnown s

theorem firstUnknown?_eq_none {s : Schema} {ms : List Mention} :
    firstUnknown? s ms = none ↔ ∀ m ∈ ms, m.isKnown s := by
  simp [firstUnknown?]

end Mention

/-- What a node mentions: its relation, and then the fields that it includes. -/
def NodeInfo.mentions (i : NodeInfo) : List Mention :=
  .relation i.relation :: i.fields.map (.field i.relation)

namespace Layout

variable {s : Schema} {m n : Layout}

/-- What the nodes mention, the root first, then the nodes of the embedded parents and then those of
the embedded children. -/
def mentions (n : Layout) : List Mention := n.nodes.flatMap (·.info.mentions)

theorem mentions_node (info : NodeInfo) (parents children : List (Joined Layout)) :
    (Layout.node info parents children).mentions =
      info.mentions ++ (parents.flatMap (·.layout.mentions) ++
        children.flatMap (·.layout.mentions)) := by
  rw [mentions, nodes_node, List.flatMap_cons, List.flatMap_append, List.flatMap_assoc,
    List.flatMap_assoc]
  rfl

/-- The schema has the relation of the node and the fields that it includes. -/
def InfoKnown (s : Schema) (n : Layout) : Prop :=
  s.contains n.relation ∧ ∀ name ∈ n.fields, s.HasField n.relation name

/-- The schema has all that the nodes mention. -/
def Known (s : Schema) (n : Layout) : Prop := ∀ m ∈ n.nodes, m.InfoKnown s

theorem infoKnown_iff : n.InfoKnown s ↔ ∀ m ∈ n.info.mentions, m.isKnown s := by
  rw [NodeInfo.mentions, List.forall_mem_cons, List.forall_mem_map]
  simp only [Mention.isKnown_field]
  rfl

theorem known_iff : n.Known s ↔ Mention.firstUnknown? s n.mentions = none := by
  rw [Mention.firstUnknown?_eq_none, mentions, List.forall_mem_flatMap]
  exact forall_congr' fun m => imp_congr_right fun _ => infoKnown_iff

theorem InfoKnown.congr (h : m.InfoKnown s) (hmn : m == n) : n.InfoKnown s := by
  obtain ⟨hrelation, hfields⟩ := h
  have hsame := relation_beq hmn
  rw [InfoKnown, ← Schema.contains_congr hsame, ← fields_eq_of_beq hmn]
  exact ⟨hrelation, fun name hname => (Schema.hasField_congr hsame).1 (hfields name hname)⟩

theorem Known.congr (h : m.Known s) (hmn : m == n) : n.Known s := by
  intro k hk
  obtain ⟨k', hk', hsame⟩ := forall₂_exists_left (nodes_same hmn) hk
  exact (h k' hk').congr hsame

end Layout

namespace Xsd

open Mention

variable {α β : Type} {s : Schema} {o : XsdOptions} {r r' r'' : TypeRegistry} {size : Nat}
  {ms ms' : List Mention}

/-- The nodes in the registry that are smaller than `size` are known to the schema. -/
def Settled (s : Schema) (size : Nat) (r : TypeRegistry) : Prop :=
  ∀ e ∈ r.rowsTypes, e.1.Known s ∨ size ≤ e.1.nodes.length

/-- The nodes that `r'` has and `r` lacks are known to the schema. -/
def AddsKnown (s : Schema) (r r' : TypeRegistry) : Prop :=
  ∀ e ∈ r'.rowsTypes, e ∈ r.rowsTypes ∨ e.1.Known s

theorem AddsKnown.refl (r : TypeRegistry) : AddsKnown s r r := fun _ he => .inl he

theorem AddsKnown.trans (h : AddsKnown s r r') (h' : AddsKnown s r' r'') : AddsKnown s r r'' := by
  intro e he
  rcases h' e he with he | he
  · exact h e he
  · exact .inr he

theorem Settled.mono (h : Settled s size r) (hr : AddsKnown s r r') : Settled s size r' := by
  intro e he
  rcases hr e he with he | he
  · exact h e he
  · exact .inl he

/-- From a registry whose smaller nodes are known, the step succeeds if all mentions are known, and
then adds known nodes only. Otherwise it fails with the first mention that is not. -/
structure Checks (s : Schema) (size : Nat) (ms : List Mention) (x : DescribeM α) : Prop where
  ok : ∀ r, Settled s size r → firstUnknown? s ms = none →
    ∃ a r', x.run r = .ok (a, r') ∧ AddsKnown s r r'
  error : ∀ r, Settled s size r → ∀ m, firstUnknown? s ms = some m → x.run r = .error m.error

namespace Checks

theorem pure (a : α) : Checks s size [] (Pure.pure a : DescribeM α) where
  ok r _ _ := ⟨a, r, rfl, .refl r⟩
  error := nofun

theorem bind {x : DescribeM α} {f : α → DescribeM β} (h : Checks s size ms x)
    (hf : ∀ a, Checks s size ms' (f a)) : Checks s size (ms ++ ms') (x >>= f) where
  ok r hr hms := by
    rw [firstUnknown?, List.find?_append, Option.or_eq_none_iff] at hms
    obtain ⟨a, r₁, hx, h₁⟩ := h.ok r hr hms.1
    obtain ⟨b, r₂, ha, h₂⟩ := (hf a).ok r₁ (hr.mono h₁) hms.2
    exact ⟨b, r₂, run_bind_eq_ok.2 ⟨a, r₁, hx, ha⟩, h₁.trans h₂⟩
  error r hr m hm := by
    rw [firstUnknown?, List.find?_append, Option.or_eq_some_iff] at hm
    rw [StateT.run_bind, bind_eq_error]
    rcases hm with hm | ⟨hms, hm⟩
    · exact .inl (h.error r hr m hm)
    · obtain ⟨a, r₁, hx, h₁⟩ := h.ok r hr hms
      exact .inr ⟨(a, r₁), hx, (hf a).error r₁ (hr.mono h₁) m hm⟩

theorem bind_pure {x : DescribeM α} (h : Checks s size ms x) (f : α → β) :
    Checks s size ms (x >>= fun a => Pure.pure (f a)) := by
  have hall : Checks s size (ms ++ []) (x >>= fun a => Pure.pure (f a)) :=
    h.bind fun a => .pure (f a)
  rwa [List.append_nil] at hall

theorem mono {x : DescribeM α} {size' : Nat} (h : Checks s size ms x) (hle : size ≤ size') :
    Checks s size' ms x where
  ok r hr := h.ok r fun e he => (hr e he).imp_right (Nat.le_trans hle)
  error r hr := h.error r fun e he => (hr e he).imp_right (Nat.le_trans hle)

theorem lift {x : Except PublishError α} (hok : firstUnknown? s ms = none → ∃ a, x = .ok a)
    (herror : ∀ m, firstUnknown? s ms = some m → x = .error m.error) :
    Checks s size ms (liftM x) where
  ok r _ hms := by
    obtain ⟨a, rfl⟩ := hok hms
    exact ⟨a, r, rfl, .refl r⟩
  error r _ m hm := by
    rw [herror m hm]
    rfl

end Checks

/-! ## Steps -/

variable {es : List (Joined Layout)}

theorem knownFields_checks {relation : RelationId} {f : List Field → DescribeM β}
    (hf : ∀ fields, s.fields? relation = some fields → Checks s size ms (f fields)) :
    Checks s size (.relation relation :: ms) (liftM (s.knownFields relation) >>= f) := by
  have hcontains : s.contains relation = (s.fields? relation).isSome := by
    rw [Schema.contains, Schema.fields?, Option.isSome_map]
  cases hfields : s.fields? relation with
  | some fields =>
    rw [hfields] at hcontains
    have hms : firstUnknown? s (.relation relation :: ms) = firstUnknown? s ms := by
      rw [firstUnknown?, List.find?_cons_of_neg (by simp [isKnown, hcontains]), firstUnknown?]
    have hrun : liftM (s.knownFields relation) >>= f = f fields := by
      rw [Schema.knownFields_eq_ok.2 hfields]
      rfl
    obtain ⟨hok, herror⟩ := hf fields hfields
    rw [hrun]
    constructor
    · rwa [hms]
    · rwa [hms]
  | none =>
    rw [hfields] at hcontains
    have hms : firstUnknown? s (.relation relation :: ms) = some (.relation relation) := by
      rw [firstUnknown?, List.find?_cons_of_pos (by simp [isKnown, hcontains])]
    have hrun : s.knownFields relation = .error (.unknownRelation relation) := by
      rw [Schema.knownFields, hfields]
    constructor
    · intro r _ h
      cases hms.symm.trans h
    · intro r _ m hm
      cases hms.symm.trans hm
      rw [hrun]
      rfl

theorem fieldElements_checks {relation : RelationId} {fields : List Field} (names : List String)
    (hfields : s.fields? relation = some fields) :
    Checks s size (names.map (.field relation))
      (liftM (names.mapM (fieldElement relation fields))) := by
  let lacks (name : String) : Bool := !(field relation name).isKnown s
  have hlacks (name : String) : lacks name = (findField? fields name).isNone := by
    simp [lacks, isKnown, hfields]
  have hok (name : String) (h : ¬ lacks name) :
      ∃ element, fieldElement relation fields name = .ok element := by
    rw [hlacks, Option.isNone_iff_eq_none] at h
    obtain ⟨f, hf⟩ := Option.ne_none_iff_exists'.1 h
    rw [fieldElement, hf]
    exact ⟨_, rfl⟩
  have herror (name : String) (h : lacks name) :
      fieldElement relation fields name = .error (field relation name).error := by
    rw [hlacks, Option.isNone_iff_eq_none] at h
    rw [fieldElement, h, error]
  have hfirst : firstUnknown? s (names.map (.field relation)) =
      (names.find? lacks).map (.field relation) := List.find?_map
  refine .lift (fun h => ?_) fun m hm => ?_
  · rw [hfirst, Option.map_eq_none_iff, List.find?_eq_none] at h
    exact exists_mapM_eq_ok fun name hname => hok name (h name hname)
  · rw [hfirst] at hm
    obtain ⟨name, hname, rfl⟩ := Option.map_eq_some_iff.1 hm
    exact mapM_eq_error_of_find? hok herror hname

theorem typeOfListing_checks (s : Schema) (n : Layout) (rowsType : String) :
    Checks s size [] (typeOfListing s n rowsType) where
  ok r _ _ := by
    cases h : r.listingType? rowsType with
    | some name => exact ⟨_, r, typeOfListing_run_of_some h, .refl r⟩
    | none => exact ⟨_, _, typeOfListing_run_of_none h, .refl r⟩
  error := nofun

theorem childElement_checks (s : Schema) (o : XsdOptions) (style : CollectionStyle) (n : Layout)
    (rowsType : String) : Checks s size [] (childElement s o style n rowsType) := by
  cases style with
  | wrapped => exact (typeOfListing_checks s n rowsType).bind_pure _
  | inline => exact .pure _

theorem parentElements_checks (fields : List Field)
    (h : ∀ e ∈ es, Checks s size e.layout.mentions (typeOfRows s o e.layout)) :
    Checks s size (es.flatMap (·.layout.mentions)) (parentElements s o fields es) := by
  induction es with
  | nil => exact .pure _
  | cons e es ih =>
    obtain ⟨he, hes⟩ := List.forall_mem_cons.1 h
    rw [parentElements, List.flatMap_cons]
    exact he.bind fun out => (ih hes).bind_pure _

theorem childElements_checks (style : CollectionStyle)
    (h : ∀ e ∈ es, Checks s size e.layout.mentions (typeOfRows s o e.layout)) :
    Checks s size (es.flatMap (·.layout.mentions)) (childElements s o style es) := by
  induction es with
  | nil => exact .pure _
  | cons e es ih =>
    obtain ⟨he, hes⟩ := List.forall_mem_cons.1 h
    rw [childElements, List.flatMap_cons]
    refine he.bind fun out => ?_
    exact (childElement_checks s o style e.layout out.1).bind fun element => (ih hes).bind_pure _

theorem describeRows_checks {info : NodeInfo} {parents children : List (Joined Layout)}
    (hparents : ∀ e ∈ parents, Checks s size e.layout.mentions (typeOfRows s o e.layout))
    (hchildren : ∀ e ∈ children, Checks s size e.layout.mentions (typeOfRows s o e.layout))
    (name : String) :
    Checks s size (Layout.node info parents children).mentions
      (describeRows s o info parents children name) := by
  rw [Layout.mentions_node]
  refine knownFields_checks fun fields hfields => ?_
  refine (fieldElements_checks info.fields hfields).bind fun own => ?_
  refine (parentElements_checks fields hparents).bind fun ps => ?_
  exact (childElements_checks info.style hchildren).bind_pure _

/-- A node with a type is known if its own description is not being made. -/
theorem Settled.known_of_rowsType? {n : Layout} {name : String}
    (hr : Settled s (n.nodes.length + 1) r) (h : r.rowsType? n = some name) : n.Known s := by
  obtain ⟨m, hm, heq⟩ := TypeRegistry.names_of_rowsType? h
  rcases hr _ hm with hknown | hsize
  · exact hknown.congr heq
  · have hlength : m.nodes.length = n.nodes.length := (Layout.nodes_same heq).length_eq
    rw [hlength] at hsize
    exact absurd hsize (Nat.not_succ_le_self _)

theorem Settled.addRowsType {n : Layout} (hr : Settled s (n.nodes.length + 1) r) (name : String) :
    Settled s n.nodes.length (r.addRowsType n name) := by
  intro e he
  rcases List.mem_cons.1 he with rfl | he
  · exact .inr (Nat.le_refl _)
  · exact (hr e he).imp_right Nat.le_of_succ_le

theorem typeOfRows_checks (s : Schema) (o : XsdOptions) (n : Layout) :
    Checks s (n.nodes.length + 1) n.mentions (typeOfRows s o n) := by
  induction n with
  | node info parents children ihParents ihChildren =>
    let n : Layout := .node info parents children
    -- everything inside the node is smaller, so it may rely on the node being there already
    have hdescribe (name : String) : Checks s n.nodes.length n.mentions
        (describeRows s o info parents children name) :=
      describeRows_checks
        (fun e he => (ihParents e he).mono (Layout.length_nodes_lt_of_parent (n := n) he))
        (fun e he => (ihChildren e he).mono (Layout.length_nodes_lt_of_child (n := n) he)) name
    constructor
    · intro r hr hms
      cases h : r.rowsType? n with
      | some name => exact ⟨_, r, typeOfRows_run_of_some h, .refl r⟩
      | none =>
        obtain ⟨a, r', hrun, hadds⟩ := (hdescribe _).ok _ (hr.addRowsType _) hms
        refine ⟨a, r', (typeOfRows_run_of_none h).trans hrun, fun e he => ?_⟩
        rcases hadds e he with he | he
        · rcases List.mem_cons.1 he with rfl | he
          · exact .inr (Layout.known_iff.2 hms)
          · exact .inl he
        · exact .inr he
    · intro r hr m hm
      cases h : r.rowsType? n with
      | some name => cases (Layout.known_iff.1 (hr.known_of_rowsType? h)).symm.trans hm
      | none =>
        exact (typeOfRows_run_of_none h).trans ((hdescribe _).error _ (hr.addRowsType _) m hm)

/-! ## Documents -/

theorem declarations_checks (s : Schema) (o : XsdOptions) (n : Layout) :
    Checks s (n.nodes.length + 1) n.mentions (declarations s o n) := by
  have hall : Checks s (n.nodes.length + 1) (n.mentions ++ []) (declarations s o n) := by
    rw [declarations]
    refine (typeOfRows_checks s o n).bind fun out => ?_
    dsimp only
    split
    · exact (typeOfListing_checks s n out.1).bind_pure _
    · exact .pure _
  rwa [List.append_nil] at hall

theorem exists_ofLayout_eq_ok_of_known {n : Layout} (hn : n.Known s) (o : XsdOptions) :
    ∃ doc, Document.ofLayout s o n = .ok doc := by
  obtain ⟨⟨roots, types⟩, r, hrun, -⟩ :=
    (declarations_checks s o n).ok .empty nofun (Layout.known_iff.1 hn)
  exact ⟨⟨n.ns, roots, types⟩, ofLayout_eq_ok.2 ⟨r, hrun, rfl⟩⟩

theorem exists_ofLayout_eq_ok {n : Layout} (hn : n.FitsIn s) (o : XsdOptions) :
    ∃ doc, Document.ofLayout s o n = .ok doc :=
  exists_ofLayout_eq_ok_of_known (fun m hm => ⟨(hn m hm).info.registered, (hn m hm).info.fields⟩) o

theorem text_eq_error {n : Layout} {m : Mention} (o : XsdOptions)
    (h : firstUnknown? s n.mentions = some m) : text s o n = .error m.error := by
  have hrun := (declarations_checks s o n).error .empty nofun m h
  rw [StateT.run] at hrun
  rw [text, Document.ofLayout, StateT.run', hrun]
  rfl

/-- A layout has a schema document just where the schema has the relation of every node and the
fields that it includes. Otherwise the first mention that the schema lacks is reported. -/
theorem text_checked (s : Schema) (o : XsdOptions) (n : Layout) :
    ((∃ t, text s o n = .ok t) ↔
      ∀ m ∈ n.nodes, s.contains m.relation ∧ ∀ name ∈ m.fields, s.HasField m.relation name) ∧
    ∀ e, text s o n = .error e ↔
      ∃ m, n.mentions.find? (fun m => !m.isKnown s) = some m ∧ e = m.error := by
  cases h : firstUnknown? s n.mentions with
  | none =>
    have hn : n.Known s := Layout.known_iff.2 h
    obtain ⟨doc, hdoc⟩ := exists_ofLayout_eq_ok_of_known hn o
    have ht : text s o n = .ok (doc.text o.indent) := map_eq_ok.2 ⟨doc, hdoc, rfl⟩
    refine ⟨iff_of_true ⟨_, ht⟩ hn, fun e => ?_⟩
    rw [ht, ← firstUnknown?, h]
    exact iff_of_false nofun nofun
  | some m =>
    have herror := text_eq_error o h
    refine ⟨iff_of_false ?_ fun hn => ?_, fun e => ?_⟩
    · rintro ⟨t, ht⟩
      cases herror.symm.trans ht
    · cases (Layout.known_iff.1 hn).symm.trans h
    · rw [herror, Except.error.injEq, ← firstUnknown?, h]
      constructor
      · rintro rfl
        exact ⟨m, rfl, rfl⟩
      · rintro ⟨m', hm', rfl⟩
        rw [Option.some.inj hm']

end Xsd

end XmlPublishing

import XmlPublishing.Layout.Edit
import XmlPublishing.Proofs.Naming.Standard

/-!
What edits do.

For every edit that can fail, one lemma says when it gives a layout and which one. What edits keep
is derived from these lemmas. Edits that put elements next to each other succeed only with a layout
whose embedded names are apart (`Layout.NamesApart`), and names stay apart when some of them are
taken away (`NamesApart.of_sublist`).
-/

namespace XmlPublishing

theorem Schema.knownFields_eq_ok {s : Schema} {r : RelationId} {fields : List Field} :
    s.knownFields r = .ok fields ↔ s.fields? r = some fields := by
  unfold Schema.knownFields
  split <;> simp [*]

/-! ## Default layouts -/

namespace Defaults

variable {d : Defaults} {r : RelationId} {n : Layout} {k : ForeignKey} {style : CollectionStyle}

theorem root_eq_ok_iff :
    d.root r = .ok n ↔ ∃ fields, d.fieldNames r = .ok fields ∧
      n = d.leaf r fields (d.naming.row r) (d.naming.collection r) := by
  simp only [root, bind_eq_ok, pure_eq_ok]

theorem child_eq_ok_iff :
    d.child k style = .ok n ↔ ∃ fields rowName collectionName,
      d.fieldNames k.source = .ok fields ∧
      d.naming.childRow (d.context k style) = .ok rowName ∧
      d.naming.childCollection (d.context k style) = .ok collectionName ∧
      n = d.leaf k.source fields rowName collectionName := by
  simp only [child, bind_eq_ok, pure_eq_ok, exists_and_left]

theorem parent_eq_ok_iff :
    d.parent k style = .ok n ↔ ∃ fields rowName, d.fieldNames k.target = .ok fields ∧
      d.naming.parentRow (d.context k style) = .ok rowName ∧
      n = d.leaf k.target fields rowName (d.naming.collection k.target) := by
  simp only [parent, bind_eq_ok, pure_eq_ok, exists_and_left]

/-- With the standard names, a key that a child can be made for is told apart by its fields. -/
theorem uniqueIn_of_child (hd : d.naming = .standard) (hk : k ∈ d.schema.foreignKeys)
    (h : d.child k style = .ok n) : k.UniqueIn d.schema := by
  obtain ⟨fields, rowName, collectionName, -, -, hname, -⟩ := child_eq_ok_iff.1 h
  rw [hd] at hname
  have hname : NamingPolicy.childCollectionName (d.context k style) = .ok collectionName := hname
  rw [NamingPolicy.childCollectionName_eq] at hname
  exact PairContext.matchingKeys_eq_of_plainOr (Schema.mem_keysBetween_self hk) rfl id hname

theorem uniqueIn_of_parent (hd : d.naming = .standard) (hk : k ∈ d.schema.foreignKeys)
    (h : d.parent k style = .ok n) : k.UniqueIn d.schema := by
  obtain ⟨fields, rowName, -, hname, -⟩ := parent_eq_ok_iff.1 h
  rw [hd] at hname
  have hname : NamingPolicy.parentRowName (d.context k style) = .ok rowName := hname
  rw [NamingPolicy.parentRowName_eq] at hname
  exact PairContext.matchingKeys_eq_of_plainOr (Schema.mem_keysBetween_self hk) rfl And.left hname

end Defaults

namespace Layout

/-! ## Names next to each other -/

/-- The names of the embedded elements in a row, in small letters. -/
def embeddedNames (n : Layout) : List String := n.contentNames.map fun e => Text.lower e.2

/-- The embedded elements in a row can be told apart from each other and from the fields. -/
structure NamesApart (n : Layout) : Prop where
  nodup : n.embeddedNames.Nodup
  disjoint : (n.fields.map Text.lower).Disjoint n.embeddedNames

variable {m n n' : Layout} {d : Defaults}

theorem firstClash?_eq_none {seen : List String} {es : List (ForeignKey × String)} :
    firstClash? seen es = none ↔ (es.map fun e => Text.lower e.2).Nodup ∧
      seen.Disjoint (es.map fun e => Text.lower e.2) := by
  induction es generalizing seen with
  | nil => simp [firstClash?]
  | cons e es ih =>
    rw [firstClash?, List.map_cons, List.nodup_cons, List.disjoint_cons_right]
    split
    · next hseen => exact ⟨nofun, fun h => absurd hseen h.2.1⟩
    · next hseen =>
      rw [ih, List.disjoint_cons_left]
      exact ⟨fun ⟨hnodup, he, hes⟩ => ⟨⟨he, hnodup⟩, hseen, hes⟩,
        fun ⟨⟨he, hnodup⟩, _, hes⟩ => ⟨hnodup, he, hes⟩⟩

theorem checkNames_eq_ok : n.checkNames = .ok n' ↔ n' = n ∧ n.NamesApart := by
  unfold checkNames
  split
  · next hclash =>
    refine ⟨nofun, fun h => ?_⟩
    rw [firstClash?_eq_none.2 ⟨h.2.nodup, h.2.disjoint⟩] at hclash
    cases hclash
  · next hclash =>
    obtain ⟨hnodup, hdisjoint⟩ := firstClash?_eq_none.1 hclash
    exact ⟨fun h => ⟨(Except.ok.inj h).symm, hnodup, hdisjoint⟩, fun h => h.1 ▸ rfl⟩

theorem NamesApart.of_sublist (h : n.NamesApart) (hfields : m.fields.Sublist n.fields)
    (hnames : m.contentNames.Sublist n.contentNames) : m.NamesApart where
  nodup := h.nodup.sublist (hnames.map _)
  disjoint := List.disjoint_of_subset_left (hfields.map _).subset
    (List.disjoint_of_subset_right (hnames.map _).subset h.disjoint)

/-! ## Edits -/

theorem subtreeFor_eq_ok {expected : RelationId} {default : Except PublishError Layout}
    {subtree : Option Layout} (h : subtreeFor expected default subtree = .ok n) :
    (subtree = some n ∧ n.relation == expected) ∨ (subtree = none ∧ default = .ok n) := by
  cases subtree with
  | none => exact .inr ⟨rfl, h⟩
  | some m =>
    rw [subtreeFor] at h
    split at h
    · next hm => exact .inl ⟨congrArg some (Except.ok.inj h), Except.ok.inj h ▸ hm⟩
    · cases h

theorem embedChild_eq_ok {child : RelationId} {fields : Option FieldSet}
    {subtree : Option Layout} :
    n.embedChild d child fields subtree = .ok n' ↔ d.schema.contains child ∧
      ∃ key layout,
        selectKey (d.schema.keysBetween child n.relation) fields child n.relation = .ok key ∧
        subtreeFor child (d.child key n.style) subtree = .ok layout ∧
        n' = n.addChild ⟨key, layout⟩ ∧ (n.addChild ⟨key, layout⟩).NamesApart := by
  unfold embedChild
  split
  · next hreg => simp only [bind_eq_ok, checkNames_eq_ok, hreg, true_and, exists_and_left]
  · next hreg => exact ⟨nofun, fun h => absurd h.1 hreg⟩

theorem embedParent_eq_ok {parent : RelationId} {fields : Option FieldSet}
    {subtree : Option Layout} :
    n.embedParent d parent fields subtree = .ok n' ↔ d.schema.contains parent ∧
      ∃ key layout,
        selectKey (d.schema.keysBetween n.relation parent) fields n.relation parent = .ok key ∧
        subtreeFor parent (d.parent key n.style) subtree = .ok layout ∧
        n' = n.addParent ⟨key, layout⟩ ∧ (n.addParent ⟨key, layout⟩).NamesApart := by
  unfold embedParent
  split
  · next hreg => simp only [bind_eq_ok, checkNames_eq_ok, hreg, true_and, exists_and_left]
  · next hreg => exact ⟨nofun, fun h => absurd h.1 hreg⟩

/-- What is embedded for the key `k` is the layout that `default` gives for it. -/
def MadeBy (default : ForeignKey → Except PublishError Layout) (k : ForeignKey)
    (e : Joined Layout) : Prop :=
  e.key = k ∧ default k = .ok e.layout

theorem mapM_eq_ok_iff_madeBy (default : ForeignKey → Except PublishError Layout)
    {keys : List ForeignKey} {es : List (Joined Layout)} :
    (keys.mapM fun k => return Joined.mk k (← default k)) = .ok es ↔
      List.Forall₂ (MadeBy default) keys es := by
  have hmade : ∀ k e, (∃ layout, default k = .ok layout ∧ e = Joined.mk k layout) ↔
      MadeBy default k e := by
    intro k e
    constructor
    · rintro ⟨layout, hlayout, rfl⟩
      exact ⟨rfl, hlayout⟩
    · rintro ⟨rfl, hlayout⟩
      exact ⟨e.layout, hlayout, rfl⟩
  simp only [mapM_eq_ok, bind_eq_ok, pure_eq_ok, hmade]

theorem embedChildren_eq_ok :
    n.embedChildren d = .ok n' ↔ ∃ children,
      List.Forall₂ (MadeBy (d.child · n.style))
        ((d.schema.keysTo n.relation).filter fun k => d.schema.contains k.source) children ∧
      n' = .node n.info n.parents children ∧
      (Layout.node n.info n.parents children).NamesApart := by
  rw [embedChildren, bind_eq_ok]
  simp only [mapM_eq_ok_iff_madeBy (d.child · n.style), checkNames_eq_ok]

theorem embedParents_eq_ok :
    n.embedParents d = .ok n' ↔ ∃ parents,
      List.Forall₂ (MadeBy (d.parent · n.style))
        ((d.schema.keysFrom n.relation).filter fun k => d.schema.contains k.target) parents ∧
      n' = .node n.info parents n.children ∧
      (Layout.node n.info parents n.children).NamesApart := by
  rw [embedParents, bind_eq_ok]
  simp only [mapM_eq_ok_iff_madeBy (d.parent · n.style), checkNames_eq_ok]

theorem sortBy_eq_ok {order : SortOrder} :
    n.sortBy d order = .ok n' ↔ ∃ known, d.schema.fields? n.relation = some known ∧
      (∀ t ∈ order.terms, (findField? known t.field).isSome) ∧
      n' = n.withInfo { n.info with order := some order } := by
  simp only [sortBy, bind_eq_ok, Schema.knownFields_eq_ok]
  refine exists_congr fun known => and_congr_right fun _ => ?_
  split
  · next t ht =>
    have hnone := List.find?_some ht
    refine ⟨nofun, fun h => ?_⟩
    have hsome := h.1 t (List.mem_of_find?_eq_some ht)
    rw [Option.isNone_iff_eq_none.1 hnone] at hsome
    cases hsome
  · next hfind =>
    rw [pure_eq_ok, iff_and_self]
    intro _ t ht
    simpa [Option.isSome_iff_ne_none] using List.find?_eq_none.1 hfind t ht

theorem selectFields_eq_ok {names : List String} :
    n.selectFields d names = .ok n' ↔ ∃ known fields,
      d.schema.fields? n.relation = some known ∧
      List.Forall₂ (fun name field => (findField? known name).map (·.name) = some field)
        names fields ∧
      n' = n.withInfo { n.info with fields } ∧
      (n.withInfo { n.info with fields }).NamesApart := by
  simp only [selectFields, bind_eq_ok, Schema.knownFields_eq_ok, mapM_eq_ok, checkNames_eq_ok,
    exists_and_left]
  refine exists_congr fun known => and_congr_right fun _ => exists_congr fun fields =>
    and_congr_left fun _ => ⟨.imp ?_, .imp ?_⟩ <;> intro name field h
  · split at h
    · next f hf => rw [hf, Option.map_some, Except.ok.inj h]
    · cases h
  · obtain ⟨f, hf, rfl⟩ := Option.map_eq_some_iff.1 h
    rw [hf]

theorem dropFields_eq_ok {names : List String} :
    n.dropFields names = .ok n' ↔
      (∀ name ∈ names, ∃ field ∈ n.fields, Text.Alike field name) ∧
      n' = n.withInfo { n.info with
        fields := n.fields.filter fun field => !names.any fun name => Text.Alike field name } := by
  unfold dropFields
  split
  · next name hname =>
    refine ⟨nofun, fun h => ?_⟩
    obtain ⟨field, hfield, halike⟩ := h.1 name (List.mem_of_find?_eq_some hname)
    have hnone := List.find?_some hname
    simp only [Bool.not_eq_true', List.any_eq_false, decide_eq_true_eq] at hnone
    exact absurd halike (hnone field hfield)
  · next hfind =>
    rw [Except.ok.injEq, eq_comm, iff_and_self]
    intro _ name hname
    simpa using List.find?_eq_none.1 hfind name hname

end Layout

end XmlPublishing

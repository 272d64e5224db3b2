import XmlPublishing.Proofs.Xsd.Growth
import XmlPublishing.Proofs.Xsd.Reading

/-!
One type for each shape.

In the text of a schema document all types have different names, every type that an element refers
to is defined once, no name is reserved without being defined, and there is one type for each class
of equal nodes and one for each class of equal nodes whose rows have a collection element
(`types_of_text`).

The types are counted through their names: a registry gives two nodes the same name exactly when
they are equal.
-/

namespace XmlPublishing

/-! ## Counting up to `==` -/

section

variable {α β : Type} [BEq α] {f : α → β}

/-- A function that tells members apart as `==` does takes the first occurrences to all values of
the function, each once. -/
theorem map_eraseDups (l : List α) (hf : ∀ a ∈ l, ∀ b ∈ l, a == b ↔ f a = f b) :
    (l.eraseDups.map f).Nodup ∧ ∀ x, x ∈ l.eraseDups.map f ↔ x ∈ l.map f :=
  match l with
  | [] => ⟨.nil, fun _ => Iff.rfl⟩
  | a :: as => by
    -- the recursion is on the members that differ from the first one
    have hrest : ∀ b, b ∈ as.filter (fun b => !b == a) ↔ b ∈ as ∧ f b ≠ f a := by
      intro b
      rw [List.mem_filter, Bool.not_eq_true', Bool.eq_false_iff]
      exact and_congr_right fun hb =>
        not_congr (hf b (List.mem_cons_of_mem _ hb) a List.mem_cons_self)
    obtain ⟨hnodup, hmem⟩ := map_eraseDups (as.filter fun b => !b == a) fun b hb c hc =>
      hf b (List.mem_cons_of_mem _ ((hrest b).1 hb).1) c (List.mem_cons_of_mem _ ((hrest c).1 hc).1)
    rw [List.eraseDups_cons]
    constructor
    · refine List.nodup_cons.2 ⟨fun ha => ?_, hnodup⟩
      obtain ⟨b, hb, heq⟩ := List.mem_map.1 ((hmem _).1 ha)
      exact ((hrest b).1 hb).2 heq
    · intro x
      rw [List.map_cons, List.map_cons, List.mem_cons, List.mem_cons, hmem]
      by_cases hx : x = f a
      · simp [hx]
      · refine or_congr_right ?_
        simp only [List.mem_map, hrest]
        constructor
        · rintro ⟨b, ⟨hb, -⟩, rfl⟩
          exact ⟨b, hb, rfl⟩
        · rintro ⟨b, hb, rfl⟩
          exact ⟨b, ⟨hb, hx⟩, rfl⟩
termination_by l.length
decreasing_by exact Nat.lt_succ_of_le (List.length_filter_le _ _)

theorem length_eraseDups {l : List α} {xs : List β} (hf : ∀ a ∈ l, ∀ b ∈ l, a == b ↔ f a = f b)
    (hxs : xs.Nodup) (hmem : ∀ x, x ∈ xs ↔ x ∈ l.map f) : l.eraseDups.length = xs.length := by
  obtain ⟨hnodup, hvalues⟩ := map_eraseDups l hf
  have hperm : (l.eraseDups.map f).Perm xs :=
    (List.perm_ext_iff_of_nodup hnodup hxs).2 fun x => (hvalues x).trans (hmem x).symm
  rw [← hperm.length_eq, List.length_map]

end

namespace Xsd

variable {s : Schema} {o : XsdOptions} {n : Layout}

namespace Document

/-- The names of all types, in order. -/
def names (d : Document) : List String := d.types.map (·.name)

/-- Exactly one type of the document has that name. -/
def DefinesOnce (d : Document) (name : String) : Prop := d.names.count name = 1

/-- The type has an element for each field of the node, and then one for each of its contents,
whose type is defined once. -/
def IsRowsType (d : Document) (s : Schema) (n : Layout) (t : ComplexType) : Prop :=
  ∃ fields own refs, s.fields? n.relation = some fields ∧
    n.fields.mapM (fieldElement n.relation fields) = .ok own ∧ t.elements = own ++ refs ∧
    refs.map (·.name) = n.contentNames.map (·.2) ∧ ∀ e ∈ refs, d.DefinesOnce e.typeName

/-- The type has one element, for rows of the node, whose type is defined once. -/
def IsListingType (d : Document) (n : Layout) (t : ComplexType) : Prop :=
  ∃ e, t.elements = [e] ∧ e.name = n.rowName ∧ d.DefinesOnce e.typeName

end Document

namespace TypeRegistry

variable {r : TypeRegistry} {m : Layout} {rowsType listing : String}

theorem Names.mem_names (h : r.Names m rowsType) : rowsType ∈ r.names := by
  obtain ⟨m', hm', -⟩ := h
  exact List.mem_append_left _ (List.mem_map_of_mem hm')

theorem mem_names_of_mem_listingTypes (h : (rowsType, listing) ∈ r.listingTypes) :
    listing ∈ r.names := List.mem_append_right _ (List.mem_map_of_mem h)

theorem Holds.mem_names {style : CollectionStyle} {name : String} (h : r.Holds m style name) :
    name ∈ r.names := by
  cases style with
  | wrapped =>
    obtain ⟨rowsType, -, hlisting⟩ := h
    exact mem_names_of_mem_listingTypes hlisting
  | inline => exact Names.mem_names h

theorem WF.rowsType?_eq_some_iff (h : r.WF) :
    r.rowsType? m = some rowsType ↔ r.Names m rowsType := by
  refine ⟨names_of_rowsType?, fun hm => ?_⟩
  cases hr : r.rowsType? m with
  | none => exact absurd hm (not_names_of_rowsType?_eq_none hr)
  | some name => exact congrArg some (h.names_unique (names_of_rowsType? hr) hm)

theorem WF.beq_iff_rowsType?_eq (h : r.WF) {m' : Layout} (hm : ∃ rowsType, r.Names m rowsType)
    (hm' : ∃ rowsType, r.Names m' rowsType) : m == m' ↔ r.rowsType? m = r.rowsType? m' := by
  obtain ⟨rowsType, hm⟩ := hm
  obtain ⟨rowsType', hm'⟩ := hm'
  rw [h.rowsType?_eq_some_iff.2 hm, h.rowsType?_eq_some_iff.2 hm', Option.some.injEq]
  constructor
  · intro heq
    exact h.names_unique (hm.congr heq) hm'
  · rintro rfl
    exact h.beq_of_names hm hm'

/-- Nodes are counted up to `==` by the types of their rows. -/
theorem WF.length_eraseDups (h : r.WF) {ms : List Layout} {names : List String}
    (hnodup : names.Nodup) (hms : ∀ m ∈ ms, ∃ name ∈ names, r.Names m name)
    (hnames : ∀ name ∈ names, ∃ m ∈ ms, r.Names m name) :
    ms.eraseDups.length = names.length := by
  have hf : ∀ m ∈ ms, ∀ m' ∈ ms, m == m' ↔ r.rowsType? m = r.rowsType? m' := by
    intro m hm m' hm'
    obtain ⟨name, -, hname⟩ := hms m hm
    obtain ⟨name', -, hname'⟩ := hms m' hm'
    exact h.beq_iff_rowsType?_eq ⟨name, hname⟩ ⟨name', hname'⟩
  have hlength : (names.map some).length = names.length := List.length_map some
  rw [← hlength]
  refine XmlPublishing.length_eraseDups hf (hnodup.map fun _ _ h => Option.some.inj h) fun x => ?_
  simp only [List.mem_map]
  constructor
  · rintro ⟨name, hname, rfl⟩
    obtain ⟨m, hm, hmname⟩ := hnames name hname
    exact ⟨m, hm, h.rowsType?_eq_some_iff.2 hmname⟩
  · rintro ⟨m, hm, rfl⟩
    obtain ⟨name, hname, hmname⟩ := hms m hm
    exact ⟨name, hname, (h.rowsType?_eq_some_iff.2 hmname).symm⟩

theorem WF.names_perm_usedNames (h : r.WF) : r.names.Perm r.usedNames.toList :=
  (List.perm_ext_iff_of_nodup h.distinct (NameSet.nodup_toList _)).2 fun name => (h.used name).symm

end TypeRegistry

open TypeRegistry

namespace Grows

variable {N W : List Layout} {r : TypeRegistry} {types : List ComplexType} {m : Layout}
  {rowsType listing : String}

theorem exists_names (h : Grows s N W .empty types r) (hm : ∃ rowsType, r.Names m rowsType) :
    ∀ k ∈ m.nodes, ∃ rowsType, r.Names k rowsType := by
  induction m with
  | node info parents children ihParents ihChildren =>
    obtain ⟨rowsType, hm⟩ := hm
    obtain ⟨t, -, -, fields, own, ps, cs, -, -, hps, hcs, -⟩ := h.exists_typesRows hm
    rw [Layout.forall_mem_nodes]
    refine ⟨⟨rowsType, hm⟩, fun e he => ihParents e he ?_, fun e he => ihChildren e he ?_⟩
    · obtain ⟨d, -, hd⟩ := forall₂_exists_right hps he
      exact ⟨_, hd.type⟩
    · obtain ⟨d, -, hd⟩ := forall₂_exists_right hcs he
      have htype := hd.type
      cases hstyle : (Layout.node info parents children).style with
      | inline =>
        rw [hstyle] at htype
        exact ⟨_, htype⟩
      | wrapped =>
        rw [hstyle] at htype
        obtain ⟨rowsType', he', -⟩ := htype
        exact ⟨rowsType', he'⟩

theorem exists_lists (h : Grows s N W .empty types r) (hm : r.Names m rowsType)
    (hstyle : m.style = .wrapped) {e : Joined Layout} (he : e ∈ m.children) :
    ∃ listing, r.Lists e.layout listing := by
  obtain ⟨t, -, -, fields, own, ps, cs, -, -, -, hcs, -⟩ := h.exists_typesRows hm
  obtain ⟨d, -, hd⟩ := forall₂_exists_right hcs he
  have htype := hd.type
  rw [hstyle] at htype
  exact ⟨_, htype⟩

end Grows

/-! ## The document of a finished registry -/

section

variable {r : TypeRegistry} {doc : Document}

theorem Grows.definesOnce {N W : List Layout} (h : Grows s N W .empty doc.types r) {name : String}
    (hname : name ∈ r.names) : doc.DefinesOnce name :=
  List.count_eq_one_of_mem h.names_nodup (h.names_perm.mem_iff.2 hname)

theorem Grows.isRowsType {N W : List Layout} (h : Grows s N W .empty doc.types r) {m : Layout}
    {t : ComplexType} (ht : r.TypesRows s m t) : doc.IsRowsType s m t := by
  obtain ⟨fields, own, ps, cs, hfields, hown, hps, hcs, ht⟩ := ht
  refine ⟨fields, own, ps ++ cs, hfields, hown, by rw [ht, List.append_assoc], ?_, fun e he => ?_⟩
  · have hpnames := map_eq_map_of_forall₂ hps fun j e h => h.name
    have hcnames := map_eq_map_of_forall₂ hcs fun j e h => h.name
    rw [List.map_append, hpnames, hcnames, Layout.contentNames, List.map_append, List.map_map,
      List.map_map]
    rfl
  · rcases List.mem_append.1 he with he | he
    · obtain ⟨j, -, hj⟩ := forall₂_exists_left hps he
      exact h.definesOnce hj.type.mem_names
    · obtain ⟨j, -, hj⟩ := forall₂_exists_left hcs he
      exact h.definesOnce hj.type.mem_names

theorem Grows.isListingType {N W : List Layout} (h : Grows s N W .empty doc.types r) {m : Layout}
    {t : ComplexType} {rowsType : String} (hm : r.Names m rowsType)
    (ht : r.TypesListing rowsType t) : doc.IsListingType m t := by
  obtain ⟨m', e, hm', hname, htype, ht⟩ := ht
  refine ⟨e, ht, hname.trans (Layout.rowName_eq_of_beq (h.wf.beq_of_names hm' hm)), ?_⟩
  rw [htype]
  exact h.definesOnce hm.mem_names

/-- Every type of the document is the one that was defined for its name. -/
theorem Grows.isRowsType_or_isListingType {N W : List Layout}
    (h : Grows s N W .empty doc.types r) {t : ComplexType} (ht : t ∈ doc.types) :
    (∃ m ∈ N, doc.IsRowsType s m t) ∨ ∃ m ∈ W, doc.IsListingType m t := by
  have hinj := List.inj_on_of_nodup_map h.names_nodup
  have hname : t.name ∈ r.names := h.names_perm.mem_iff.1 (List.mem_map_of_mem ht)
  rcases List.mem_append.1 hname with hname | hname
  · obtain ⟨⟨m, rowsType⟩, hm, heq⟩ := List.mem_map.1 hname
    obtain ⟨⟨hN, -⟩, t', ht', hname', htypes⟩ := h.of_mem_rowsTypes hm
    obtain rfl := hinj ht' ht (hname'.trans heq)
    exact .inl ⟨m, hN, h.isRowsType htypes⟩
  · obtain ⟨⟨rowsType, listing⟩, hlisting, heq⟩ := List.mem_map.1 hname
    obtain ⟨⟨c, hW, hc, -⟩, t', ht', hname', htypes⟩ := h.of_mem_listingTypes hlisting
    obtain rfl := hinj ht' ht (hname'.trans heq)
    exact .inr ⟨c, hW, h.isListingType hc htypes⟩

theorem Grows.length_rowsTypes {W : List Layout} (h : Grows s n.nodes W .empty doc.types r)
    (hn : ∃ rowsType, r.Names n rowsType) : n.nodes.eraseDups.length = r.rowsTypes.length := by
  have hnodup : (r.rowsTypes.map (·.2)).Nodup := (List.nodup_append.1 h.wf.distinct).1
  rw [← List.length_map Prod.snd]
  refine h.wf.length_eraseDups hnodup (fun m hm => ?_) fun name hname => ?_
  · obtain ⟨rowsType, m', hm', heq⟩ := h.exists_names hn m hm
    exact ⟨rowsType, List.mem_map_of_mem hm', m', hm', heq⟩
  · obtain ⟨⟨m, rowsType⟩, hm, rfl⟩ := List.mem_map.1 hname
    exact ⟨m, (h.of_mem_rowsTypes hm).1.1, m, hm, BEq.rfl⟩

theorem Grows.length_listingTypes (h : Grows s n.nodes (listed o n) .empty doc.types r)
    (hn : ∃ rowsType, r.Names n rowsType)
    (hroot : o.includeCollectionRoot = true → ∃ listing, r.Lists n listing) :
    (listed o n).eraseDups.length = r.listingTypes.length := by
  have hlists : ∀ m ∈ listed o n, ∃ listing, r.Lists m listing := by
    intro m hm
    rcases List.mem_append.1 hm with hm | hm
    · obtain ⟨k, hk, hstyle, e, he, rfl⟩ := Layout.mem_wrapped.1 hm
      obtain ⟨rowsType, hk⟩ := h.exists_names hn k hk
      exact h.exists_lists hk hstyle he
    · split at hm
      · next hincluded =>
        obtain rfl := List.mem_singleton.1 hm
        exact hroot hincluded
      · cases hm
  rw [← List.length_map Prod.fst]
  refine h.wf.length_eraseDups h.wf.listings (fun m hm => ?_) fun name hname => ?_
  · obtain ⟨listing, rowsType, hm, hlisting⟩ := hlists m hm
    exact ⟨rowsType, List.mem_map_of_mem hlisting, hm⟩
  · obtain ⟨⟨rowsType, listing⟩, hlisting, rfl⟩ := List.mem_map.1 hname
    obtain ⟨⟨c, hc, hname, -⟩, -⟩ := h.of_mem_listingTypes hlisting
    exact ⟨c, hc, hname⟩

end

theorem Document.types_of_ofLayout_eq_ok {doc : Document} (h : Document.ofLayout s o n = .ok doc) :
    doc.names.Nodup ∧ (∀ e ∈ doc.roots, doc.DefinesOnce e.typeName) ∧
      (∀ t ∈ doc.types, (∃ m ∈ n.nodes, doc.IsRowsType s m t) ∨
        ∃ m ∈ listed o n, doc.IsListingType m t) ∧
      (∃ r, (declarations s o n).run .empty = .ok ((doc.roots, doc.types), r) ∧
        doc.names.Perm r.usedNames.toList) ∧
      doc.types.length = n.nodes.eraseDups.length + (listed o n).eraseDups.length := by
  obtain ⟨r, hrun, -⟩ := ofLayout_eq_ok.1 h
  obtain ⟨hgrows, rowsType, listing?, hname, hlisting, hisSome, hroots⟩ := declarations_grows hrun
  refine ⟨hgrows.names_nodup, fun e he => hgrows.definesOnce ?_,
    fun t ht => hgrows.isRowsType_or_isListingType ht,
    ⟨r, hrun, hgrows.names_perm.trans hgrows.wf.names_perm_usedNames⟩, ?_⟩
  · rw [hroots] at he
    rcases List.mem_cons.1 he with rfl | he
    · exact hname.mem_names
    · obtain ⟨listing, hmem, rfl⟩ := List.mem_map.1 he
      exact mem_names_of_mem_listingTypes (hlisting listing (Option.mem_toList.1 hmem))
  · have hlisted : o.includeCollectionRoot = true → ∃ listing, r.Lists n listing := by
      intro hincluded
      rw [← hisSome] at hincluded
      obtain ⟨listing, hmem⟩ := Option.isSome_iff_exists.1 hincluded
      exact ⟨listing, rowsType, hname, hlisting listing hmem⟩
    have hlength := hgrows.names_perm.length_eq
    rw [List.length_map, TypeRegistry.names, List.length_append, List.length_map,
      List.length_map] at hlength
    rw [hlength, hgrows.length_rowsTypes ⟨rowsType, hname⟩,
      hgrows.length_listingTypes ⟨rowsType, hname⟩ hlisted]

/-- The text of a schema document is read as a document whose types have different names, with one
type for each class of equal nodes and of equal nodes with a collection element. What an element
refers to is defined once, and every name that was taken is defined. -/
theorem types_of_text {t : String} (h : text s o n = .ok t) :
    ∃ doc, Document.read? t = some doc ∧
      doc.names.Nodup ∧ (∀ e ∈ doc.roots, doc.DefinesOnce e.typeName) ∧
      (∀ t ∈ doc.types, (∃ m ∈ n.nodes, doc.IsRowsType s m t) ∨
        ∃ m ∈ listed o n, doc.IsListingType m t) ∧
      (∃ r, (declarations s o n).run .empty = .ok ((doc.roots, doc.types), r) ∧
        doc.names.Perm r.usedNames.toList) ∧
      doc.types.length = n.nodes.eraseDups.length + (listed o n).eraseDups.length := by
  obtain ⟨doc, hread, hdoc⟩ := exists_read?_of_text h
  exact ⟨doc, hread, Document.types_of_ofLayout_eq_ok hdoc⟩

end Xsd

theorem Staff.types_of_team_text :
    ∃ t, Xsd.text schema { includeCollectionRoot := true } team = .ok t ∧
      ∃ doc, Xsd.Document.read? t = some doc ∧ doc.names.Nodup ∧
        doc.types.length = team.nodes.eraseDups.length +
          (Xsd.listed { includeCollectionRoot := true } team).eraseDups.length := by
  obtain ⟨t, ht⟩ : ∃ t, Xsd.text schema { includeCollectionRoot := true } team = .ok t :=
    ⟨_, map_eq_ok.2 ⟨_, ofLayout_team, rfl⟩⟩
  obtain ⟨doc, hread, hnames, -, -, -, hlength⟩ := Xsd.types_of_text ht
  exact ⟨t, ht, doc, hread, hnames, hlength⟩

end XmlPublishing

import XmlPublishing.Proofs.Xsd.Registry

/-!
How the registry grows while a layout is described.

`TypeRegistry.TypesRows` and `TypeRegistry.TypesListing` say what a type definition has to contain,
in terms of the names in a registry. Each step of describing a layout only adds names, and defines
exactly those that it adds (`Grows`, `typeOfRows_grows`, `declarations_grows`).
-/

namespace XmlPublishing

/-- The nodes whose rows have a collection element of their own inside the layout. -/
def Layout.wrapped (n : Layout) : List Layout :=
  n.nodes.flatMap fun m => match m.style with
    | .wrapped => m.children.map (·.layout)
    | .inline => []

theorem Layout.mem_wrapped {m n : Layout} :
    m ∈ n.wrapped ↔ ∃ k ∈ n.nodes, k.style = .wrapped ∧ ∃ e ∈ k.children, e.layout = m := by
  rw [Layout.wrapped, List.mem_flatMap]
  refine exists_congr fun k => and_congr_right fun _ => ?_
  cases k.style <;> simp

namespace Xsd

namespace TypeRegistry

variable {s : Schema} {r r' r'' : TypeRegistry} {m n : Layout} {style : CollectionStyle}
  {t : ComplexType} {e : ElementDecl} {j : Joined Layout} {rowsType name : String}

/-- Collections of the rows of nodes equal to `n` have the given type. -/
def Lists (r : TypeRegistry) (n : Layout) (listing : String) : Prop :=
  ∃ rowsType, r.Names n rowsType ∧ (rowsType, listing) ∈ r.listingTypes

/-- The content of a node with the given style holds the rows of `n` under the given type. -/
def Holds (r : TypeRegistry) (n : Layout) : CollectionStyle → String → Prop
  | .wrapped => r.Lists n
  | .inline => r.Names n

structure TypesParent (r : TypeRegistry) (j : Joined Layout) (e : ElementDecl) : Prop where
  name : e.name = j.layout.rowName
  type : r.Names j.layout e.typeName

structure TypesChild (r : TypeRegistry) (style : CollectionStyle) (j : Joined Layout)
    (e : ElementDecl) : Prop where
  name : e.name = j.layout.contentName style
  type : r.Holds j.layout style e.typeName

/-- The type `t` has the elements of the rows of `n`. -/
def TypesRows (s : Schema) (r : TypeRegistry) (n : Layout) (t : ComplexType) : Prop :=
  ∃ fields own ps cs, s.fields? n.relation = some fields ∧
    n.fields.mapM (fieldElement n.relation fields) = .ok own ∧
    List.Forall₂ r.TypesParent n.parents ps ∧ List.Forall₂ (r.TypesChild n.style) n.children cs ∧
    t.elements = own ++ ps ++ cs

/-- The type `t` has one element, for rows of the type `rowsType`. -/
def TypesListing (r : TypeRegistry) (rowsType : String) (t : ComplexType) : Prop :=
  ∃ n e, r.Names n rowsType ∧ e.name = n.rowName ∧ e.typeName = rowsType ∧ t.elements = [e]

structure Sub (r r' : TypeRegistry) : Prop where
  rows : r.rowsTypes ⊆ r'.rowsTypes
  listings : r.listingTypes ⊆ r'.listingTypes

theorem Sub.refl (r : TypeRegistry) : r.Sub r := ⟨fun _ h => h, fun _ h => h⟩

theorem Sub.trans (h : r.Sub r') (h' : r'.Sub r'') : r.Sub r'' :=
  ⟨fun _ he => h'.rows (h.rows he), fun _ he => h'.listings (h.listings he)⟩

theorem sub_addRowsType (r : TypeRegistry) (n : Layout) (name : String) :
    r.Sub (r.addRowsType n name) := ⟨List.subset_cons_self _ _, fun _ h => h⟩

theorem sub_addListingType (r : TypeRegistry) (rowsType name : String) :
    r.Sub (r.addListingType rowsType name) := ⟨fun _ h => h, List.subset_cons_self _ _⟩

theorem Lists.mono (h : r.Lists n name) (hsub : r.Sub r') : r'.Lists n name := by
  obtain ⟨rowsType, hn, hlisting⟩ := h
  exact ⟨rowsType, hn.mono hsub.rows, hsub.listings hlisting⟩

theorem Holds.mono (h : r.Holds n style name) (hsub : r.Sub r') : r'.Holds n style name := by
  cases style with
  | wrapped => exact Lists.mono h hsub
  | inline => exact Names.mono h hsub.rows

theorem Holds.congr (h : r.Holds m style name) (heq : m == n) : r.Holds n style name := by
  cases style with
  | wrapped =>
    obtain ⟨rowsType, hm, hlisting⟩ := h
    exact ⟨rowsType, hm.congr heq, hlisting⟩
  | inline => exact Names.congr h heq

theorem TypesParent.mono (h : r.TypesParent j e) (hsub : r.Sub r') : r'.TypesParent j e :=
  ⟨h.name, h.type.mono hsub.rows⟩

theorem TypesChild.mono (h : r.TypesChild style j e) (hsub : r.Sub r') : r'.TypesChild style j e :=
  ⟨h.name, h.type.mono hsub⟩

theorem TypesRows.mono (h : r.TypesRows s n t) (hsub : r.Sub r') : r'.TypesRows s n t := by
  obtain ⟨fields, own, ps, cs, hfields, hown, hps, hcs, ht⟩ := h
  exact ⟨fields, own, ps, cs, hfields, hown, hps.imp fun _ _ h => h.mono hsub,
    hcs.imp fun _ _ h => h.mono hsub, ht⟩

theorem TypesListing.mono (h : r.TypesListing rowsType t) (hsub : r.Sub r') :
    r'.TypesListing rowsType t := by
  obtain ⟨n, e, hn, h⟩ := h
  exact ⟨n, e, hn.mono hsub.rows, h⟩

end TypeRegistry

open TypeRegistry

variable {s : Schema} {o : XsdOptions} {N W : List Layout} {r r' r'' : TypeRegistry}
  {types types' : List ComplexType} {n : Layout}

/-- While `types` were defined, `r` grew to `r'`: exactly their names were added, for nodes in `N`
and for listings of nodes in `W`. -/
structure Grows (s : Schema) (N W : List Layout) (r : TypeRegistry) (types : List ComplexType)
    (r' : TypeRegistry) : Prop where
  wf : r'.WF
  sub : r.Sub r'
  names : (types.map (·.name) ++ r.names).Perm r'.names
  rows : ∀ e ∈ r'.rowsTypes, e ∈ r.rowsTypes ∨
    (e.1 ∈ N ∧ Numbered (s.rowsTypeName e.1.relation) e.2) ∧
      ∃ t ∈ types, t.name = e.2 ∧ r'.TypesRows s e.1 t
  listings : ∀ e ∈ r'.listingTypes, e ∈ r.listingTypes ∨
    (∃ c ∈ W, r'.Names c e.1 ∧ Numbered (s.listingTypeName c.relation) e.2) ∧
      ∃ t ∈ types, t.name = e.2 ∧ r'.TypesListing e.1 t

namespace Grows

theorem refl (hr : r.WF) : Grows s N W r [] r :=
  ⟨hr, .refl r, .refl _, fun _ h => .inl h, fun _ h => .inl h⟩

theorem trans (h : Grows s N W r types r') (h' : Grows s N W r' types' r'') :
    Grows s N W r (types ++ types') r'' where
  wf := h'.wf
  sub := h.sub.trans h'.sub
  names := by
    have hperm : (types'.map (·.name) ++ (types.map (·.name) ++ r.names)).Perm r''.names :=
      (h.names.append_left _).trans h'.names
    rw [← List.append_assoc] at hperm
    rw [List.map_append]
    exact (List.perm_append_comm.append_right _).trans hperm
  rows e he := by
    rcases h'.rows e he with he | ⟨hN, t, ht, htypes⟩
    · rcases h.rows e he with he | ⟨hN, t, ht, hname, htypes⟩
      · exact .inl he
      · exact .inr ⟨hN, t, List.mem_append_left _ ht, hname, htypes.mono h'.sub⟩
    · exact .inr ⟨hN, t, List.mem_append_right _ ht, htypes⟩
  listings e he := by
    rcases h'.listings e he with he | ⟨hW, t, ht, htypes⟩
    · rcases h.listings e he with he | ⟨⟨c, hc, hnames, hbase⟩, t, ht, hname, htypes⟩
      · exact .inl he
      · exact .inr ⟨⟨c, hc, hnames.mono h'.sub.rows, hbase⟩, t, List.mem_append_left _ ht, hname,
          htypes.mono h'.sub⟩
    · exact .inr ⟨hW, t, List.mem_append_right _ ht, htypes⟩

/-- The definition of a type whose name was added first. -/
theorem define {t : ComplexType} (h : Grows s N W (r.addRowsType n t.name) types r') (hn : n ∈ N)
    (hbase : Numbered (s.rowsTypeName n.relation) t.name) (ht : r'.TypesRows s n t) :
    Grows s N W r (t :: types) r' where
  wf := h.wf
  sub := (sub_addRowsType r n t.name).trans h.sub
  names := List.perm_middle.symm.trans h.names
  rows e he := by
    rcases h.rows e he with he | ⟨hN, t', ht', htypes⟩
    · rcases List.mem_cons.1 he with rfl | he
      · exact .inr ⟨⟨hn, hbase⟩, t, List.mem_cons_self, rfl, ht⟩
      · exact .inl he
    · exact .inr ⟨hN, t', List.mem_cons_of_mem _ ht', htypes⟩
  listings e he := by
    rcases h.listings e he with he | ⟨hW, t', ht', htypes⟩
    · exact .inl he
    · exact .inr ⟨hW, t', List.mem_cons_of_mem _ ht', htypes⟩

end Grows

/-! ## The steps -/

/-- Describing the rows of `n` defines what it names, and names the type of `n`. -/
def RowsGrow (s : Schema) (o : XsdOptions) (N W : List Layout) (n : Layout) : Prop :=
  ∀ r r' name types, r.WF → (typeOfRows s o n).run r = .ok ((name, types), r') →
    Grows s N W r types r' ∧ r'.Names n name

theorem typeOfListing_grows {rowsType name : String} (hr : r.WF) (hn : r.Names n rowsType)
    (hW : n ∈ W) (h : (typeOfListing s n rowsType).run r = .ok ((name, types), r')) :
    Grows s N W r types r' ∧ (rowsType, name) ∈ r'.listingTypes := by
  cases hlisting : r.listingType? rowsType with
  | some name' =>
    rw [typeOfListing_run_of_some hlisting] at h
    cases h
    exact ⟨.refl hr, mem_of_listingType? hlisting⟩
  | none =>
    rw [typeOfListing_run_of_none hlisting] at h
    cases h
    have hsub := sub_addListingType r rowsType (newListing s r n rowsType).name
    have hnew : (newListing s r n rowsType).name ∉ r.names := hr.freshName_notMem_names _
    refine ⟨⟨hr.addListingType hlisting hnew, hsub, (names_addListingType ..).symm,
      fun _ he => .inl he, fun e he => ?_⟩, List.mem_cons_self⟩
    rcases List.mem_cons.1 he with rfl | he
    · exact .inr ⟨⟨n, hW, hn.mono hsub.rows, r.numbered_freshName _⟩, _,
        List.mem_singleton_self _, rfl, ⟨n, _, hn.mono hsub.rows, rfl, rfl, rfl⟩⟩
    · exact .inl he

theorem childElement_grows {style : CollectionStyle} {j : Joined Layout} {rowsType : String}
    {e : ElementDecl} (hr : r.WF) (hn : r.Names j.layout rowsType)
    (hW : style = .wrapped → j.layout ∈ W)
    (h : (childElement s o style j.layout rowsType).run r = .ok ((e, types), r')) :
    Grows s N W r types r' ∧ r'.TypesChild style j e := by
  cases style with
  | inline =>
    cases h
    exact ⟨.refl hr, rfl, hn⟩
  | wrapped =>
    obtain ⟨name, _, _, hlisting, h⟩ := childElement_run_wrapped.1 h
    cases h
    obtain ⟨hgrows, hmem⟩ := typeOfListing_grows hr hn (hW rfl) hlisting
    exact ⟨hgrows, rfl, rowsType, hn.mono hgrows.sub.rows, hmem⟩

theorem parentElements_grows {fields : List Field} {es : List (Joined Layout)}
    {elements : List ElementDecl} (ih : ∀ e ∈ es, RowsGrow s o N W e.layout) (hr : r.WF)
    (h : (parentElements s o fields es).run r = .ok ((elements, types), r')) :
    Grows s N W r types r' ∧ List.Forall₂ r'.TypesParent es elements := by
  induction es generalizing r elements types with
  | nil =>
    cases h
    exact ⟨.refl hr, .nil⟩
  | cons e es ihEs =>
    obtain ⟨name, types₁, r₁, elements₁, types₂, r₂, hrows, hrest, h⟩ := parentElements_run_cons.1 h
    cases h
    obtain ⟨hgrows₁, hname⟩ := ih e List.mem_cons_self _ _ _ _ hr hrows
    obtain ⟨hgrows₂, hrest⟩ := ihEs (fun e he => ih e (List.mem_cons_of_mem _ he)) hgrows₁.wf hrest
    exact ⟨hgrows₁.trans hgrows₂, .cons ⟨rfl, hname.mono hgrows₂.sub.rows⟩ hrest⟩

theorem childElements_grows {style : CollectionStyle} {es : List (Joined Layout)}
    {elements : List ElementDecl} (ih : ∀ e ∈ es, RowsGrow s o N W e.layout)
    (hW : style = .wrapped → ∀ e ∈ es, e.layout ∈ W) (hr : r.WF)
    (h : (childElements s o style es).run r = .ok ((elements, types), r')) :
    Grows s N W r types r' ∧ List.Forall₂ (r'.TypesChild style) es elements := by
  induction es generalizing r elements types with
  | nil =>
    cases h
    exact ⟨.refl hr, .nil⟩
  | cons e es ihEs =>
    obtain ⟨name, types₁, r₁, element, types₂, r₂, elements₁, types₃, r₃, hrows, hchild, hrest,
      h⟩ := childElements_run_cons.1 h
    cases h
    obtain ⟨hgrows₁, hname⟩ := ih e List.mem_cons_self _ _ _ _ hr hrows
    obtain ⟨hgrows₂, hchild⟩ :=
      childElement_grows hgrows₁.wf hname (fun hs => hW hs e List.mem_cons_self) hchild
    obtain ⟨hgrows₃, hrest⟩ := ihEs (fun e he => ih e (List.mem_cons_of_mem _ he))
      (fun hs e he => hW hs e (List.mem_cons_of_mem _ he)) hgrows₂.wf hrest
    exact ⟨(hgrows₁.trans hgrows₂).trans hgrows₃, .cons (hchild.mono hgrows₃.sub) hrest⟩

theorem typeOfRows_grows (hN : n.nodes ⊆ N)
    (hW : ∀ m ∈ N, m.style = .wrapped → ∀ e ∈ m.children, e.layout ∈ W) : RowsGrow s o N W n := by
  induction n with
  | node info parents children ihParents ihChildren =>
    intro r r' name types hr h
    rcases typeOfRows_run_eq_ok.1 h with ⟨hname, rfl, rfl⟩ | ⟨hnew, rfl, fields, own, ps,
      parentTypes, r₁, cs, childTypes, hfields, hown, hps, hcs, rfl⟩
    · exact ⟨.refl hr, names_of_rowsType? hname⟩
    let n : Layout := .node info parents children
    have hn : n ∈ N := hN n.self_mem_nodes
    have hsub (m : Layout) (hm : m ∈ n.nodes) : m.nodes ⊆ N :=
      fun k hk => hN (Layout.mem_nodes_trans hk hm)
    -- the type is named before what is inside it is described, so the steps start from `r` with it
    have hr₀ := hr.addRowsType hnew (hr.freshName_notMem_names (s.rowsTypeName info.relation))
    obtain ⟨hgrows₁, hps⟩ := parentElements_grows
      (fun e he => ihParents e he (hsub _ (Layout.mem_nodes_of_parent (n := n) he))) hr₀ hps
    obtain ⟨hgrows₂, hcs⟩ := childElements_grows
      (fun e he => ihChildren e he (hsub _ (Layout.mem_nodes_of_child (n := n) he)))
      (hW n hn) hgrows₁.wf hcs
    have hgrows := hgrows₁.trans hgrows₂
    refine ⟨hgrows.define hn (r.numbered_freshName _)
      ⟨fields, own, ps, cs, hfields, hown, ?_, hcs, rfl⟩, n,
      hgrows.sub.rows List.mem_cons_self, BEq.rfl⟩
    exact hps.imp fun _ _ h => h.mono hgrows₂.sub

/-! ## Finished documents -/

/-- The nodes whose rows have a collection element in the described documents. -/
def listed (o : XsdOptions) (n : Layout) : List Layout :=
  n.wrapped ++ if o.includeCollectionRoot then [n] else []

theorem mem_listed_of_child {m : Layout} (hm : m ∈ n.nodes) (hstyle : m.style = .wrapped)
    {e : Joined Layout} (he : e ∈ m.children) : e.layout ∈ listed o n :=
  List.mem_append_left _ (Layout.mem_wrapped.2 ⟨m, hm, hstyle, e, he, rfl⟩)

/-- A description from scratch defines exactly the types that it names, and the global elements
have two of these. -/
theorem declarations_grows {roots : List ElementDecl}
    (h : (declarations s o n).run .empty = .ok ((roots, types), r)) :
    Grows s n.nodes (listed o n) .empty types r ∧ ∃ rowsType listing?, r.Names n rowsType ∧
      (∀ listing ∈ listing?, (rowsType, listing) ∈ r.listingTypes) ∧
      listing?.isSome = o.includeCollectionRoot ∧ roots = rootDecls n rowsType listing? := by
  obtain ⟨rowsType, types₁, r₁, hrows, h⟩ := declarations_run_eq_ok.1 h
  have hW : ∀ m ∈ n.nodes, m.style = .wrapped → ∀ e ∈ m.children, e.layout ∈ listed o n :=
    fun m hm hstyle e he => mem_listed_of_child hm hstyle he
  obtain ⟨hgrows₁, hname⟩ := typeOfRows_grows (fun _ h => h) hW _ _ _ _ wf_empty hrows
  rcases h with ⟨hroot, h⟩ | ⟨hroot, listing, types₂, r₂, hlisting, h⟩
  · cases h
    exact ⟨hgrows₁, rowsType, none, hname, nofun, hroot.symm, rfl⟩
  · cases h
    have hn : n ∈ listed o n := List.mem_append_right _ (by simp [hroot])
    obtain ⟨hgrows₂, hmem⟩ := typeOfListing_grows hgrows₁.wf hname hn hlisting
    refine ⟨hgrows₁.trans hgrows₂, rowsType, some listing, hname.mono hgrows₂.sub.rows, ?_,
      hroot.symm, rfl⟩
    intro listing' hlisting'
    obtain rfl := Option.some.inj hlisting'
    exact hmem

theorem fieldElement_congr {a b : RelationId} {fields : List Field} {name : String}
    {e : ElementDecl} (h : fieldElement a fields name = .ok e) :
    fieldElement b fields name = .ok e := by
  unfold fieldElement at h ⊢
  split at h
  · exact h
  · cases h

theorem TypeRegistry.TypesRows.congr {m : Layout} {t : ComplexType} (h : r.TypesRows s m t)
    (heq : m == n) : r.TypesRows s n t := by
  obtain ⟨fields, own, ps, cs, hfields, hown, hps, hcs, ht⟩ := h
  have hfields' : s.fields? n.relation = some fields :=
    (Schema.fields?_congr (Layout.relation_beq heq)).symm.trans hfields
  refine ⟨fields, own, ps, cs, hfields', ?_, ?_, ?_, ht⟩
  · rw [← Layout.fields_eq_of_beq heq]
    exact mapM_eq_ok.2 ((mapM_eq_ok.1 hown).imp fun _ _ h => fieldElement_congr h)
  · refine forall₂_trans_of_mem (Layout.parents_same heq).flip hps fun j _ j' _ e _ hsame h => ?_
    exact ⟨h.name.trans (Layout.rowName_eq_of_beq hsame.2), h.type.congr hsame.2⟩
  · refine forall₂_trans_of_mem (Layout.children_same heq).flip hcs fun j _ j' _ e _ hsame h => ?_
    rw [← Layout.style_eq_of_beq heq]
    exact ⟨h.name.trans (Layout.contentName_eq_of_beq hsame.2 _), h.type.congr hsame.2⟩

namespace Grows

variable {m : Layout} {rowsType listing : String}

theorem names_perm (h : Grows s N W .empty types r) : (types.map (·.name)).Perm r.names := by
  have hperm := h.names
  rwa [show TypeRegistry.empty.names = [] from rfl, List.append_nil] at hperm

theorem names_nodup (h : Grows s N W .empty types r) : (types.map (·.name)).Nodup :=
  h.names_perm.nodup_iff.2 h.wf.distinct

theorem of_mem_rowsTypes (h : Grows s N W .empty types r) (hmem : (m, rowsType) ∈ r.rowsTypes) :
    (m ∈ N ∧ Numbered (s.rowsTypeName m.relation) rowsType) ∧
      ∃ t ∈ types, t.name = rowsType ∧ r.TypesRows s m t :=
  (h.rows _ hmem).resolve_left List.not_mem_nil

theorem of_mem_listingTypes (h : Grows s N W .empty types r)
    (hmem : (rowsType, listing) ∈ r.listingTypes) :
    (∃ c ∈ W, r.Names c rowsType ∧ Numbered (s.listingTypeName c.relation) listing) ∧
      ∃ t ∈ types, t.name = listing ∧ r.TypesListing rowsType t :=
  (h.listings _ hmem).resolve_left List.not_mem_nil

/-- Every type of a node's rows is defined, as one that has the elements of these rows. -/
theorem exists_typesRows (h : Grows s N W .empty types r) (hn : r.Names n rowsType) :
    ∃ t ∈ types, t.name = rowsType ∧ r.TypesRows s n t := by
  obtain ⟨m, hm, heq⟩ := hn
  obtain ⟨-, t, ht, hname, htypes⟩ := h.of_mem_rowsTypes hm
  exact ⟨t, ht, hname, htypes.congr heq⟩

end Grows

end Xsd

end XmlPublishing

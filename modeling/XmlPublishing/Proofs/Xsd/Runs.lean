import XmlPublishing.Proofs.Layout.Built
import XmlPublishing.Xsd.OfLayout

/-!
What each step of describing a layout does to the registry, and what it gives.

There is one lemma for each function: from a registry `r` the step ends with a value and a registry
`r'` exactly when its parts do.
-/

namespace XmlPublishing.Xsd

variable {s : Schema} {o : XsdOptions} {r r' : TypeRegistry}

/-- The type of collections of rows of the type `rowsType`, under a name that is not in use. -/
def newListing (s : Schema) (r : TypeRegistry) (n : Layout) (rowsType : String) : ComplexType :=
  ⟨r.freshName (s.listingTypeName n.relation),
    [{ name := n.rowName, typeName := rowsType, optional := true, unbounded := true }]⟩

theorem typeOfListing_run_of_some {n : Layout} {rowsType name : String}
    (h : r.listingType? rowsType = some name) :
    (typeOfListing s n rowsType).run r = .ok ((name, []), r) := by
  rw [typeOfListing, StateT.run_bind, StateT.run_get, pure_bind]
  simp only [h]
  rfl

theorem typeOfListing_run_of_none {n : Layout} {rowsType : String}
    (h : r.listingType? rowsType = none) :
    (typeOfListing s n rowsType).run r =
      .ok (((newListing s r n rowsType).name, [newListing s r n rowsType]),
        r.addListingType rowsType (newListing s r n rowsType).name) := by
  rw [typeOfListing, StateT.run_bind, StateT.run_get, pure_bind]
  simp only [h]
  rfl

/-- The description of a node whose rows get the new type `name`. -/
def describeRows (s : Schema) (o : XsdOptions) (info : NodeInfo)
    (parents children : List (Joined Layout)) (name : String) :
    DescribeM (String × List ComplexType) := do
  let fields ← s.knownFields info.relation
  let own ← liftM (info.fields.mapM (fieldElement info.relation fields))
  let (ps, parentTypes) ← parentElements s o fields parents
  let (cs, childTypes) ← childElements s o info.style children
  return (name, ⟨name, own ++ ps ++ cs⟩ :: (parentTypes ++ childTypes))

theorem typeOfRows_run_of_some {n : Layout} {name : String} (h : r.rowsType? n = some name) :
    (typeOfRows s o n).run r = .ok ((name, []), r) := by
  obtain ⟨info, parents, children⟩ := n
  rw [typeOfRows, StateT.run_bind, StateT.run_get, pure_bind]
  simp only [h]
  rfl

theorem typeOfRows_run_of_none {info : NodeInfo} {parents children : List (Joined Layout)}
    (h : r.rowsType? (.node info parents children) = none) :
    let name := r.freshName (s.rowsTypeName info.relation)
    (typeOfRows s o (.node info parents children)).run r =
      (describeRows s o info parents children name).run
        (r.addRowsType (.node info parents children) name) := by
  intro name
  rw [typeOfRows, StateT.run_bind, StateT.run_get, pure_bind]
  simp only [h]
  rfl

theorem typeOfRows_run_eq_ok {info : NodeInfo} {parents children : List (Joined Layout)}
    {name : String} {types : List ComplexType} :
    (typeOfRows s o (.node info parents children)).run r = .ok ((name, types), r') ↔
      (r.rowsType? (.node info parents children) = some name ∧ types = [] ∧ r' = r) ∨
      (r.rowsType? (.node info parents children) = none ∧
        name = r.freshName (s.rowsTypeName info.relation) ∧
        ∃ fields own ps parentTypes r₁ cs childTypes,
          s.fields? info.relation = some fields ∧
          info.fields.mapM (fieldElement info.relation fields) = .ok own ∧
          (parentElements s o fields parents).run
            (r.addRowsType (.node info parents children) name) = .ok ((ps, parentTypes), r₁) ∧
          (childElements s o info.style children).run r₁ = .ok ((cs, childTypes), r') ∧
          types = ⟨name, own ++ ps ++ cs⟩ :: (parentTypes ++ childTypes)) := by
  cases hr : r.rowsType? (.node info parents children) with
  | some name' =>
    rw [typeOfRows_run_of_some hr]
    constructor
    · intro h
      cases h
      exact .inl ⟨rfl, rfl, rfl⟩
    · intro h
      rcases h with ⟨h, rfl, rfl⟩ | ⟨h, -⟩
      · cases h
        rfl
      · cases h
  | none =>
    rw [typeOfRows_run_of_none hr, describeRows]
    constructor
    · intro h
      obtain ⟨fields, _, hfields, h⟩ := run_bind_eq_ok.1 h
      obtain ⟨hfields, rfl⟩ := run_liftM_eq_ok.1 hfields
      obtain ⟨own, _, hown, h⟩ := run_bind_eq_ok.1 h
      obtain ⟨hown, rfl⟩ := run_liftM_eq_ok.1 hown
      obtain ⟨⟨ps, parentTypes⟩, r₁, hps, h⟩ := run_bind_eq_ok.1 h
      obtain ⟨⟨cs, childTypes⟩, r₂, hcs, h⟩ := run_bind_eq_ok.1 h
      cases h
      exact .inr ⟨rfl, rfl, fields, own, ps, parentTypes, r₁, cs, childTypes,
        Schema.knownFields_eq_ok.1 hfields, hown, hps, hcs, rfl⟩
    · intro h
      rcases h with ⟨h, -⟩ | ⟨-, rfl, fields, own, ps, parentTypes, r₁, cs, childTypes, hfields,
        hown, hps, hcs, rfl⟩
      · cases h
      · have hknown := Schema.knownFields_eq_ok.2 hfields
        refine run_bind_eq_ok.2 ⟨fields, _, run_liftM_eq_ok.2 ⟨hknown, rfl⟩, ?_⟩
        refine run_bind_eq_ok.2 ⟨own, _, run_liftM_eq_ok.2 ⟨hown, rfl⟩, ?_⟩
        exact run_bind_eq_ok.2 ⟨_, r₁, hps, run_bind_eq_ok.2 ⟨_, r', hcs, rfl⟩⟩

def parentElement (o : XsdOptions) (fields : List Field) (e : Joined Layout) (typeName : String) :
    ElementDecl :=
  { name := e.layout.rowName
    typeName := typeName
    optional := o.parentElementsOptional || isNullableKey fields e.key }

theorem parentElements_run_cons {fields : List Field} {e : Joined Layout}
    {es : List (Joined Layout)} {out : (List ElementDecl × List ComplexType) × TypeRegistry} :
    (parentElements s o fields (e :: es)).run r = .ok out ↔
      ∃ name types r₁ elements moreTypes r₂,
        (typeOfRows s o e.layout).run r = .ok ((name, types), r₁) ∧
        (parentElements s o fields es).run r₁ = .ok ((elements, moreTypes), r₂) ∧
        out = ((parentElement o fields e name :: elements, types ++ moreTypes), r₂) := by
  rw [parentElements]
  constructor
  · intro h
    obtain ⟨⟨name, types⟩, r₁, hrows, h⟩ := run_bind_eq_ok.1 h
    obtain ⟨⟨elements, moreTypes⟩, r₂, hrest, h⟩ := run_bind_eq_ok.1 h
    exact ⟨name, types, r₁, elements, moreTypes, r₂, hrows, hrest, (Except.ok.inj h).symm⟩
  · intro h
    obtain ⟨name, types, r₁, elements, moreTypes, r₂, hrows, hrest, rfl⟩ := h
    exact run_bind_eq_ok.2 ⟨_, r₁, hrows, run_bind_eq_ok.2 ⟨_, r₂, hrest, rfl⟩⟩

theorem childElements_run_cons {style : CollectionStyle} {e : Joined Layout}
    {es : List (Joined Layout)} {out : (List ElementDecl × List ComplexType) × TypeRegistry} :
    (childElements s o style (e :: es)).run r = .ok out ↔
      ∃ name types r₁ element listingTypes r₂ elements moreTypes r₃,
        (typeOfRows s o e.layout).run r = .ok ((name, types), r₁) ∧
        (childElement s o style e.layout name).run r₁ = .ok ((element, listingTypes), r₂) ∧
        (childElements s o style es).run r₂ = .ok ((elements, moreTypes), r₃) ∧
        out = ((element :: elements, types ++ listingTypes ++ moreTypes), r₃) := by
  rw [childElements]
  constructor
  · intro h
    obtain ⟨⟨name, types⟩, r₁, hrows, h⟩ := run_bind_eq_ok.1 h
    obtain ⟨⟨element, listingTypes⟩, r₂, hchild, h⟩ := run_bind_eq_ok.1 h
    obtain ⟨⟨elements, moreTypes⟩, r₃, hrest, h⟩ := run_bind_eq_ok.1 h
    exact ⟨name, types, r₁, element, listingTypes, r₂, elements, moreTypes, r₃, hrows, hchild,
      hrest, (Except.ok.inj h).symm⟩
  · intro h
    obtain ⟨name, types, r₁, element, listingTypes, r₂, elements, moreTypes, r₃, hrows, hchild,
      hrest, rfl⟩ := h
    exact run_bind_eq_ok.2 ⟨_, r₁, hrows, run_bind_eq_ok.2 ⟨_, r₂, hchild,
      run_bind_eq_ok.2 ⟨_, r₃, hrest, rfl⟩⟩⟩

/-- The element of one embedded child, whose rows or collections have the given type. -/
def childDecl (o : XsdOptions) (style : CollectionStyle) (n : Layout) (typeName : String) :
    ElementDecl :=
  match style with
  | .wrapped => { name := n.collectionName, typeName, optional := o.childCollectionsOptional }
  | .inline => { name := n.rowName, typeName, optional := true, unbounded := true }

theorem childElement_run_wrapped {n : Layout} {rowsType : String}
    {out : (ElementDecl × List ComplexType) × TypeRegistry} :
    (childElement s o .wrapped n rowsType).run r = .ok out ↔
      ∃ name types r₁, (typeOfListing s n rowsType).run r = .ok ((name, types), r₁) ∧
        out = ((childDecl o .wrapped n name, types), r₁) := by
  rw [childElement]
  constructor
  · intro h
    obtain ⟨⟨name, types⟩, r₁, hlisting, h⟩ := run_bind_eq_ok.1 h
    exact ⟨name, types, r₁, hlisting, (Except.ok.inj h).symm⟩
  · intro h
    obtain ⟨name, types, r₁, hlisting, rfl⟩ := h
    exact run_bind_eq_ok.2 ⟨_, r₁, hlisting, rfl⟩

/-- The global elements, for types of the root's rows and of their collection. -/
def rootDecls (n : Layout) (rowsType : String) (listing? : Option String) : List ElementDecl :=
  { name := n.rowName, typeName := rowsType } ::
    listing?.toList.map fun name => { name := n.collectionName, typeName := name }

theorem declarations_run_eq_ok {n : Layout}
    {out : (List ElementDecl × List ComplexType) × TypeRegistry} :
    (declarations s o n).run r = .ok out ↔
      ∃ rowsType types r₁, (typeOfRows s o n).run r = .ok ((rowsType, types), r₁) ∧
        ((o.includeCollectionRoot = false ∧ out = ((rootDecls n rowsType none, types), r₁)) ∨
          (o.includeCollectionRoot = true ∧ ∃ listing listingTypes r₂,
            (typeOfListing s n rowsType).run r₁ = .ok ((listing, listingTypes), r₂) ∧
            out = ((rootDecls n rowsType (some listing), types ++ listingTypes), r₂))) := by
  rw [declarations, run_bind_eq_ok, Prod.exists]
  refine exists_congr fun rowsType => exists_congr fun types => exists_congr fun r₁ =>
    and_congr_right fun _ => ?_
  cases o.includeCollectionRoot with
  | false =>
    simp only [Bool.false_eq_true, false_and, or_false, true_and]
    exact ⟨fun h => (Except.ok.inj h).symm, fun h => h ▸ rfl⟩
  | true =>
    simp only [Bool.true_eq_false, false_and, false_or, true_and]
    constructor
    · intro h
      obtain ⟨⟨listing, listingTypes⟩, r₂, hlisting, h⟩ := run_bind_eq_ok.1 h
      exact ⟨listing, listingTypes, r₂, hlisting, (Except.ok.inj h).symm⟩
    · intro h
      obtain ⟨listing, listingTypes, r₂, hlisting, rfl⟩ := h
      exact run_bind_eq_ok.2 ⟨_, r₂, hlisting, rfl⟩

theorem ofLayout_eq_ok {n : Layout} {doc : Document} :
    Document.ofLayout s o n = .ok doc ↔
      ∃ r, (declarations s o n).run .empty = .ok ((doc.roots, doc.types), r) ∧
        doc.targetNs = n.ns := by
  rw [Document.ofLayout, bind_eq_ok]
  change (∃ a, ((declarations s o n).run .empty).map Prod.fst = .ok a ∧ _) ↔ _
  simp only [map_eq_ok]
  constructor
  · intro h
    obtain ⟨⟨roots, types⟩, ⟨⟨_, r⟩, hrun, rfl⟩, h⟩ := h
    cases h
    exact ⟨r, hrun, rfl⟩
  · intro h
    obtain ⟨r, hrun, hns⟩ := h
    refine ⟨_, ⟨_, hrun, rfl⟩, ?_⟩
    rw [← hns]
    rfl

end XmlPublishing.Xsd

namespace XmlPublishing.Staff

open Xsd

def fieldDecls : List ElementDecl :=
  [{ name := "id", typeName := "xs:string", optional := true },
    { name := "boss", typeName := "xs:string", optional := true }]

def bossDecl : ElementDecl := { name := "e", typeName := "e2", optional := true }

/-- The schema document for employees with those who report to them. -/
def document : Document where
  targetNs := none
  roots := [{ name := "e", typeName := "e" }, { name := "e-listing", typeName := "e-listing2" }]
  types := [
    ⟨"e", fieldDecls ++
      [bossDecl, { name := "e-listing", typeName := "e-listing", optional := true }]⟩,
    ⟨"e2", fieldDecls⟩,
    ⟨"e3", fieldDecls ++ [bossDecl]⟩,
    ⟨"e-listing", [{ name := "e", typeName := "e3", optional := true, unbounded := true }]⟩,
    ⟨"e-listing2", [{ name := "e", typeName := "e", optional := true, unbounded := true }]⟩]

theorem ofLayout_team :
    Document.ofLayout schema { includeCollectionRoot := true } team = .ok document := rfl

end XmlPublishing.Staff

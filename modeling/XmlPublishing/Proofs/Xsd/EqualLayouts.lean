import XmlPublishing.Proofs.Agreement
import XmlPublishing.Proofs.Schema.Lookup
import XmlPublishing.Proofs.Text.Case
import XmlPublishing.Proofs.Xsd.Runs

/-!
Equal layouts have one schema document.

Nodes share the type of any equal node that was met before, so `==` on layouts must not tell apart
what the document can show. It does not: names of types ignore the case of ids
(`Schema.rowsTypeName_congr`), and whether an element is optional depends on a key through its set
of source fields alone (`isNullableKey_congr`). Two descriptions of equal layouts, run from
registries with equal entries, therefore agree step by step (`typeOfRows_agree`), and so do their
texts (`text_agree`). Where they fail the errors are the same up to the case of ids.
-/

namespace XmlPublishing

/-- The two errors are equal where ids are compared by `==`, and reasons as they are worded. -/
def PublishError.Same : PublishError → PublishError → Prop
  | .configuration error, .configuration error' => error.message = error'.message
  | .ambiguousForeignKey child parent reason, .ambiguousForeignKey child' parent' reason' =>
    child == child' ∧ parent == parent' ∧ reason.message = reason'.message
  | .noSuchForeignKey child parent fields, .noSuchForeignKey child' parent' fields' =>
    child == child' ∧ parent == parent' ∧ fields = fields'
  | .unknownRelation id, .unknownRelation id' => id == id'
  | .noSuchField relation field, .noSuchField relation' field' =>
    relation == relation' ∧ field = field'
  | .invalidSortOrder error, .invalidSortOrder error' => error.message = error'.message
  | .rendering message, .rendering message' => message = message'
  | _, _ => False

namespace Schema

variable {r r' : RelationId} (s : Schema)

theorem isNameShared_congr (h : r == r') : s.isNameShared r = s.isNameShared r' := by
  have hname (other : RelationId) :
      RelationId.SameName other r ↔ RelationId.SameName other r' :=
    ⟨fun ho => ho.trans (RelationId.name_alike h),
      fun ho => ho.trans (RelationId.name_alike h).symm⟩
  rw [isNameShared, isNameShared]
  simp only [bne, BEq.congr_right h, hname]

theorem rowsTypeName_congr (h : r == r') : s.rowsTypeName r = s.rowsTypeName r' := by
  rw [rowsTypeName, rowsTypeName, isNameShared_congr s h]
  split
  · exact (RelationId.text_alike h).lower_eq
  · exact (RelationId.name_alike h).lower_eq

theorem listingTypeName_congr (h : r == r') : s.listingTypeName r = s.listingTypeName r' := by
  rw [listingTypeName, listingTypeName, rowsTypeName_congr s h]

end Schema

namespace Xsd

theorem isNullableKey_of_sourceSet_eq {fields : List Field} {k k' : ForeignKey}
    (h : k.sourceSet = k'.sourceSet) (hk : isNullableKey fields k) : isNullableKey fields k' := by
  obtain ⟨name, hname, hnull⟩ := List.any_eq_true.1 hk
  obtain ⟨name', hname', halike⟩ := FieldSet.exists_alike_of_ofNames_eq h hname
  exact List.any_eq_true.2 ⟨name', hname', findField?_congr halike fields ▸ hnull⟩

theorem isNullableKey_congr {k k' : ForeignKey} (h : k == k') (fields : List Field) :
    isNullableKey fields k = isNullableKey fields k' := by
  have hset := ForeignKey.sourceSet_eq_of_beq h
  exact Bool.eq_iff_iff.2 ⟨isNullableKey_of_sourceSet_eq hset,
    isNullableKey_of_sourceSet_eq hset.symm⟩

/-! ## Registries -/

namespace TypeRegistry

variable {r r' : TypeRegistry} {n n' : Layout}

/-- The entries give one name to equal nodes. -/
def SameEntry (e e' : Layout × String) : Prop := e.1 == e'.1 ∧ e.2 = e'.2

theorem find?_entry_congr {es es' : List (Layout × String)} (h : List.Forall₂ SameEntry es es')
    (hn : n == n') :
    (es.find? fun e => e.1 == n).map (·.2) = (es'.find? fun e => e.1 == n').map (·.2) := by
  induction h with
  | nil => rfl
  | cons hentry _ ih =>
    obtain ⟨hlayout, hname⟩ := hentry
    rw [List.find?_cons, List.find?_cons, BEq.congr_left hlayout, BEq.congr_right hn]
    split
    · exact congrArg some hname
    · exact ih

/-- The registries give the same names, to equal nodes. -/
structure Same (r r' : TypeRegistry) : Prop where
  rows : List.Forall₂ SameEntry r.rowsTypes r'.rowsTypes
  listings : r.listingTypes = r'.listingTypes
  used : r.usedNames = r'.usedNames

theorem same_empty : Same empty empty := ⟨.nil, rfl, rfl⟩

theorem Same.rowsType? (h : r.Same r') (hn : n == n') : r.rowsType? n = r'.rowsType? n' :=
  find?_entry_congr h.rows hn

theorem Same.listingType? (h : r.Same r') (rowsType : String) :
    r.listingType? rowsType = r'.listingType? rowsType := by
  rw [TypeRegistry.listingType?, TypeRegistry.listingType?, h.listings]

theorem Same.freshName (h : r.Same r') (base : String) : r.freshName base = r'.freshName base := by
  rw [TypeRegistry.freshName, TypeRegistry.freshName, h.used]

theorem Same.addRowsType (h : r.Same r') (hn : n == n') (name : String) :
    (r.addRowsType n name).Same (r'.addRowsType n' name) where
  rows := .cons ⟨hn, rfl⟩ h.rows
  listings := h.listings
  used := congrArg (·.insert name) h.used

theorem Same.addListingType (h : r.Same r') (rowsType name : String) :
    (r.addListingType rowsType name).Same (r'.addListingType rowsType name) where
  rows := h.rows
  listings := congrArg ((rowsType, name) :: ·) h.listings
  used := congrArg (·.insert name) h.used

end TypeRegistry

/-! ## Descriptions -/

/-- The two steps agree, from registries that give the same names. -/
abbrev DescribeM.Agree {α α' : Type} (R : α → α' → Prop) (x : DescribeM α) (x' : DescribeM α') :
    Prop :=
  AgreeFrom TypeRegistry.Same PublishError.Same R x x'

variable {s : Schema} {o : XsdOptions} {n n' : Layout} {es es' : List (Joined Layout)}

theorem knownFields_agree {r r' : RelationId} (h : r == r') :
    Agree PublishError.Same Eq (s.knownFields r) (s.knownFields r') := by
  rw [Schema.knownFields, Schema.knownFields, Schema.fields?_congr h]
  split
  · exact .ok rfl
  · exact .error h

theorem fieldElement_agree {r r' : RelationId} (h : r == r') (fields : List Field)
    (name : String) :
    Agree PublishError.Same Eq (fieldElement r fields name) (fieldElement r' fields name) := by
  rw [fieldElement, fieldElement]
  split
  · exact .ok rfl
  · exact .error ⟨h, rfl⟩

theorem fieldElements_agree {r r' : RelationId} (h : r == r') (fields : List Field)
    (names : List String) :
    Agree PublishError.Same Eq (names.mapM (fieldElement r fields))
      (names.mapM (fieldElement r' fields)) := by
  rw [← List.forall₂_eq_eq_eq]
  exact .mapM (List.forall₂_same.2 fun name _ => fieldElement_agree h fields name)

theorem typeOfListing_agree (h : n == n') (rowsType : String) :
    DescribeM.Agree Eq (typeOfListing s n rowsType) (typeOfListing s n' rowsType) := by
  rw [typeOfListing, typeOfListing]
  refine .bind .get fun r r' hr => ?_
  rw [hr.listingType? rowsType]
  split
  · exact .pure rfl
  · rw [Schema.listingTypeName_congr s (Layout.relation_beq h), hr.freshName,
      Layout.rowName_eq_of_beq h]
    exact .bind_eq (.set (hr.addListingType rowsType _)) fun _ => .pure rfl

theorem childElement_agree (h : n == n') (style : CollectionStyle) (rowsType : String) :
    DescribeM.Agree Eq (childElement s o style n rowsType)
      (childElement s o style n' rowsType) := by
  cases style with
  | wrapped =>
    rw [childElement, childElement, Layout.collectionName_eq_of_beq h]
    refine .bind_eq (typeOfListing_agree h rowsType) fun out => ?_
    exact .pure rfl
  | inline =>
    rw [childElement, childElement, Layout.rowName_eq_of_beq h]
    exact .pure rfl

/-- Embedded layouts that are equal, and whose descriptions agree. -/
abbrev RowsAgree (s : Schema) (o : XsdOptions) (e e' : Joined Layout) : Prop :=
  e.Same e' ∧ DescribeM.Agree Eq (typeOfRows s o e.layout) (typeOfRows s o e'.layout)

theorem parentElements_agree (fields : List Field) (h : List.Forall₂ (RowsAgree s o) es es') :
    DescribeM.Agree Eq (parentElements s o fields es) (parentElements s o fields es') := by
  induction h with
  | nil => exact .pure rfl
  | cons he _ ih =>
    obtain ⟨⟨hkey, hlayout⟩, hrows⟩ := he
    rw [parentElements, parentElements, Layout.rowName_eq_of_beq hlayout,
      isNullableKey_congr hkey]
    refine .bind_eq hrows fun out => ?_
    refine .bind_eq ih fun rest => ?_
    exact .pure rfl

theorem childElements_agree (style : CollectionStyle) (h : List.Forall₂ (RowsAgree s o) es es') :
    DescribeM.Agree Eq (childElements s o style es) (childElements s o style es') := by
  induction h with
  | nil => exact .pure rfl
  | cons he _ ih =>
    obtain ⟨⟨-, hlayout⟩, hrows⟩ := he
    rw [childElements, childElements]
    refine .bind_eq hrows fun out => ?_
    refine .bind_eq (childElement_agree hlayout style out.1) fun element => ?_
    refine .bind_eq ih fun rest => ?_
    exact .pure rfl

theorem typeOfRows_agree (h : n == n') :
    DescribeM.Agree Eq (typeOfRows s o n) (typeOfRows s o n') := by
  induction n generalizing n' with
  | node info parents children ihParents ihChildren =>
    obtain ⟨info', parents', children'⟩ := n'
    obtain ⟨hinfo, hparents, hchildren⟩ := Layout.beq_node.1 h
    have hrelation : info.relation == info'.relation := (NodeInfo.beq_iff.1 hinfo).1
    have hparents : List.Forall₂ (RowsAgree s o) parents parents' :=
      forall₂_imp_of_mem hparents fun e he _ _ hsame => ⟨hsame, ihParents e he hsame.2⟩
    have hchildren : List.Forall₂ (RowsAgree s o) children children' :=
      forall₂_imp_of_mem hchildren fun e he _ _ hsame => ⟨hsame, ihChildren e he hsame.2⟩
    have hfields : info.fields = info'.fields := Layout.fields_eq_of_beq h
    have hstyle : info.style = info'.style := Layout.style_eq_of_beq h
    rw [typeOfRows, typeOfRows]
    refine .bind .get fun r r' hr => ?_
    rw [hr.rowsType? h]
    split
    · exact .pure rfl
    · rw [Schema.rowsTypeName_congr s hrelation, hr.freshName, hfields, hstyle]
      refine .bind_eq (.set (hr.addRowsType h _)) fun _ => ?_
      refine .bind_eq (.liftM (knownFields_agree hrelation)) fun fields => ?_
      refine .bind_eq (.liftM (fieldElements_agree hrelation fields _)) fun own => ?_
      refine .bind_eq (parentElements_agree fields hparents) fun ps => ?_
      refine .bind_eq (childElements_agree _ hchildren) fun cs => ?_
      exact .pure rfl

theorem declarations_agree (h : n == n') :
    DescribeM.Agree Eq (declarations s o n) (declarations s o n') := by
  rw [declarations, declarations, Layout.rowName_eq_of_beq h, Layout.collectionName_eq_of_beq h]
  refine .bind_eq (typeOfRows_agree h) fun out => ?_
  obtain ⟨name, types⟩ := out
  dsimp only
  split
  · refine .bind_eq (typeOfListing_agree h name) fun listing => ?_
    exact .pure rfl
  · exact .pure rfl

theorem ofLayout_agree (s : Schema) (o : XsdOptions) (h : n == n') :
    Agree PublishError.Same Eq (Document.ofLayout s o n) (Document.ofLayout s o n') := by
  rw [Document.ofLayout, Document.ofLayout, Layout.ns_eq_of_beq h]
  have hrun : Agree PublishError.Same _ ((declarations s o n).run .empty)
      ((declarations s o n').run .empty) :=
    declarations_agree h .empty .empty TypeRegistry.same_empty
  refine .bind (hrun.map fun _ _ hout => hout.1) fun out _ hout => ?_
  subst hout
  exact .ok rfl

/-- Equal layouts give the same text, or fail with errors that are the same up to the case of
ids. -/
theorem text_agree (s : Schema) (o : XsdOptions) {a b : Layout} (h : a == b) :
    Agree PublishError.Same Eq (text s o a) (text s o b) :=
  (ofLayout_agree s o h).map fun _ _ hdoc => congrArg (·.text o.indent) hdoc

end Xsd

namespace Staff

def capitalEmployee : RelationId := ⟨none, "E"⟩

/-- The key of the bosses in capitals, with a repeated pair that matches another field. -/
def capitalBossKey : ForeignKey :=
  ⟨capitalEmployee, employee, [("BOSS", "id"), ("boss", "boss")]⟩

/-- The same team, with its relation and its key spelled differently at some places. -/
def capitalTeam : Layout :=
  .node { team.info with relation := capitalEmployee } [⟨capitalBossKey, alone⟩]
    [⟨bossKey, .node withBoss.info [⟨capitalBossKey, alone⟩] []⟩]

theorem text_capitalTeam :
    team == capitalTeam ∧ team.relation ≠ capitalTeam.relation ∧ bossKey ≠ capitalBossKey ∧
      Xsd.text schema { includeCollectionRoot := true } capitalTeam = .ok (document.text 2) := by
  have hequal : team == capitalTeam := by decide +kernel
  have hteam : Xsd.text schema { includeCollectionRoot := true } team = .ok (document.text 2) := by
    rw [Xsd.text, ofLayout_team, Except.map]
  have hagree := Xsd.text_agree schema { includeCollectionRoot := true } hequal
  rw [hteam] at hagree
  exact ⟨hequal, by decide, by decide, hagree.eq_ok⟩

end Staff

end XmlPublishing

import Mathlib.Tactic.ByContra
import XmlPublishing.Naming.TypeName
import XmlPublishing.Proofs.Schema.Lookup
import XmlPublishing.Proofs.Schema.RelationId
import XmlPublishing.Proofs.Text.Hyphenated

/-!
Which relations the names of types tell apart.

The name of a type is the small form of a text, the relation's name or its name with the schema
(`Schema.typeText`). The texts of two relations are never alike when their names have no full
stop: relations of the same name are both named with their schemas, and a schema ends at the last
full stop (`Schema.beq_of_alike_typeText`). Small forms are taken of more letters than ids are
compared by, and a full stop in a name reads like one behind a schema; these are the two ways in
which relations get one name (`Schema.rowsTypeName_eq_iff`).
-/

namespace XmlPublishing

namespace RelationId

variable {a b r : RelationId}

/-- Ids are found in their texts if their names have no full stop. -/
theorem beq_of_alike_text (ha : '.' ∉ a.name.toList) (hb : '.' ∉ b.name.toList)
    (h : Text.Alike a.text b.text) : a == b := by
  have htext : a.small.text = b.small.text := by rw [text_small, text_small, h]
  have hdot : ¬ Text.IsLetter '.'.toNat := by decide
  rw [beq_iff_small, ← parse_text (r := a.small) (Text.notMem_foldAscii hdot ha), htext,
    parse_text (r := b.small) (Text.notMem_foldAscii hdot hb)]

/-- An id of ASCII characters whose name has no full stop. -/
structure IsSimple (r : RelationId) : Prop where
  ascii : ∀ c ∈ r.text.toList, c.toNat < 128
  undotted : '.' ∉ r.name.toList

theorem isSimple_iff :
    r.IsSimple ↔ r.text.toList.all (fun c => c.toNat < 128) ∧ '.' ∉ r.name.toList := by
  simp only [List.all_eq_true, decide_eq_true_eq]
  exact ⟨fun h => ⟨h.ascii, h.undotted⟩, fun h => ⟨h.1, h.2⟩⟩

instance (r : RelationId) : Decidable r.IsSimple := decidable_of_iff _ isSimple_iff.symm

theorem name_subset_text (r : RelationId) : r.name.toList ⊆ r.text.toList := by
  obtain ⟨schema, name⟩ := r
  cases schema with
  | none => exact List.Subset.refl _
  | some schema =>
    rw [text, String.toList_append]
    exact List.subset_append_right _ _

end RelationId

namespace Schema

variable {s : Schema} {a b r : RelationId}

theorem isNameShared_of_sameName (hb : b ∈ s.relationIds) (hne : ¬ a == b)
    (h : RelationId.SameName a b) : s.isNameShared a := by
  have hba : (b == a) = false := Bool.eq_false_iff.2 fun hba => hne (BEq.symm hba)
  refine List.any_eq_true.2 ⟨b, hb, ?_⟩
  have hname : RelationId.SameName b a := Text.Alike.symm h
  rw [bne, hba, decide_eq_true hname]
  rfl

/-- What the type of a relation is named after: the relation, with its schema where another
relation has the same name. -/
def typeId (s : Schema) (r : RelationId) : RelationId :=
  if s.isNameShared r then r else ⟨none, r.name⟩

def typeText (s : Schema) (r : RelationId) : String := (s.typeId r).text

theorem rowsTypeName_eq (s : Schema) (r : RelationId) :
    s.rowsTypeName r = Text.lower (s.typeText r) := by
  rw [rowsTypeName, typeText, typeId]
  split <;> rfl

theorem name_typeId (s : Schema) (r : RelationId) : (s.typeId r).name = r.name := by
  unfold typeId
  split <;> rfl

theorem typeText_subset (s : Schema) (r : RelationId) :
    (s.typeText r).toList ⊆ r.text.toList := by
  unfold typeText typeId
  split
  · exact List.Subset.refl _
  · exact r.name_subset_text

/-- Relations whose names have no full stop are named after texts that are not alike. -/
theorem beq_of_alike_typeText (ha : a ∈ s.relationIds) (hb : b ∈ s.relationIds)
    (hdot : '.' ∉ a.name.toList) (hdot' : '.' ∉ b.name.toList)
    (h : Text.Alike (s.typeText a) (s.typeText b)) : a == b := by
  by_contra hne
  have hid : s.typeId a == s.typeId b := by
    refine RelationId.beq_of_alike_text ?_ ?_ h
    · rwa [name_typeId]
    · rwa [name_typeId]
  have hname : RelationId.SameName a b := by
    have halike := RelationId.name_alike hid
    rwa [name_typeId, name_typeId] at halike
  -- Each of the two is a reason to name the other one with its schema.
  rw [typeId, typeId, if_pos (isNameShared_of_sameName hb hne hname),
    if_pos (isNameShared_of_sameName ha (fun hba => hne (BEq.symm hba)) hname.symm)] at hid
  exact hne hid

/-- Why the types of two relations get one name. -/
inductive TypesClash (s : Schema) (a b : RelationId) : Prop
  /-- The texts differ in more than the case of ASCII letters, but have one small form. -/
  | smallForm : ¬ Text.Alike (s.typeText a) (s.typeText b) →
    Text.lower (s.typeText a) = Text.lower (s.typeText b) → TypesClash s a b
  /-- A name has a full stop, and the texts are alike. -/
  | fullStop : '.' ∈ a.name.toList ∨ '.' ∈ b.name.toList →
    Text.Alike (s.typeText a) (s.typeText b) → TypesClash s a b

theorem lower_typeText (h : r.IsSimple) :
    Text.lower (s.typeText r) = Text.foldAscii (s.typeText r) :=
  Text.lower_of_ascii fun c hc => h.ascii c (s.typeText_subset r hc)

/-- The types of two relations of a schema get one name just where small forms merge letters by
which ids differ, or where a name has a full stop. They get different names where neither occurs. -/
theorem rowsTypeName_eq_iff (ha : a ∈ s.relationIds) (hb : b ∈ s.relationIds) (hne : ¬ a == b) :
    (s.rowsTypeName a = s.rowsTypeName b ↔ s.TypesClash a b) ∧
    (a.IsSimple → b.IsSimple → s.rowsTypeName a ≠ s.rowsTypeName b) := by
  rw [rowsTypeName_eq, rowsTypeName_eq]
  have hclash : Text.lower (s.typeText a) = Text.lower (s.typeText b) ↔ s.TypesClash a b := by
    constructor
    · intro hlower
      by_cases halike : Text.Alike (s.typeText a) (s.typeText b)
      · refine .fullStop ?_ halike
        by_contra hdots
        rw [not_or] at hdots
        exact hne (beq_of_alike_typeText ha hb hdots.1 hdots.2 halike)
      · exact .smallForm halike hlower
    · rintro (⟨-, hlower⟩ | ⟨-, halike⟩)
      · exact hlower
      · exact halike.lower_eq
  refine ⟨hclash, fun hsimple hsimple' hlower => ?_⟩
  rw [lower_typeText hsimple, lower_typeText hsimple'] at hlower
  exact hne (beq_of_alike_typeText ha hb hsimple.undotted hsimple'.undotted hlower)

end Schema

namespace Market

def salesItem : RelationId := ⟨some "sales", "item"⟩

def stockItem : RelationId := ⟨some "STOCK", "Item"⟩

/-- A relation without a schema, in whose name there is a full stop. -/
def dottedItem : RelationId := ⟨none, "sales.item"⟩

def capitalCafe : RelationId := ⟨some "shop", "CAFÉ"⟩

def smallCafe : RelationId := ⟨some "store", "café"⟩

def relations : List Relation :=
  [salesItem, stockItem, dottedItem, capitalCafe, smallCafe].map (⟨·, .table, []⟩)

def schema : Schema := ⟨.preserve, relations, [], by decide, nofun⟩

theorem relationIds_schema :
    schema.relationIds = [salesItem, stockItem, dottedItem, capitalCafe, smallCafe] := rfl

theorem items_apart :
    salesItem ∈ schema.relationIds ∧ stockItem ∈ schema.relationIds ∧ ¬ salesItem == stockItem ∧
      schema.rowsTypeName salesItem ≠ schema.rowsTypeName stockItem := by
  have hsales : salesItem ∈ schema.relationIds := by simp [relationIds_schema]
  have hstock : stockItem ∈ schema.relationIds := by simp [relationIds_schema]
  have hne : ¬ salesItem == stockItem := by decide
  exact ⟨hsales, hstock, hne,
    (Schema.rowsTypeName_eq_iff hsales hstock hne).2 (by decide) (by decide)⟩

/-- Ids tell É and é apart, small forms do not; and `sales.item` is the name of one relation, and of
another one in its schema. -/
theorem typeNames_alike :
    (capitalCafe ∈ schema.relationIds ∧ smallCafe ∈ schema.relationIds ∧
      ¬ capitalCafe == smallCafe ∧
      schema.rowsTypeName capitalCafe = "café" ∧ schema.rowsTypeName smallCafe = "café") ∧
    salesItem ∈ schema.relationIds ∧ dottedItem ∈ schema.relationIds ∧
      ¬ salesItem == dottedItem ∧
      schema.rowsTypeName salesItem = "sales.item" ∧
      schema.rowsTypeName dottedItem = "sales.item" := by
  simp only [relationIds_schema]
  refine ⟨⟨by simp, by simp, by decide, ?_, ?_⟩, by simp, by simp, by decide, ?_, ?_⟩
  all_goals decide +kernel

end Market

end XmlPublishing

import XmlPublishing.Proofs.Text.Case
import XmlPublishing.Schema.Basic

/-!
Looking things up in a schema.

Lookups respect `==` on relation ids: equal ids are the same in small letters
(`RelationId.beq_iff_small`), so their names and texts are alike. The fields that a key names exist
in the relations at its two ends, if these are registered (`ForeignKey.Joins.hasField_source`,
`hasField_target`): it then coheres with them (`ForeignKey.Joins.coheres`).
-/

namespace XmlPublishing

namespace RelationId

variable {a b : RelationId}

theorem name_alike (h : a == b) : Text.Alike a.name b.name :=
  congrArg Prod.snd (beq_iff.1 h)

/-- The id with its ASCII letters made small. -/
def small (r : RelationId) : RelationId := ⟨r.schema.map Text.foldAscii, Text.foldAscii r.name⟩

theorem beq_iff_small : a == b ↔ a.small = b.small := by
  rw [beq_iff, folded, folded, small, small, Prod.mk.injEq, RelationId.mk.injEq]

theorem text_small (r : RelationId) : r.small.text = Text.foldAscii r.text := by
  obtain ⟨schema, name⟩ := r
  cases schema with
  | none => rfl
  | some schema =>
    have hdot : Text.foldAscii "." = "." := by decide
    have htext : RelationId.text ⟨some schema, name⟩ = schema ++ "." ++ name := rfl
    rw [htext, Text.foldAscii_append, Text.foldAscii_append, hdot]
    rfl

theorem text_alike (h : a == b) : Text.Alike a.text b.text := by
  rw [Text.Alike, ← text_small, ← text_small, beq_iff_small.1 h]

end RelationId

namespace Schema

variable {s : Schema} {a b r : RelationId}

/-- The relation is registered and has a field of that name. -/
def HasField (s : Schema) (r : RelationId) (name : String) : Prop :=
  ∃ fields, s.fields? r = some fields ∧ (findField? fields name).isSome

theorem relation?_congr (h : a == b) : s.relation? a = s.relation? b := by
  have : (fun x : Relation => x.id == a) = fun x => x.id == b :=
    funext fun x => BEq.congr_right h
  rw [relation?, relation?, findRelation?, findRelation?, this]

theorem fields?_congr (h : a == b) : s.fields? a = s.fields? b := by
  rw [fields?, fields?, relation?_congr h]

theorem contains_congr (h : a == b) : s.contains a = s.contains b := by
  rw [contains, contains, relation?_congr h]

theorem hasField_congr {name : String} (h : a == b) : s.HasField a name ↔ s.HasField b name := by
  rw [HasField, HasField, fields?_congr h]

theorem keysBetween_congr {child child' parent parent' : RelationId} (hchild : child == child')
    (hparent : parent == parent') :
    s.keysBetween child parent = s.keysBetween child' parent' := by
  refine List.filter_congr fun k _ => ?_
  rw [BEq.congr_right hchild, BEq.congr_right hparent]

theorem keysFrom_congr (h : a == b) : s.keysFrom a = s.keysFrom b :=
  List.filter_congr fun _ _ => BEq.congr_right h

theorem keysTo_congr (h : a == b) : s.keysTo a = s.keysTo b :=
  List.filter_congr fun _ _ => BEq.congr_right h

theorem mem_keysBetween_self {k : ForeignKey} (hk : k ∈ s.foreignKeys) :
    k ∈ s.keysBetween k.source k.target :=
  List.mem_filter.2 ⟨hk, Bool.and_eq_true_iff.2 ⟨BEq.rfl, BEq.rfl⟩⟩

theorem contains_iff : s.contains r ↔ ∃ fields, s.fields? r = some fields := by
  rw [contains, fields?]
  cases s.relation? r <;> simp

theorem hasField_iff {fields : List Field} (h : s.fields? r = some fields) {name : String} :
    s.HasField r name ↔ (findField? fields name).isSome := by
  simp [HasField, h]

end Schema

theorem findField?_isSome {fields : List Field} {name : String} :
    (findField? fields name).isSome ↔ ∃ f ∈ fields, Text.Alike f.name name := by
  simp [findField?]

theorem findField?_isSome_of_mem {fields : List Field} {f : Field} (h : f ∈ fields) :
    (findField? fields f.name).isSome :=
  findField?_isSome.2 ⟨f, h, .refl _⟩

theorem findField?_congr {name name' : String} (h : Text.Alike name name')
    (fields : List Field) : findField? fields name = findField? fields name' := by
  have hf (f : Field) : Text.Alike f.name name ↔ Text.Alike f.name name' :=
    ⟨fun hf => hf.trans h, fun hf => hf.trans h.symm⟩
  rw [findField?, findField?]
  simp only [hf]

/-- Equal sets of names hold the same names, up to the case of ASCII letters. -/
theorem FieldSet.exists_alike_of_ofNames_eq {names names' : List String}
    (h : ofNames names = ofNames names') {name : String} (hname : name ∈ names) :
    ∃ name' ∈ names', Text.Alike name name' := by
  have hmem : Text.foldAscii name ∈ NameSet.ofList (names.map Text.foldAscii) :=
    NameSet.mem_ofList.2 (List.mem_map_of_mem hname)
  rw [FieldSet.mk.inj h, NameSet.mem_ofList] at hmem
  obtain ⟨name', hname', heq⟩ := List.mem_map.1 hmem
  exact ⟨name', hname', heq.symm⟩

namespace ForeignKey

variable {s : Schema} {k : ForeignKey} {child parent : RelationId}

/-- A key of the schema that leads from `child` to `parent`. -/
structure Joins (s : Schema) (k : ForeignKey) (child parent : RelationId) : Prop where
  mem : k ∈ s.foreignKeys
  source : k.source == child
  target : k.target == parent

private theorem hasField_of_missing?_eq_none {a b : RelationId} {names : List String}
    (hfits : ∀ r, findRelation? s.relations a = some r → r.missing? names = none)
    (hab : a == b) (hb : s.contains b) : ∀ name ∈ names, s.HasField b name := by
  intro name hname
  obtain ⟨r, hr⟩ := Option.isSome_iff_exists.1 (Schema.contains_congr hab ▸ hb)
  have hfields : s.fields? a = some r.fields := by rw [Schema.fields?, hr, Option.map_some]
  have hfound := List.find?_eq_none.1 (hfits r hr) name hname
  rw [← Schema.hasField_congr hab, Schema.hasField_iff hfields]
  simpa [Relation.field?, Option.isSome_iff_ne_none] using hfound

theorem source_beq {k' : ForeignKey} (h : k == k') : k.source == k'.source :=
  RelationId.beq_iff.2 (congrArg (fun i => i.1) (beq_iff.1 h))

theorem target_beq {k' : ForeignKey} (h : k == k') : k.target == k'.target :=
  RelationId.beq_iff.2 (congrArg (fun i => i.2.1) (beq_iff.1 h))

theorem sourceSet_eq_of_beq {k' : ForeignKey} (h : k == k') : k.sourceSet = k'.sourceSet :=
  congrArg (fun i => i.2.2) (beq_iff.1 h)

theorem Joins.hasField_source (h : k.Joins s child parent) (hchild : s.contains child) :
    ∀ name ∈ k.sourceFields, s.HasField child name :=
  hasField_of_missing?_eq_none (s.fits k h.mem).source h.source hchild

theorem Joins.hasField_target (h : k.Joins s child parent) (hparent : s.contains parent) :
    ∀ name ∈ k.targetFields, s.HasField parent name :=
  hasField_of_missing?_eq_none (s.fits k h.mem).target h.target hparent

/-- A key of the schema that leads from `child` to `parent`, with all that it names in them: both
are registered, and the fields that it matches exist on their sides. -/
structure Coheres (s : Schema) (k : ForeignKey) (child parent : RelationId) : Prop
    extends k.Joins s child parent where
  childRegistered : s.contains child
  parentRegistered : s.contains parent
  sourceFields : ∀ name ∈ k.sourceFields, s.HasField child name
  targetFields : ∀ name ∈ k.targetFields, s.HasField parent name

theorem Joins.coheres (h : k.Joins s child parent) (hchild : s.contains child)
    (hparent : s.contains parent) : k.Coheres s child parent where
  toJoins := h
  childRegistered := hchild
  parentRegistered := hparent
  sourceFields := h.hasField_source hchild
  targetFields := h.hasField_target hparent

theorem joins_of_mem_keysBetween (h : k ∈ s.keysBetween child parent) :
    k.Joins s child parent := by
  obtain ⟨hmem, h⟩ := List.mem_filter.1 h
  obtain ⟨hsource, htarget⟩ := Bool.and_eq_true_iff.1 h
  exact ⟨hmem, hsource, htarget⟩

theorem joins_of_mem_keysTo (h : k ∈ s.keysTo parent) : k.Joins s k.source parent := by
  obtain ⟨hmem, htarget⟩ := List.mem_filter.1 h
  exact ⟨hmem, BEq.rfl, htarget⟩

theorem joins_of_mem_keysFrom (h : k ∈ s.keysFrom child) : k.Joins s child k.target := by
  obtain ⟨hmem, hsource⟩ := List.mem_filter.1 h
  exact ⟨hmem, hsource, BEq.rfl⟩

end ForeignKey

end XmlPublishing

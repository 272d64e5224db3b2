import Mathlib.Data.List.Pairwise
import XmlPublishing.Proofs.Schema.Lookup

/-!
Which relations and keys make a schema.

No two relations may have equal ids (`DistinctIds`), and a registered relation must have the fields
that keys name in it (`ForeignKey.namedFields`). Lists for which both hold are accepted, and a
schema made of them lists and finds them as they are. For other lists the first violation is the
error: the first relation that repeats an id, and only when there is none the first field that is
missing (`Schema.ofLists_accepts`).
-/

namespace XmlPublishing

variable {relations before after rs : List Relation} {keys : List ForeignKey} {r r' : Relation}
  {id : RelationId} {c : CaseSensitivity} {s : Schema} {e : SchemaError}

/-! ## Relations with distinct ids -/

/-- No two of the relations have equal ids. -/
def DistinctIds (relations : List Relation) : Prop := relations.Pairwise fun a b => ¬ a.id == b.id

instance : Std.Symm fun a b : Relation => ¬ a.id == b.id := ⟨fun _ _ h h' => h (BEq.symm h')⟩

theorem DistinctIds.eq_of_beq (h : DistinctIds relations) (hr : r ∈ relations)
    (hr' : r' ∈ relations) (hid : r.id == r'.id) : r = r' := by
  by_contra hne
  exact h.forall hr hr' hne hid

theorem DistinctIds.not_beq (h : DistinctIds (before ++ r :: after)) (hr' : r' ∈ before) :
    ¬ r'.id == r.id :=
  (List.pairwise_append.1 h).2.2 r' hr' r List.mem_cons_self

theorem findRelation?_isSome : (findRelation? relations id).isSome ↔ ∃ r ∈ relations, r.id == id :=
  List.find?_isSome

theorem DistinctIds.findRelation?_eq_some (h : DistinctIds relations) :
    findRelation? relations id = some r ↔ r ∈ relations ∧ r.id == id := by
  have hfound {x : Relation} (hx : findRelation? relations id = some x) :
      x ∈ relations ∧ x.id == id :=
    ⟨List.mem_of_find?_eq_some hx, List.find?_some (p := fun x : Relation => x.id == id) hx⟩
  refine ⟨hfound, fun ⟨hr, hid⟩ => ?_⟩
  obtain ⟨x, hx⟩ := Option.isSome_iff_exists.1 (findRelation?_isSome.2 ⟨r, hr, hid⟩)
  obtain ⟨hmem, hxid⟩ := hfound hx
  rw [hx, h.eq_of_beq hmem hr (BEq.trans hxid (BEq.symm hid))]

/-- The id equals one of `seen`, or that of one of the relations. -/
def IdIn (seen : List RelationId) (rs : List Relation) (id : RelationId) : Prop :=
  ∃ id' ∈ seen ++ rs.map (·.id), id == id'

theorem idIn_cons {seen : List RelationId} :
    IdIn seen (r :: rs) id ↔ IdIn (r.id :: seen) rs id := by
  simp only [IdIn, List.map_cons, List.cons_append, List.mem_append, List.mem_cons, or_left_comm]

theorem idIn_nil {seen : List RelationId} : IdIn seen [] id ↔ seen.contains id := by
  rw [IdIn, List.map_nil, List.append_nil, List.contains_iff_exists_mem_beq]

namespace Schema

theorem firstRepeated?_eq_some {seen : List RelationId} : firstRepeated? seen rs = some id ↔
    ∃ before r after, rs = before ++ r :: after ∧ firstRepeated? seen before = none ∧
      IdIn seen before r.id ∧ r.id = id := by
  induction rs generalizing seen with
  | nil => simp [firstRepeated?]
  | cons first rs ih =>
    rw [firstRepeated?]
    split
    · next hfirst =>
      constructor
      · intro h
        exact ⟨[], first, rs, rfl, rfl, idIn_nil.2 hfirst, Option.some.inj h⟩
      · rintro ⟨before, r, after, heq, hbefore, -, rfl⟩
        cases before with
        | nil =>
          cases heq
          rfl
        | cons x before =>
          cases heq
          rw [firstRepeated?, if_pos hfirst] at hbefore
          cases hbefore
    · next hfirst =>
      rw [ih]
      constructor
      · rintro ⟨before, r, after, rfl, hbefore, hin, hid⟩
        refine ⟨first :: before, r, after, rfl, ?_, idIn_cons.2 hin, hid⟩
        rw [firstRepeated?, if_neg hfirst, hbefore]
      · rintro ⟨before, r, after, heq, hbefore, hin, hid⟩
        cases before with
        | nil =>
          cases heq
          exact absurd (idIn_nil.1 hin) hfirst
        | cons x before =>
          cases heq
          rw [firstRepeated?, if_neg hfirst] at hbefore
          exact ⟨before, r, after, rfl, hbefore, idIn_cons.1 hin, hid⟩

theorem firstRepeated?_eq_none : firstRepeated? [] rs = none ↔ DistinctIds rs := by
  refine ⟨fun h => (distinct_of_firstRepeated? h).2, fun h => ?_⟩
  refine Option.eq_none_iff_forall_ne_some.2 fun id hid => ?_
  obtain ⟨before, r, after, rfl, -, ⟨id', hid', heq⟩, -⟩ := firstRepeated?_eq_some.1 hid
  obtain ⟨r', hr', rfl⟩ := List.mem_map.1 hid'
  exact h.not_beq hr' (BEq.symm heq)

end Schema

/-! ## Fields that keys name -/

/-- The relation has a field of that name. -/
def Relation.Has (r : Relation) (name : String) : Prop := ∃ f ∈ r.fields, Text.Alike f.name name

instance (r : Relation) (name : String) : Decidable (r.Has name) :=
  inferInstanceAs (Decidable (∃ f ∈ r.fields, Text.Alike f.name name))

theorem Relation.field?_isNone {name : String} : (r.field? name).isNone ↔ ¬ r.Has name := by
  rw [Relation.Has, ← findField?_isSome, Relation.field?]
  cases findField? r.fields name <;> simp

/-- A field as a key names it, at the end that has the id `relation`. -/
structure KeyField where
  relation : RelationId
  field : String

/-- The fields that a key names, those of its source before those of its target. -/
def ForeignKey.namedFields (k : ForeignKey) : List KeyField :=
  k.sourceFields.map (⟨k.source, ·⟩) ++ k.targetFields.map (⟨k.target, ·⟩)

namespace KeyField

variable {x : KeyField}

/-- `r` is the registered relation that is meant, and has no such field. -/
structure MissingIn (x : KeyField) (relations : List Relation) (r : Relation) : Prop where
  registered : r ∈ relations
  meant : r.id == x.relation
  lacks : ¬ r.Has x.field

/-- The error for a field that is missing. -/
def unknown? (relations : List Relation) (x : KeyField) : Option SchemaError :=
  (findRelation? relations x.relation).bind fun r =>
    if (r.field? x.field).isNone then some (.unknownField r.id x.field) else none

theorem unknown?_eq_some (h : DistinctIds relations) :
    x.unknown? relations = some e ↔
      ∃ r, x.MissingIn relations r ∧ .unknownField r.id x.field = e := by
  simp only [unknown?, Option.bind_eq_some_iff, h.findRelation?_eq_some,
    Option.ite_none_right_eq_some, Relation.field?_isNone, Option.some.injEq]
  constructor
  · rintro ⟨r, ⟨hr, hid⟩, hlacks, he⟩
    exact ⟨r, ⟨hr, hid, hlacks⟩, he⟩
  · rintro ⟨r, ⟨hr, hid, hlacks⟩, he⟩
    exact ⟨r, ⟨hr, hid⟩, hlacks, he⟩

theorem unknown?_eq_none (h : DistinctIds relations) :
    x.unknown? relations = none ↔ ∀ r, ¬ x.MissingIn relations r := by
  simp only [Option.eq_none_iff_forall_ne_some, ne_eq, unknown?_eq_some h, not_exists, not_and]
  exact ⟨fun hnone r hr => hnone _ r hr rfl, fun hnone e r hr => absurd hr (hnone r)⟩

end KeyField

namespace Schema

theorem missingFrom?_eq (relations : List Relation) (id : RelationId) (names : List String) :
    missingFrom? relations id names =
      (names.map (KeyField.mk id)).findSome? (KeyField.unknown? relations) := by
  unfold missingFrom? KeyField.unknown?
  rw [List.findSome?_map]
  cases hr : findRelation? relations id with
  | none =>
    refine (List.findSome?_eq_none_iff.2 fun name _ => ?_).symm
    rw [Function.comp_apply, hr, Option.bind_none]
  | some r =>
    simp only [Function.comp_def, hr, Option.bind_some, Relation.missing?]
    induction names with
    | nil => rfl
    | cons name names ih =>
      rw [List.find?_cons, List.findSome?_cons]
      cases (r.field? name).isNone with
      | true => rfl
      | false => exact ih

theorem firstMissing?_eq (relations : List Relation) (k : ForeignKey) :
    firstMissing? relations k = k.namedFields.findSome? (KeyField.unknown? relations) := by
  rw [firstMissing?, missingFrom?_eq, missingFrom?_eq, ForeignKey.namedFields,
    List.findSome?_append]
  exact Option.orElse_eq_or

theorem findSome?_firstMissing? (relations : List Relation) (keys : List ForeignKey) :
    keys.findSome? (firstMissing? relations) =
      (keys.flatMap ForeignKey.namedFields).findSome? (KeyField.unknown? relations) := by
  induction keys with
  | nil => rfl
  | cons k keys ih =>
    rw [List.findSome?_cons, List.flatMap_cons, List.findSome?_append, ← ih, firstMissing?_eq]
    cases k.namedFields.findSome? (KeyField.unknown? relations) <;> rfl

/-! ## Acceptance -/

/-- No two relations have equal ids, and each field that a key names exists in the relation at its
end of the key, if that is registered. -/
structure WellFormed (relations : List Relation) (keys : List ForeignKey) : Prop where
  distinct : DistinctIds relations
  sourceFields : ∀ k ∈ keys, ∀ name ∈ k.sourceFields, ∀ r ∈ relations, r.id == k.source → r.Has name
  targetFields : ∀ k ∈ keys, ∀ name ∈ k.targetFields, ∀ r ∈ relations, r.id == k.target → r.Has name

/-- The error that is found first: a repeated id, else a missing field. -/
inductive FirstViolation (relations : List Relation) (keys : List ForeignKey) : SchemaError → Prop
  | duplicateRelation {before after : List Relation} {r r' : Relation} :
      relations = before ++ r :: after → DistinctIds before → r' ∈ before → r'.id == r.id →
      FirstViolation relations keys (.duplicateRelation r.id)
  | unknownField {before after : List KeyField} {x : KeyField} {r : Relation} :
      DistinctIds relations → keys.flatMap ForeignKey.namedFields = before ++ x :: after →
      (∀ x' ∈ before, ∀ r', ¬ x'.MissingIn relations r') → x.MissingIn relations r →
      FirstViolation relations keys (.unknownField r.id x.field)

/-- The schema lists just these relations and keys in this order, and finds them. -/
structure Lists (s : Schema) (c : CaseSensitivity) (relations : List Relation)
    (keys : List ForeignKey) : Prop where
  caseSensitivity : s.caseSensitivity = c
  relationIds : s.relationIds = relations.map (·.id)
  foreignKeys : s.foreignKeys = keys
  keysBetween : ∀ child parent, s.keysBetween child parent =
    keys.filter fun k => k.source == child && k.target == parent
  keysFrom : ∀ child, s.keysFrom child = keys.filter (·.source == child)
  keysTo : ∀ parent, s.keysTo parent = keys.filter (·.target == parent)
  relation? : ∀ r ∈ relations, ∀ id, id == r.id → s.relation? id = some r
  fields? : ∀ r ∈ relations, ∀ id, id == r.id → s.fields? id = some r.fields
  contains : ∀ id, s.contains id ↔ ∃ r ∈ relations, id == r.id

/-- The first violation, as it is looked for. -/
def firstError? (relations : List Relation) (keys : List ForeignKey) : Option SchemaError :=
  ((firstRepeated? [] relations).map SchemaError.duplicateRelation).or
    (keys.findSome? (firstMissing? relations))

theorem firstError?_eq_some : firstError? relations keys = some e ↔
    FirstViolation relations keys e := by
  rw [firstError?, Option.or_eq_some_iff, Option.map_eq_some_iff, Option.map_eq_none_iff,
    findSome?_firstMissing?, firstRepeated?_eq_none]
  constructor
  · rintro (⟨id, hid, rfl⟩ | ⟨hdistinct, he⟩)
    · obtain ⟨before, r, after, hlist, hbefore, ⟨id', hid', heq⟩, rfl⟩ :=
        firstRepeated?_eq_some.1 hid
      obtain ⟨r', hr', rfl⟩ := List.mem_map.1 hid'
      exact .duplicateRelation hlist (firstRepeated?_eq_none.1 hbefore) hr' (BEq.symm heq)
    · obtain ⟨before, x, after, hlist, hx, hbefore⟩ := List.findSome?_eq_some_iff.1 he
      obtain ⟨r, hr, rfl⟩ := (KeyField.unknown?_eq_some hdistinct).1 hx
      exact .unknownField hdistinct hlist
        (fun x' hx' => (KeyField.unknown?_eq_none hdistinct).1 (hbefore x' hx')) hr
  · intro h
    cases h with
    | @duplicateRelation before after r r' hlist hbefore hr' heq =>
      have hin : IdIn [] before r.id := ⟨r'.id, List.mem_map_of_mem hr', BEq.symm heq⟩
      exact .inl ⟨r.id, firstRepeated?_eq_some.2
        ⟨before, r, after, hlist, firstRepeated?_eq_none.2 hbefore, hin, rfl⟩, rfl⟩
    | @unknownField before after x r hdistinct hlist hbefore hr =>
      refine .inr ⟨hdistinct, List.findSome?_eq_some_iff.2 ⟨before, x, after, hlist,
        (KeyField.unknown?_eq_some hdistinct).2 ⟨r, hr, rfl⟩, fun x' hx' => ?_⟩⟩
      exact (KeyField.unknown?_eq_none hdistinct).2 (hbefore x' hx')

theorem wellFormed_iff : WellFormed relations keys ↔ DistinctIds relations ∧
    ∀ x ∈ keys.flatMap ForeignKey.namedFields, ∀ r, ¬ x.MissingIn relations r := by
  have hmissing (x : KeyField) : (∀ r, ¬ x.MissingIn relations r) ↔
      ∀ r ∈ relations, r.id == x.relation → r.Has x.field := by
    constructor
    · intro h r hr hid
      by_contra hlacks
      exact h r ⟨hr, hid, hlacks⟩
    · intro h r hr
      exact hr.lacks (h r hr.registered hr.meant)
  simp only [hmissing, List.forall_mem_flatMap, ForeignKey.namedFields, List.forall_mem_append,
    List.forall_mem_map]
  constructor
  · rintro ⟨hdistinct, hsource, htarget⟩
    exact ⟨hdistinct, fun k hk => ⟨hsource k hk, htarget k hk⟩⟩
  · rintro ⟨hdistinct, h⟩
    exact ⟨hdistinct, fun k hk => (h k hk).1, fun k hk => (h k hk).2⟩

theorem firstError?_eq_none : firstError? relations keys = none ↔ WellFormed relations keys := by
  rw [firstError?, Option.or_eq_none_iff, Option.map_eq_none_iff, firstRepeated?_eq_none,
    findSome?_firstMissing?, List.findSome?_eq_none_iff, wellFormed_iff]
  exact and_congr_right fun hdistinct =>
    forall₂_congr fun x _ => KeyField.unknown?_eq_none hdistinct

/-- The first violation decides. -/
theorem ofLists_cases (c : CaseSensitivity) (relations : List Relation) (keys : List ForeignKey) :
    (∃ e, firstError? relations keys = some e ∧ ofLists c relations keys = .error e) ∨
    firstError? relations keys = none ∧ ∃ s, ofLists c relations keys = .ok s ∧
      s.caseSensitivity = c ∧ s.relations = relations ∧ s.foreignKeys = keys := by
  unfold firstError? ofLists
  split
  · next id hid => exact .inl ⟨_, by rw [hid]; rfl, rfl⟩
  · next hdistinct =>
    split
    · next e he => exact .inl ⟨e, by rw [hdistinct, he]; rfl, rfl⟩
    · next hnone => exact .inr ⟨by rw [hdistinct, hnone]; rfl, _, rfl, rfl, rfl, rfl⟩

theorem lists_self (s : Schema) : s.Lists s.caseSensitivity s.relations s.foreignKeys := by
  have hfind : ∀ r ∈ s.relations, ∀ id, id == r.id → s.relation? id = some r := fun r hr id hid =>
    (DistinctIds.findRelation?_eq_some s.distinct).2 ⟨hr, BEq.symm hid⟩
  refine ⟨rfl, rfl, rfl, fun _ _ => rfl, fun _ => rfl, fun _ => rfl, hfind, ?_, ?_⟩
  · intro r hr id hid
    rw [Schema.fields?, hfind r hr id hid, Option.map_some]
  · intro id
    rw [Schema.contains, Schema.relation?, findRelation?_isSome]
    exact exists_congr fun r => and_congr_right fun _ => ⟨BEq.symm, BEq.symm⟩

/-- Relations and keys are accepted exactly when they are well formed. The error for others is the
first violation: the first relation that repeats an id, or else the first missing field, in the
order of the keys and for each key on its source side first. A schema that is made lists its
relations and keys in the order in which they were given, and finds a relation by any id equal to
its own. -/
theorem ofLists_accepts (c : CaseSensitivity) (relations : List Relation) (keys : List ForeignKey) :
    ((∃ s, ofLists c relations keys = .ok s) ↔ WellFormed relations keys) ∧
    (∀ e, ofLists c relations keys = .error e ↔ FirstViolation relations keys e) ∧
    ∀ s, ofLists c relations keys = .ok s → s.Lists c relations keys := by
  simp only [← firstError?_eq_none, ← firstError?_eq_some]
  rcases ofLists_cases c relations keys with ⟨e, he, heq⟩ | ⟨hnone, s, heq, rfl, rfl, rfl⟩
  · simp [he, heq]
  · rw [heq, hnone]
    refine ⟨by simp, by simp, fun s' hs' => ?_⟩
    cases hs'
    exact s.lists_self

end Schema

namespace Staff

/-- A relation with a key to itself and one to a relation that is not registered. -/
def clerk : Relation := ⟨⟨none, "Clerk"⟩, .table, [{ name := "id" }, { name := "boss" }]⟩

def clerkKeys : List ForeignKey :=
  [⟨⟨none, "CLERK"⟩, ⟨none, "clerk"⟩, [("Boss", "ID")]⟩,
    ⟨⟨none, "clerk"⟩, ⟨none, "office"⟩, [("boss", "number")]⟩]

theorem clerk_found : ∃ s, Schema.ofLists .lower [clerk] clerkKeys = .ok s ∧
    s.relation? ⟨none, "cLERK"⟩ = some clerk := by
  obtain ⟨haccepted, -, hlists⟩ := Schema.ofLists_accepts .lower [clerk] clerkKeys
  have hwf : Schema.WellFormed [clerk] clerkKeys :=
    ⟨List.pairwise_singleton _ _, by decide +kernel, by decide +kernel⟩
  obtain ⟨s, hs⟩ := haccepted.2 hwf
  exact ⟨s, hs, (hlists s hs).relation? clerk (List.mem_singleton_self _) _ (by decide)⟩

end Staff

end XmlPublishing

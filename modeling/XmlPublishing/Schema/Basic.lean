import XmlPublishing.Schema.ForeignKey
import XmlPublishing.Schema.Relation

/-!
Schemas: relations joined by foreign keys.

A `Schema` is well formed by its type: no two relations have equal ids, and the fields that a key
names exist in those of its relations that are registered. A key may join relations that are not
registered. `Schema.ofLists` checks this and reports the first violation, repeated relations before
unknown fields.

All lists keep the order of declaration, which naming and the expansion of trees rely on.
-/

namespace XmlPublishing

/-- Why a list of relations and keys is not a schema. -/
inductive SchemaError where
  | duplicateRelation (id : RelationId)
  | unknownField (relation : RelationId) (field : String)
deriving DecidableEq

def SchemaError.message : SchemaError → String
  | .duplicateRelation id => "relation " ++ id.text ++ " is defined more than once"
  | .unknownField relation field =>
    "relation " ++ relation.text ++ " has no field named " ++ field

/-- Every field that the key names exists in its relation, if that is registered. -/
structure ForeignKey.FitsIn (relations : List Relation) (k : ForeignKey) : Prop where
  source : ∀ r, findRelation? relations k.source = some r → r.missing? k.sourceFields = none
  target : ∀ r, findRelation? relations k.target = some r → r.missing? k.targetFields = none

/-- Relations and foreign keys that fit together. -/
structure Schema where
  caseSensitivity : CaseSensitivity
  relations : List Relation
  foreignKeys : List ForeignKey
  distinct : relations.Pairwise fun a b => ¬ a.id == b.id
  fits : ∀ k ∈ foreignKeys, k.FitsIn relations

namespace Schema

/-- The first relation whose id equals one of `seen` or that of an earlier relation. -/
def firstRepeated? (seen : List RelationId) : List Relation → Option RelationId
  | [] => none
  | r :: rs => if seen.contains r.id then some r.id else firstRepeated? (r.id :: seen) rs

/-- The error for `names` on the side of a key that `id` stands on. -/
def missingFrom? (relations : List Relation) (id : RelationId) (names : List String) :
    Option SchemaError :=
  (findRelation? relations id).bind fun r => (r.missing? names).map (.unknownField r.id)

/-- The first unknown field of a key, on the source side before the target side. -/
def firstMissing? (relations : List Relation) (k : ForeignKey) : Option SchemaError :=
  missingFrom? relations k.source k.sourceFields <|>
    missingFrom? relations k.target k.targetFields

theorem distinct_of_firstRepeated? {seen : List RelationId} {rs : List Relation}
    (h : firstRepeated? seen rs = none) :
    (∀ r ∈ rs, ∀ id ∈ seen, ¬ r.id == id) ∧ rs.Pairwise fun a b => ¬ a.id == b.id := by
  induction rs generalizing seen with
  | nil => simp
  | cons r rs ih =>
    rw [firstRepeated?] at h
    split at h
    · cases h
    · next hr =>
      obtain ⟨h₁, h₂⟩ := ih h
      have hr : ∀ id ∈ seen, ¬ r.id == id := fun id hid hrid =>
        hr (List.contains_iff_exists_mem_beq.2 ⟨id, hid, hrid⟩)
      refine ⟨?_, List.pairwise_cons.2 ⟨fun s hs hrs => ?_, h₂⟩⟩
      · intro s hs id hid
        rcases List.mem_cons.1 hs with rfl | hs
        · exact hr id hid
        · exact h₁ s hs id (List.mem_cons_of_mem _ hid)
      · exact h₁ s hs r.id (List.mem_cons_self ..) (BEq.symm hrs)

theorem missingFrom?_eq_none {relations : List Relation} {id : RelationId} {names : List String}
    (h : missingFrom? relations id names = none) :
    ∀ r, findRelation? relations id = some r → r.missing? names = none := by
  intro r hr
  simpa [missingFrom?, hr] using h

theorem fitsIn_of_firstMissing? {relations : List Relation} {k : ForeignKey}
    (h : firstMissing? relations k = none) : k.FitsIn relations := by
  simp only [firstMissing?, Option.orElse_eq_orElse, Option.orElse_eq_or,
    Option.or_eq_none_iff] at h
  exact ⟨missingFrom?_eq_none h.1, missingFrom?_eq_none h.2⟩

/-- The schema of the given relations and keys. -/
def ofLists (c : CaseSensitivity) (relations : List Relation) (keys : List ForeignKey) :
    Except SchemaError Schema :=
  match h : firstRepeated? [] relations with
  | some id => .error (.duplicateRelation id)
  | none => match h' : keys.findSome? (firstMissing? relations) with
    | some e => .error e
    | none => .ok {
        caseSensitivity := c
        relations
        foreignKeys := keys
        distinct := (distinct_of_firstRepeated? h).2
        fits := fun k hk => fitsIn_of_firstMissing? (List.findSome?_eq_none_iff.1 h' k hk) }

def relationIds (s : Schema) : List RelationId := s.relations.map (·.id)

def relation? (s : Schema) (id : RelationId) : Option Relation := findRelation? s.relations id

def contains (s : Schema) (id : RelationId) : Bool := (s.relation? id).isSome

def fields? (s : Schema) (id : RelationId) : Option (List Field) := (s.relation? id).map (·.fields)

def keysBetween (s : Schema) (child parent : RelationId) : List ForeignKey :=
  s.foreignKeys.filter fun k => k.source == child && k.target == parent

def keysFrom (s : Schema) (child : RelationId) : List ForeignKey :=
  s.foreignKeys.filter (·.source == child)

def keysTo (s : Schema) (parent : RelationId) : List ForeignKey :=
  s.foreignKeys.filter (·.target == parent)

/-- The identifier as this database stores it. -/
def stored (s : Schema) (ident : String) : String := s.caseSensitivity.stored ident

/-- The id that a user's text stands for. -/
def idOf (s : Schema) (text : String) : RelationId :=
  (RelationId.parse text).stored s.caseSensitivity

end Schema

end XmlPublishing

import XmlPublishing.Proofs.Layout.Tree
import XmlPublishing.Proofs.Xsd.EqualLayouts

/-!
`==` on relation ids, keys and layouts.

All three are equivalences, and a schema answers the same about equal ids (`Schema.Indistinct`),
also where the relation is looked for by hash values (`Schema.probe?_eq`). Layouts are large, so a
comparison looks at less where it can: a node that both sides share is equal to itself, and nodes
with different digests are not equal. This is sound because hash values and digests are taken of
what `==` compares (`RelationId.hashed_eq_of_beq`, `Layout.digest_eq_of_beq`): however they are
computed, and whichever nodes are shared, the answer is that of `==` (`Layout.compares_iff`).
-/

namespace XmlPublishing

theorem equivalence_of_equivBEq {α : Type} [BEq α] [EquivBEq α] :
    Equivalence fun a b : α => a == b :=
  ⟨fun _ => BEq.rfl, BEq.symm, BEq.trans⟩

/-! ## Bytes -/

namespace Text

/-- The byte of a capital ASCII letter as that of the small one. -/
def lowerByte (b : UInt8) : UInt8 := if 65 ≤ b ∧ b ≤ 90 then b + 32 else b

/-- The bytes of a text, with ASCII letters made small. -/
def lowerBytes (s : String) : List UInt8 := (s.toList.flatMap String.utf8EncodeChar).map lowerByte

theorem lowerByte_ofNat {n : Nat} (h : 128 ≤ n) (h' : n < 256) :
    lowerByte (UInt8.ofNat n) = UInt8.ofNat n := by
  refine if_neg fun hletter => ?_
  have hle : n % 256 ≤ 90 := by simpa [UInt8.le_iff_toNat_le] using hletter.2
  omega

/-- All bytes of a character outside of ASCII are too large for letters. -/
theorem map_lowerByte_of_not_ascii {c : Char} (h : 128 ≤ c.toNat) :
    (String.utf8EncodeChar c).map lowerByte = String.utf8EncodeChar c := by
  have hv : ¬ c.val.toNat ≤ 127 := Nat.not_le.2 h
  simp only [String.utf8EncodeChar, if_neg hv]
  split_ifs
  all_goals simp (disch := omega) only [List.map_cons, List.map_nil, lowerByte_ofNat]

theorem map_lowerByte_utf8EncodeChar (c : Char) :
    (String.utf8EncodeChar c).map lowerByte = String.utf8EncodeChar c.toLower := by
  have hascii : ∀ n < 128, (String.utf8EncodeChar (Char.ofNat n)).map lowerByte =
      String.utf8EncodeChar (Char.ofNat n).toLower := by
    decide +kernel
  by_cases h : c.toNat < 128
  · have hc := hascii c.toNat h
    rwa [Char.ofNat_toNat] at hc
  · rw [(toLower_eq_self_or c).resolve_right h, map_lowerByte_of_not_ascii (Nat.not_lt.1 h)]

theorem lowerBytes_eq (s : String) :
    lowerBytes s = (foldAscii s).toList.flatMap String.utf8EncodeChar := by
  rw [lowerBytes, foldAscii, String.toList_ofList, List.map_flatMap, List.flatMap_map]
  simp only [map_lowerByte_utf8EncodeChar]

end Text

/-- The bytes that the hash value of an id is taken of. -/
def RelationId.hashed (r : RelationId) : List UInt8 :=
  match r.schema with
  | some schema => 1 :: (Text.lowerBytes schema ++ Text.lowerBytes r.name ++ [255])
  | none => 0 :: (Text.lowerBytes r.name ++ [255])

theorem RelationId.hashed_eq_of_beq {a b : RelationId} (h : a == b) : a.hashed = b.hashed := by
  obtain ⟨schema, name⟩ := a
  obtain ⟨schema', name'⟩ := b
  obtain ⟨hschema, hname⟩ := Prod.mk.inj (beq_iff.1 h)
  cases schema with
  | none =>
    cases Option.map_eq_none_iff.1 hschema.symm
    rw [hashed, hashed, Text.lowerBytes_eq, Text.lowerBytes_eq, hname]
  | some schema =>
    obtain ⟨schema', rfl, hfold⟩ := Option.map_eq_some_iff.1 hschema.symm
    simp only [hashed, Text.lowerBytes_eq, hname, hfold]

/-! ## Digests -/

/-- What the digest of a node is taken of. A key counts with its two ends and its set of source
fields, and what it joins with the digest of that. -/
structure DigestInput where
  relation : List UInt8
  fields : List String
  rowName : String
  collectionName : String
  style : CollectionStyle
  children : List (List UInt8 × List UInt8 × FieldSet × UInt64)
  parents : List (List UInt8 × List UInt8 × FieldSet × UInt64)
  order : Option SortOrder
  ns : Option String

namespace Layout

variable (hash : DigestInput → UInt64)

mutual
/-- The digest of a layout, of which each node is digested after what is embedded in it. -/
def digest : Layout → UInt64
  | .node info parents children =>
    hash
      { relation := info.relation.hashed, fields := info.fields, rowName := info.rowName
        collectionName := info.collectionName, style := info.style
        children := digests children, parents := digests parents
        order := info.order, ns := info.ns }
termination_by structural n => n
def digests : List (Joined Layout) → List (List UInt8 × List UInt8 × FieldSet × UInt64)
  | [] => []
  | ⟨key, n⟩ :: es =>
    (key.source.hashed, key.target.hashed, key.sourceSet, digest n) :: digests es
termination_by structural es => es
end

theorem digests_eq_map (es : List (Joined Layout)) :
    digests hash es = es.map fun e =>
      (e.key.source.hashed, e.key.target.hashed, e.key.sourceSet, e.layout.digest hash) := by
  induction es with
  | nil => rfl
  | cons e es ih => rw [digests, ih, List.map_cons]

variable {hash} {m n : Layout}

theorem digests_eq_of_same {es es' : List (Joined Layout)} (h : List.Forall₂ Joined.Same es es')
    (ih : ∀ e ∈ es, ∀ n, e.layout == n → e.layout.digest hash = n.digest hash) :
    digests hash es = digests hash es' := by
  rw [digests_eq_map, digests_eq_map]
  refine (map_eq_map_of_forall₂ (forall₂_imp_of_mem h ?_) fun _ _ h => h).symm
  intro e he e' _ hsame
  rw [RelationId.hashed_eq_of_beq (ForeignKey.source_beq hsame.1),
    RelationId.hashed_eq_of_beq (ForeignKey.target_beq hsame.1),
    ForeignKey.sourceSet_eq_of_beq hsame.1, ih e he e'.layout hsame.2]

theorem digest_eq_of_beq (h : m == n) : m.digest hash = n.digest hash := by
  induction m generalizing n with
  | node info parents children ihParents ihChildren =>
    obtain ⟨info', parents', children'⟩ := n
    obtain ⟨hinfo, hparents, hchildren⟩ := beq_node.1 h
    rw [digest, digest, RelationId.hashed_eq_of_beq (NodeInfo.beq_iff.1 hinfo).1,
      NodeInfo.eq_of_beq hinfo, digests_eq_of_same hparents fun e he n => ihParents e he,
      digests_eq_of_same hchildren fun e he n => ihChildren e he]

/-! ## Comparisons -/

mutual
/-- How a comparison with shortcuts answers: that a shared node is equal to itself, that nodes are
not equal if their digests differ, and otherwise what it finds out by comparing their parts. -/
inductive Compares (hash : DigestInput → UInt64) : Layout → Layout → Bool → Prop
  | shared (n : Layout) : Compares hash n n true
  | apart {m n : Layout} : m.digest hash ≠ n.digest hash → Compares hash m n false
  | parts {m n : Layout} {parents children : Bool} : m.digest hash = n.digest hash →
      ComparesAll hash m.parents n.parents parents →
      ComparesAll hash m.children n.children children →
      Compares hash m n (m.info == n.info && parents && children)
inductive ComparesAll (hash : DigestInput → UInt64) :
    List (Joined Layout) → List (Joined Layout) → Bool → Prop
  | nil : ComparesAll hash [] [] true
  | longer (e : Joined Layout) (es : List (Joined Layout)) : ComparesAll hash (e :: es) [] false
  | shorter (e : Joined Layout) (es : List (Joined Layout)) : ComparesAll hash [] (e :: es) false
  | cons {e e' : Joined Layout} {es es' : List (Joined Layout)} {head tail : Bool} :
      Compares hash e.layout e'.layout head → ComparesAll hash es es' tail →
      ComparesAll hash (e :: es) (e' :: es') (e.key == e'.key && head && tail)
end

theorem beq_eq_and (m n : Layout) :
    (m == n) = (m.info == n.info && beqList m.parents n.parents &&
      beqList m.children n.children) := by
  cases m
  cases n
  rfl

theorem comparesAll_iff {es es' : List (Joined Layout)} {answer : Bool}
    (ih : ∀ e ∈ es, ∀ n answer, Compares hash e.layout n answer ↔ answer = (e.layout == n)) :
    ComparesAll hash es es' answer ↔ answer = beqList es es' := by
  induction es generalizing es' answer with
  | nil =>
    cases es' with
    | nil => exact ⟨fun | .nil => rfl, fun h => h ▸ .nil⟩
    | cons e' es' => exact ⟨fun | .shorter _ _ => rfl, fun h => h ▸ .shorter e' es'⟩
  | cons e es ihTail =>
    obtain ⟨ihHead, ihRest⟩ := List.forall_mem_cons.1 ih
    cases es' with
    | nil => exact ⟨fun | .longer _ _ => rfl, fun h => h ▸ .longer e es⟩
    | cons e' es' =>
      constructor
      · rintro (_ | _ | _ | ⟨hhead, htail⟩)
        rw [(ihHead _ _).1 hhead, (ihTail ihRest).1 htail]
        rfl
      · rintro rfl
        exact .cons ((ihHead _ _).2 rfl) ((ihTail ihRest).2 rfl)

/-- A comparison that takes shortcuts answers as `==` does. -/
theorem compares_iff {answer : Bool} : Compares hash m n answer ↔ answer = (m == n) := by
  induction m generalizing n answer with
  | node info parents children ihParents ihChildren =>
    have hne (h : (Layout.node info parents children).digest hash ≠ n.digest hash) :
        (Layout.node info parents children == n) = false :=
      Bool.eq_false_iff.2 fun heq => h (digest_eq_of_beq heq)
    have hparents (answer : Bool) :
        ComparesAll hash parents n.parents answer ↔ answer = beqList parents n.parents :=
      comparesAll_iff fun e he _ _ => ihParents e he
    have hchildren (answer : Bool) :
        ComparesAll hash children n.children answer ↔ answer = beqList children n.children :=
      comparesAll_iff fun e he _ _ => ihChildren e he
    constructor
    · rintro (_ | hdigest | ⟨-, hps, hcs⟩)
      · exact (beq_refl _).symm
      · exact (hne hdigest).symm
      · rw [beq_eq_and, (hparents _).1 hps, (hchildren _).1 hcs]
        rfl
    · rintro rfl
      by_cases hdigest : (Layout.node info parents children).digest hash = n.digest hash
      · rw [beq_eq_and]
        exact .parts hdigest ((hparents _).2 rfl) ((hchildren _).2 rfl)
      · rw [hne hdigest]
        exact .apart hdigest

end Layout

/-! ## Lookups -/

namespace Schema

/-- The schema answers the same about both ids, whatever it is asked. -/
structure Indistinct (s : Schema) (a b : RelationId) : Prop where
  contains : s.contains a = s.contains b
  fields : s.fields? a = s.fields? b
  relation : s.relation? a = s.relation? b
  keysFrom : s.keysFrom a = s.keysFrom b
  keysTo : s.keysTo a = s.keysTo b
  keysOfChild : ∀ parent, s.keysBetween a parent = s.keysBetween b parent
  keysOfParent : ∀ child, s.keysBetween child a = s.keysBetween child b
  rowsTypeName : s.rowsTypeName a = s.rowsTypeName b
  listingTypeName : s.listingTypeName a = s.listingTypeName b

theorem indistinct_of_beq (s : Schema) {a b : RelationId} (h : a == b) : s.Indistinct a b where
  contains := contains_congr h
  fields := fields?_congr h
  relation := relation?_congr h
  keysFrom := keysFrom_congr h
  keysTo := keysTo_congr h
  keysOfChild _ := keysBetween_congr h BEq.rfl
  keysOfParent _ := keysBetween_congr BEq.rfl h
  rowsTypeName := rowsTypeName_congr s h
  listingTypeName := listingTypeName_congr s h

/-- The relation that is found in a table of hash values. -/
def probe? (s : Schema) (hash : List UInt8 → UInt64) (r : RelationId) : Option Relation :=
  s.relations.find? fun x => hash x.id.hashed == hash r.hashed && x.id == r

theorem probe?_eq (s : Schema) (hash : List UInt8 → UInt64) (r : RelationId) :
    s.probe? hash r = s.relation? r := by
  have hfound (x : Relation) : (hash x.id.hashed == hash r.hashed && x.id == r) = (x.id == r) := by
    cases h : x.id == r with
    | false => rw [Bool.and_false]
    | true => rw [RelationId.hashed_eq_of_beq h, BEq.rfl, Bool.and_true]
  rw [probe?, relation?, findRelation?]
  simp only [hfound]

end Schema

/-- Ids, keys and layouts have an equality that is an equivalence, on layouts also if it is found
out with shortcuts; and a schema answers the same about equal ids, also from hash values. -/
theorem equality_equivalence (s : Schema) (hash : DigestInput → UInt64)
    (hashId : List UInt8 → UInt64) :
    (Equivalence fun r r' : RelationId => r == r') ∧
    (Equivalence fun k k' : ForeignKey => k == k') ∧
    (Equivalence fun m n : Layout => m == n) ∧
    (∀ m n answer, Layout.Compares hash m n answer ↔ answer = (m == n)) ∧
    (∀ r, s.probe? hashId r = s.relation? r) ∧
    ∀ r r' : RelationId, r == r' → s.Indistinct r r' :=
  ⟨equivalence_of_equivBEq, equivalence_of_equivBEq, equivalence_of_equivBEq,
    fun _ _ _ => Layout.compares_iff, s.probe?_eq hashId, fun _ _ => s.indistinct_of_beq⟩

namespace Staff

theorem capitalEmployee_indistinct :
    capitalEmployee == employee ∧ capitalEmployee ≠ employee ∧ bossKey ∈ schema.keysFrom employee ∧
      schema.Indistinct capitalEmployee employee ∧ team ≠ capitalTeam ∧
      Layout.Compares (fun _ => 0) team capitalTeam true := by
  have hequal : capitalEmployee == employee := by decide
  obtain ⟨-, -, -, hcompares, -, hindistinct⟩ :=
    equality_equivalence schema (fun _ => 0) (fun _ => 0)
  have hkey : bossKey ∈ schema.keysFrom employee :=
    List.mem_filter.2 ⟨by simp [schema], by decide⟩
  have hne : team ≠ capitalTeam := fun h => absurd (congrArg Layout.relation h) (by decide)
  exact ⟨hequal, by decide, hkey, hindistinct _ _ hequal, hne,
    (hcompares _ _ _).2 (by decide +kernel)⟩

end Staff

end XmlPublishing

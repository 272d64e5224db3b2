import XmlPublishing.Proofs.Layout.EmbedAll

/-!
For which keys a schema has default layouts, and how these are named.

With the standard names there is a default child, and a default parent, for every key that the
schema lists once (`Defaults.madeOnce_of_mem`). A key that it lists again, with the same source
fields in any order and spelling, is ambiguous, and nothing else goes wrong. A name is qualified
exactly where the plain one could mean another key between the same relations.
-/

namespace XmlPublishing

/-- The error for a key that a schema lists more than once. -/
def ForeignKey.repeated (s : Schema) (k : ForeignKey) : PublishError :=
  .ambiguousForeignKey k.source k.target (.severalWithFields (s.foreignKeys.count k) k.sourceSet)

/-- There is a layout exactly when the schema lists the key once, and it is named as said; otherwise
the key is repeated. -/
structure ForeignKey.MadeOnce (s : Schema) (k : ForeignKey) (result : Except PublishError Layout)
    (named : Layout → Prop) : Prop where
  exists_iff : (∃ n, result = .ok n) ↔ s.foreignKeys.count k = 1
  named : ∀ n, result = .ok n → named n
  error : ∀ e, result = .error e → e = k.repeated s

namespace Defaults

variable {d : Defaults} {k : ForeignKey} {style : CollectionStyle}

theorem selectedKey_context (hk : k ∈ d.schema.foreignKeys)
    (honce : d.schema.foreignKeys.count k = 1) (style : CollectionStyle) :
    (d.context k style).selectedKey = .ok k :=
  PairContext.selectedKey_ofSchema (Schema.mem_keysBetween_self hk)
    ((ForeignKey.uniqueIn_iff hk).2 honce) style

theorem eq_repeated_of_selectedKey (hk : k ∈ d.schema.foreignKeys) {e : PublishError}
    (h : (d.context k style).selectedKey = .error e) : e = k.repeated d.schema := by
  have heq := eq_of_selectKey_eq_error (Schema.mem_keysBetween_self hk) h
  rwa [matchingKeys_keysBetween, ← List.countP_eq_length_filter] at heq

theorem exists_fieldNames {r : RelationId} (h : d.schema.contains r) :
    ∃ fields, d.fieldNames r = .ok fields := by
  obtain ⟨fields, hfields⟩ := Schema.contains_iff.1 h
  exact ⟨_, map_eq_ok.2 ⟨fields, Schema.knownFields_eq_ok.2 hfields, rfl⟩⟩

theorem child_eq_error {e : PublishError} (hd : d.naming = .standard)
    (hreg : d.schema.contains k.source) (h : d.child k style = .error e) :
    (d.context k style).selectedKey = .error e := by
  obtain ⟨fields, hfields⟩ := exists_fieldNames hreg
  rw [child, hfields, hd] at h
  rcases bind_eq_error.1 h with h | ⟨_, -, h⟩
  · cases h
  rcases bind_eq_error.1 h with h | ⟨_, -, h⟩
  · exact PairContext.plainOr_eq_error h
  rcases bind_eq_error.1 h with h | ⟨_, -, h⟩
  · exact PairContext.plainOr_eq_error h
  · cases h

theorem parent_eq_error {e : PublishError} (hd : d.naming = .standard)
    (hreg : d.schema.contains k.target) (h : d.parent k style = .error e) :
    (d.context k style).selectedKey = .error e := by
  obtain ⟨fields, hfields⟩ := exists_fieldNames hreg
  rw [parent, hfields, hd] at h
  rcases bind_eq_error.1 h with h | ⟨_, -, h⟩
  · cases h
  rcases bind_eq_error.1 h with h | ⟨_, -, h⟩
  · exact PairContext.plainOr_eq_error h
  · cases h

theorem child_madeOnce (hd : d.naming = .standard) (hk : k ∈ d.schema.foreignKeys)
    (hreg : d.schema.contains k.source) :
    k.MadeOnce d.schema (d.child k style) fun n =>
      (n.rowName ≠ NamingPolicy.rowName k.source ↔ style = .inline ∧
        (1 < (d.schema.keysBetween k.source k.target).length ∨
          d.schema.keysBetween k.target k.source ≠ [])) ∧
      (n.collectionName ≠ NamingPolicy.collectionName k.source ↔
        1 < (d.schema.keysBetween k.source k.target).length) where
  exists_iff := by
    refine ⟨fun ⟨n, hn⟩ => (ForeignKey.uniqueIn_iff hk).1 (uniqueIn_of_child hd hk hn), fun h => ?_⟩
    obtain ⟨fields, hfields⟩ := exists_fieldNames hreg
    have hkey := selectedKey_context hk h style
    obtain ⟨rowName, hrow⟩ := NamingPolicy.exists_childRowName_eq_ok hkey
    obtain ⟨collectionName, hcollection⟩ := NamingPolicy.exists_childCollectionName_eq_ok hkey
    refine ⟨_, child_eq_ok_iff.2 ⟨fields, rowName, collectionName, hfields, ?_, ?_, rfl⟩⟩
    · rw [hd]
      exact hrow
    · rw [hd]
      exact hcollection
  named n hn := by
    obtain ⟨fields, rowName, collectionName, -, hrow, hcollection, rfl⟩ := child_eq_ok_iff.1 hn
    rw [hd] at hrow hcollection
    have hrow := NamingPolicy.childRowName_ne_iff hrow
    have hcollection := NamingPolicy.childCollectionName_ne_iff hcollection
    exact ⟨hrow, hcollection⟩
  error e he := eq_repeated_of_selectedKey hk (child_eq_error hd hreg he)

theorem parent_madeOnce (hd : d.naming = .standard) (hk : k ∈ d.schema.foreignKeys)
    (hreg : d.schema.contains k.target) :
    k.MadeOnce d.schema (d.parent k style) fun n =>
      (n.rowName ≠ NamingPolicy.rowName k.target ↔
        1 < (d.schema.keysBetween k.source k.target).length ∨
          (style = .inline ∧ d.schema.keysBetween k.target k.source ≠ [])) where
  exists_iff := by
    refine
      ⟨fun ⟨n, hn⟩ => (ForeignKey.uniqueIn_iff hk).1 (uniqueIn_of_parent hd hk hn), fun h => ?_⟩
    obtain ⟨fields, hfields⟩ := exists_fieldNames hreg
    obtain ⟨rowName, hrow⟩ :=
      NamingPolicy.exists_parentRowName_eq_ok (selectedKey_context hk h style)
    refine ⟨_, parent_eq_ok_iff.2 ⟨fields, rowName, hfields, ?_, rfl⟩⟩
    rw [hd]
    exact hrow
  named n hn := by
    obtain ⟨fields, rowName, -, hrow, rfl⟩ := parent_eq_ok_iff.1 hn
    rw [hd] at hrow
    have hrow := NamingPolicy.parentRowName_ne_iff hrow
    exact hrow
  error e he := eq_repeated_of_selectedKey hk (parent_eq_error hd hreg he)

/-- A schema has a default child and a default parent for every key that it lists once, where the
relation is registered, and otherwise the key is ambiguous. Inline rows are qualified when other
keys lead the same way or any lead back, listings when other keys lead the same way, and parents
when other keys do or, next to inline rows, when any lead back. -/
theorem madeOnce_of_mem (hd : d.naming = .standard) (hk : k ∈ d.schema.foreignKeys)
    (style : CollectionStyle) :
    let forward := d.schema.keysBetween k.source k.target
    let backward := d.schema.keysBetween k.target k.source
    (d.schema.contains k.source → k.MadeOnce d.schema (d.child k style) fun n =>
      (n.rowName ≠ NamingPolicy.rowName k.source ↔
        style = .inline ∧ (1 < forward.length ∨ backward ≠ [])) ∧
      (n.collectionName ≠ NamingPolicy.collectionName k.source ↔ 1 < forward.length)) ∧
    (d.schema.contains k.target → k.MadeOnce d.schema (d.parent k style) fun n =>
      (n.rowName ≠ NamingPolicy.rowName k.target ↔
        1 < forward.length ∨ (style = .inline ∧ backward ≠ []))) :=
  ⟨child_madeOnce hd hk, parent_madeOnce hd hk⟩

end Defaults

namespace Staff

/-- Employees whose key to the boss is listed twice, in two spellings. -/
def twiceSchema : Schema where
  caseSensitivity := .preserve
  relations := [⟨employee, .table, [{ name := "id" }, { name := "boss" }, { name := "deputy" }]⟩]
  foreignKeys := [bossKey, ⟨employee, employee, [("BOSS", "id")]⟩, deputyKey]
  distinct := List.pairwise_singleton _ _
  fits := fun k hk => Schema.fitsIn_of_firstMissing? (List.findSome?_eq_none_iff.1 rfl k hk)

def twiceDefaults : Defaults := ⟨twiceSchema, .standard, .inline, none⟩

theorem twiceSchema_madeOnce :
    deputyKey ∈ twiceSchema.foreignKeys ∧ bossKey ∈ twiceSchema.foreignKeys ∧
      twiceSchema.contains employee ∧
      (∃ n, twiceDefaults.child deputyKey .inline = .ok n ∧ n.rowName ≠ "e") ∧
      (∃ n, twiceDefaults.parent deputyKey .wrapped = .ok n ∧ n.rowName ≠ "e") ∧
      ∀ n, twiceDefaults.child bossKey .inline ≠ .ok n := by
  have hdeputy : deputyKey ∈ twiceDefaults.schema.foreignKeys :=
    List.mem_cons_of_mem _ (List.mem_cons_of_mem _ List.mem_cons_self)
  have hboss : bossKey ∈ twiceDefaults.schema.foreignKeys := List.mem_cons_self
  have hreg : twiceSchema.contains employee := rfl
  have hchild := (Defaults.madeOnce_of_mem rfl hdeputy .inline).1 hreg
  have hparent := (Defaults.madeOnce_of_mem rfl hdeputy .wrapped).2 hreg
  have hrepeated := (Defaults.madeOnce_of_mem rfl hboss .inline).1 hreg
  obtain ⟨n, hn⟩ := hchild.exists_iff.2 (by decide)
  obtain ⟨m, hm⟩ := hparent.exists_iff.2 (by decide)
  refine ⟨hdeputy, hboss, hreg, ⟨n, hn, ?_⟩, ⟨m, hm, ?_⟩, fun n hn => ?_⟩
  · exact (hchild.named n hn).1.2 (by decide)
  · exact (hparent.named m hm).2 (by decide)
  · exact absurd (hrepeated.exists_iff.1 ⟨n, hn⟩) (by decide)

end Staff

end XmlPublishing

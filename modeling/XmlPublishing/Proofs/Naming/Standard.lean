import XmlPublishing.Naming.Policy
import XmlPublishing.Proofs.Schema.Lookup
import XmlPublishing.Proofs.Sequence

/-!
When the standard policy has a name for an embedded element.

A name that has to be qualified needs a key that its source fields tell apart from all others
between the same relations (`ForeignKey.UniqueIn`): one that the schema lists once
(`ForeignKey.uniqueIn_iff`). All three names for a pair of relations are of one form, which is plain
under a condition of their own (`PairContext.plainOr`). A single key is told apart from all others,
so the names of listings and of parents exist only for keys that are
(`PairContext.matchingKeys_eq_of_plainOr`).
-/

namespace XmlPublishing

variable {candidates : List ForeignKey} {fields : Option FieldSet} {child parent : RelationId}
  {k k' : ForeignKey}

theorem mem_matchingKeys (hk : k ∈ candidates) : k ∈ matchingKeys candidates (some k.sourceSet) :=
  List.mem_filter.2 ⟨hk, decide_eq_true rfl⟩

theorem selectKey_eq_ok :
    selectKey candidates fields child parent = .ok k ↔ matchingKeys candidates fields = [k] := by
  unfold selectKey
  split
  · next k' hk =>
    rw [hk]
    constructor
    · intro h
      rw [Except.ok.inj h]
    · intro h
      rw [List.singleton_inj.1 h]
  · next hk => exact ⟨nofun, fun h => nomatch hk.symm.trans h⟩
  · next hk _ => exact ⟨nofun, fun h => absurd h (hk k)⟩

/-- Selecting by the source fields of a candidate fails only where others have them too. -/
theorem eq_of_selectKey_eq_error (hk : k ∈ candidates) {e : PublishError}
    (h : selectKey candidates (some k.sourceSet) child parent = .error e) :
    e = .ambiguousForeignKey child parent
      (.severalWithFields (matchingKeys candidates (some k.sourceSet)).length k.sourceSet) := by
  unfold selectKey at h
  split at h
  · cases h
  · next hnone => exact absurd (mem_matchingKeys hk) (List.eq_nil_iff_forall_not_mem.1 hnone k)
  · exact (Except.error.inj h).symm

theorem mem_of_selectKey_eq_ok (h : selectKey candidates fields child parent = .ok k) :
    k ∈ candidates := by
  have hk : k ∈ matchingKeys candidates fields := by
    rw [selectKey_eq_ok.1 h]
    exact List.mem_singleton_self k
  cases fields with
  | none => exact hk
  | some fields => exact List.mem_of_mem_filter hk

theorem eq_of_matchingKeys_eq (hk : k ∈ candidates)
    (h : matchingKeys candidates (some k.sourceSet) = [k']) : k' = k :=
  (List.mem_singleton.1 (h ▸ mem_matchingKeys hk)).symm

/-- A candidate without others is told apart by its source fields. -/
theorem matchingKeys_eq_of_length_le_one (hk : k ∈ candidates) (h : candidates.length ≤ 1) :
    matchingKeys candidates (some k.sourceSet) = [k] := by
  have hmem := mem_matchingKeys hk
  have hlen : (matchingKeys candidates (some k.sourceSet)).length ≤ 1 :=
    Nat.le_trans (List.length_filter_le _ _) h
  obtain ⟨k', hk'⟩ := List.length_eq_one_iff.1 (Nat.le_antisymm hlen (List.length_pos_of_mem hmem))
  rw [hk', eq_of_matchingKeys_eq hk hk']

/-- The key is the only one between its relations that has its source fields. -/
def ForeignKey.UniqueIn (s : Schema) (k : ForeignKey) : Prop :=
  matchingKeys (s.keysBetween k.source k.target) (some k.sourceSet) = [k]

theorem matchingKeys_keysBetween (s : Schema) (k : ForeignKey) :
    matchingKeys (s.keysBetween k.source k.target) (some k.sourceSet) =
      s.foreignKeys.filter (· == k) := by
  rw [matchingKeys, Schema.keysBetween, List.filter_filter]
  refine List.filter_congr fun k' _ => Bool.eq_iff_iff.2 ?_
  simp only [Bool.and_eq_true, decide_eq_true_eq, RelationId.beq_iff, ForeignKey.beq_iff,
    ForeignKey.identity, Prod.mk.injEq]
  tauto

theorem ForeignKey.uniqueIn_iff {s : Schema} (hk : k ∈ s.foreignKeys) :
    k.UniqueIn s ↔ s.foreignKeys.count k = 1 := by
  rw [UniqueIn, matchingKeys_keysBetween, List.count, List.countP_eq_length_filter]
  constructor
  · intro h
    rw [h, List.length_singleton]
  · intro h
    obtain ⟨k', hk'⟩ := List.length_eq_one_iff.1 h
    have hmem : k ∈ s.foreignKeys.filter (· == k) := List.mem_filter.2 ⟨hk, BEq.rfl⟩
    rw [hk', List.mem_singleton] at hmem
    rw [hk', hmem]

/-! ## Qualified names -/

namespace PairContext

/-- A name that is plain under some condition, and is otherwise made from the selected key. -/
def plainOr (ctx : PairContext) (plain : Prop) [Decidable plain] (base : String)
    (qualified : ForeignKey → String) : Except PublishError String :=
  if plain then .ok base else return qualified (← ctx.selectedKey)

variable {ctx : PairContext} {plain : Prop} [Decidable plain] {base name : String}
  {qualified : ForeignKey → String}

theorem selectedKey_eq_ok (hfields : ctx.fields = some k.sourceSet) :
    ctx.selectedKey = .ok k' ↔ matchingKeys ctx.forward (some k.sourceSet) = [k'] := by
  rw [selectedKey, hfields]
  exact selectKey_eq_ok

/-- A key that its source fields tell apart is the selected one. -/
theorem selectedKey_ofSchema {s : Schema} (hk : k ∈ s.keysBetween child parent)
    (huniq : k.UniqueIn s) (style : CollectionStyle) :
    (ofSchema s child parent (some k.sourceSet) style).selectedKey = .ok k := by
  have hends := ForeignKey.joins_of_mem_keysBetween hk
  rw [selectedKey_eq_ok rfl, ofSchema, ← Schema.keysBetween_congr hends.source hends.target]
  exact huniq

theorem plainOr_eq_ok : ctx.plainOr plain base qualified = .ok name ↔
    (plain ∧ name = base) ∨ (¬ plain ∧ ∃ k, ctx.selectedKey = .ok k ∧ name = qualified k) := by
  unfold plainOr
  split
  · next h => simp only [h, Except.ok.injEq, true_and, not_true, false_and, or_false, eq_comm]
  · next h =>
    simp only [h, bind_eq_ok, pure_eq_ok, false_and, not_false_eq_true, true_and, false_or]

theorem plainOr_eq_error {e : PublishError} (h : ctx.plainOr plain base qualified = .error e) :
    ctx.selectedKey = .error e := by
  unfold plainOr at h
  split at h
  · cases h
  · rcases bind_eq_error.1 h with h | ⟨k, -, h⟩
    · exact h
    · cases h

/-- A name is plain only where it is meant to be. -/
theorem plainOr_ne_iff (hqualified : ∀ k, qualified k ≠ base)
    (h : ctx.plainOr plain base qualified = .ok name) : name ≠ base ↔ ¬ plain := by
  rcases plainOr_eq_ok.1 h with ⟨hplain, rfl⟩ | ⟨hplain, k, -, rfl⟩
  · exact iff_of_false (fun hne => hne rfl) (fun hnot => hnot hplain)
  · exact iff_of_true (hqualified k) hplain

theorem exists_plainOr_eq_ok (h : ctx.selectedKey = .ok k) :
    ∃ name, ctx.plainOr plain base qualified = .ok name := by
  by_cases hplain : plain
  · exact ⟨base, plainOr_eq_ok.2 (.inl ⟨hplain, rfl⟩)⟩
  · exact ⟨qualified k, plainOr_eq_ok.2 (.inr ⟨hplain, k, h, rfl⟩)⟩

/-- A name that is plain at most when the key is alone exists only when the key is told apart. -/
theorem matchingKeys_eq_of_plainOr (hk : k ∈ ctx.forward) (hfields : ctx.fields = some k.sourceSet)
    (hplain : plain → ctx.forward.length ≤ 1) (h : ctx.plainOr plain base qualified = .ok name) :
    matchingKeys ctx.forward (some k.sourceSet) = [k] := by
  rcases plainOr_eq_ok.1 h with ⟨h, -⟩ | ⟨-, k', hk', -⟩
  · exact matchingKeys_eq_of_length_le_one hk (hplain h)
  · rw [selectedKey_eq_ok hfields] at hk'
    rwa [eq_of_matchingKeys_eq hk hk'] at hk'

end PairContext

/-! ## The three names -/

theorem prepended_ne {before base : String} (h : before ≠ "") : before ++ base ≠ base :=
  fun heq => h ((String.append_left_inj base).1 (heq.trans String.empty_append.symm))

theorem appended_ne {base after rest : String} (h : after ≠ "") : base ++ after ++ rest ≠ base := by
  intro heq
  rw [String.append_assoc] at heq
  have hempty := (String.append_right_inj base).1 (heq.trans String.append_empty.symm)
  exact h (String.append_eq_empty_iff.1 hempty).1

namespace NamingPolicy

variable {ctx : PairContext} {name : String}

theorem childCollectionName_eq (ctx : PairContext) :
    childCollectionName ctx = ctx.plainOr (ctx.forward.length ≤ 1) (collectionName ctx.child)
      fun k => collectionName ctx.child ++ "-from-" ++ Text.hyphenated k.sourceFields := rfl

theorem childRowName_eq (ctx : PairContext) :
    childRowName ctx = ctx.plainOr
      (ctx.style = .wrapped ∨ (ctx.forward.length ≤ 1 ∧ ctx.backward = [])) (rowName ctx.child)
      fun k => if ctx.forward.length = 1 then "child-" ++ rowName ctx.child
        else rowName ctx.child ++ "-child-referencing-via-" ++ Text.hyphenated k.sourceFields := rfl

theorem parentRowName_eq (ctx : PairContext) :
    parentRowName ctx = ctx.plainOr
      (ctx.forward.length ≤ 1 ∧ (ctx.style = .wrapped ∨ ctx.backward = [])) (rowName ctx.parent)
      fun k => if ctx.forward.length = 1 then "parent-" ++ rowName ctx.parent
        else rowName ctx.parent ++ "-parent-referenced-via-" ++ Text.hyphenated k.sourceFields :=
  rfl

theorem exists_childCollectionName_eq_ok (h : ctx.selectedKey = .ok k) :
    ∃ name, childCollectionName ctx = .ok name := by
  rw [childCollectionName_eq]
  exact PairContext.exists_plainOr_eq_ok h

theorem exists_childRowName_eq_ok (h : ctx.selectedKey = .ok k) :
    ∃ name, childRowName ctx = .ok name := by
  rw [childRowName_eq]
  exact PairContext.exists_plainOr_eq_ok h

theorem exists_parentRowName_eq_ok (h : ctx.selectedKey = .ok k) :
    ∃ name, parentRowName ctx = .ok name := by
  rw [parentRowName_eq]
  exact PairContext.exists_plainOr_eq_ok h

theorem childCollectionName_ne_iff (h : childCollectionName ctx = .ok name) :
    name ≠ collectionName ctx.child ↔ 1 < ctx.forward.length := by
  rw [childCollectionName_eq] at h
  rw [PairContext.plainOr_ne_iff (fun _ => appended_ne (by decide)) h, Nat.not_le]

theorem childRowName_ne_iff (h : childRowName ctx = .ok name) :
    name ≠ rowName ctx.child ↔
      ctx.style = .inline ∧ (1 < ctx.forward.length ∨ ctx.backward ≠ []) := by
  rw [childRowName_eq] at h
  rw [PairContext.plainOr_ne_iff (fun _ => ?_) h, not_or, not_and_or, Nat.not_le]
  · cases ctx.style <;> simp
  · split
    · exact prepended_ne (by decide)
    · exact appended_ne (by decide)

theorem parentRowName_ne_iff (h : parentRowName ctx = .ok name) :
    name ≠ rowName ctx.parent ↔
      1 < ctx.forward.length ∨ (ctx.style = .inline ∧ ctx.backward ≠ []) := by
  rw [parentRowName_eq] at h
  rw [PairContext.plainOr_ne_iff (fun _ => ?_) h, not_and_or, Nat.not_le, not_or]
  · cases ctx.style <;> simp
  · split
    · exact prepended_ne (by decide)
    · exact appended_ne (by decide)

end NamingPolicy

end XmlPublishing

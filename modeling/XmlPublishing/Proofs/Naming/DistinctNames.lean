import XmlPublishing.Proofs.Naming.Standard
import XmlPublishing.Proofs.Text.Case
import XmlPublishing.Proofs.Text.Hyphenated

/-!
Which elements the standard names tell apart.

A relation can be embedded in another one as a child and as a parent. Each name that it then gets is
its own name with something in front or behind (`Affixed`), and what children have there never reads
like what parents have there, whatever the name in between and whatever follows. So the two are
always told apart (`NamingPolicy.contentName_ne_parentRowName`).

Among several keys between the same relations, a name tells nothing of a key but its source fields
joined by hyphens. Two keys are told apart exactly when these texts differ, as they do when all
fields have plain names (`NamingPolicy.apart_iff`). A hyphen in the name of a field can make them
equal.
-/

namespace XmlPublishing

theorem NamingPolicy.rowName_congr {r r' : RelationId} (h : r == r') : rowName r = rowName r' :=
  (RelationId.name_alike h).lower_eq

/-! ## Affixes -/

/-- Neither text is the beginning of the other. -/
def Diverge (a b : String) : Prop := ¬ a.toList <+: b.toList ∧ ¬ b.toList <+: a.toList

instance (a b : String) : Decidable (Diverge a b) := inferInstanceAs (Decidable (_ ∧ _))

theorem Diverge.append_ne {a b : String} (h : Diverge a b) (rest rest' : String) :
    a ++ rest ≠ b ++ rest' := by
  intro heq
  have hlist := congrArg String.toList heq
  rw [String.toList_append, String.toList_append] at hlist
  rcases List.prefix_or_prefix_of_prefix (List.prefix_append a.toList rest.toList)
    (hlist ▸ List.prefix_append b.toList rest'.toList) with hab | hba
  · exact h.1 hab
  · exact h.2 hba

/-- The base with `before` in front of it, or with `after` and anything else behind it. -/
inductive Affixed (before after base : String) : String → Prop where
  | front : Affixed before after base (before ++ base)
  | behind (rest : String) : Affixed before after base (base ++ after ++ rest)

namespace Affixed

variable {before before' after after' base name name' : String}

theorem plain : Affixed "" after base base := by
  have h : Affixed "" after base ("" ++ base) := .front
  rwa [String.empty_append] at h

theorem behind_self : Affixed before after base (base ++ after) := by
  have h : Affixed before after base (base ++ after ++ "") := .behind ""
  rwa [String.append_empty] at h

theorem append_of_eq (rest : String) (h : name = base ++ after) :
    Affixed before after base (name ++ rest) :=
  h ▸ .behind rest

theorem append_ne_of_length_lt (h : before.length < after.length) (rest : String) :
    before ++ base ≠ base ++ after ++ rest := by
  intro heq
  have hlength := congrArg String.length heq
  simp only [String.length_append] at hlength
  omega

/-- Names that are made differently from one base are different, whatever the base is. -/
theorem ne (hbefore : before ≠ before') (hafter : Diverge after after')
    (hlength : before.length < after'.length) (hlength' : before'.length < after.length)
    (h : Affixed before after base name) (h' : Affixed before' after' base name') :
    name ≠ name' := by
  cases h with
  | front =>
    cases h' with
    | front => exact fun heq => hbefore ((String.append_left_inj base).1 heq)
    | behind rest => exact append_ne_of_length_lt hlength rest
  | behind rest =>
    cases h' with
    | front => exact (append_ne_of_length_lt hlength' rest).symm
    | behind rest' =>
      intro heq
      rw [String.append_assoc, String.append_assoc] at heq
      exact hafter.append_ne rest rest' ((String.append_right_inj base).1 heq)

end Affixed

/-! ## Children and parents -/

/-- The element that stands for the child's rows in a row of the parent: the collection, or each
row where these are placed directly. -/
def PairContext.contentName (ctx : PairContext) : Except PublishError String :=
  match ctx.style with
  | .wrapped => NamingPolicy.childCollectionName ctx
  | .inline => NamingPolicy.childRowName ctx

namespace NamingPolicy

variable {s : Schema} {ctx : PairContext} {name name' : String}

theorem affixed_of_childCollectionName (h : childCollectionName ctx = .ok name) :
    Affixed "child-" "-listing" (rowName ctx.child) name := by
  rw [childCollectionName_eq, PairContext.plainOr_eq_ok] at h
  rcases h with ⟨-, rfl⟩ | ⟨-, k, -, rfl⟩
  · exact .behind_self
  · rw [String.append_assoc]
    exact .append_of_eq _ rfl

theorem affixed_of_childRowName (hstyle : ctx.style = .inline) (hback : ctx.backward ≠ [])
    (h : childRowName ctx = .ok name) :
    Affixed "child-" "-child-referencing-via-" (rowName ctx.child) name := by
  rw [childRowName_eq, PairContext.plainOr_eq_ok] at h
  rcases h with ⟨hwrapped | ⟨-, halone⟩, -⟩ | ⟨-, k, -, rfl⟩
  · exact nomatch hstyle.symm.trans hwrapped
  · exact absurd halone hback
  · split
    · exact .front
    · exact .behind _

theorem affixed_of_contentName (hback : ctx.backward ≠ []) (h : ctx.contentName = .ok name) :
    ∃ after ∈ ["-listing", "-child-referencing-via-"],
      Affixed "child-" after (rowName ctx.child) name := by
  unfold PairContext.contentName at h
  split at h
  · exact ⟨_, List.mem_cons_self, affixed_of_childCollectionName h⟩
  · next hstyle =>
    exact ⟨_, List.mem_cons_of_mem _ List.mem_cons_self, affixed_of_childRowName hstyle hback h⟩

theorem affixed_of_parentRowName (h : parentRowName ctx = .ok name) :
    ∃ before ∈ ["", "parent-"],
      Affixed before "-parent-referenced-via-" (rowName ctx.parent) name := by
  rw [parentRowName_eq, PairContext.plainOr_eq_ok] at h
  rcases h with ⟨-, rfl⟩ | ⟨-, k, -, rfl⟩
  · exact ⟨_, List.mem_cons_self, .plain⟩
  · split
    · exact ⟨_, List.mem_cons_of_mem _ List.mem_cons_self, .front⟩
    · exact ⟨_, List.mem_cons_self, .behind _⟩

/-- What is put around names for children suits the case analysis of `Affixed.ne` against all that
is put around names for parents. -/
theorem affixes_diverge :
    ∀ after ∈ ["-listing", "-child-referencing-via-"], ∀ before ∈ ["", "parent-"],
      "child-" ≠ before ∧ Diverge after "-parent-referenced-via-" ∧
        "child-".length < "-parent-referenced-via-".length ∧ before.length < after.length := by
  decide

/-- Where a key leads back from the parent, a relation is not named alike as a child of that parent
and as a parent itself, whichever fields select the keys and in whichever styles. -/
theorem contentName_ne_parentRowName {r r' o o' : RelationId} (ho : o == o') {g : ForeignKey}
    (hg : g ∈ s.keysBetween r o) (fields fields' : Option FieldSet)
    (style style' : CollectionStyle)
    (h : (PairContext.ofSchema s o r fields style).contentName = .ok name)
    (h' : parentRowName (.ofSchema s r' o' fields' style') = .ok name') : name ≠ name' := by
  obtain ⟨after, hafter, hname⟩ := affixed_of_contentName (List.ne_nil_of_mem hg) h
  obtain ⟨before, hbefore, hname'⟩ := affixed_of_parentRowName h'
  obtain ⟨hne, hdiverge, hlength, hlength'⟩ := affixes_diverge after hafter before hbefore
  have hbase : rowName o' = rowName o := (rowName_congr ho).symm
  exact Affixed.ne hne hdiverge hlength hlength' hname (hbase ▸ hname')

end NamingPolicy

namespace Journey

def trip : RelationId := ⟨none, "trip"⟩

def leg : RelationId := ⟨none, "leg"⟩

def codeKey : ForeignKey := ⟨trip, leg, [("from-to", "code")]⟩

def endsKey : ForeignKey := ⟨trip, leg, [("from", "start"), ("to", "stop")]⟩

def nextKey : ForeignKey := ⟨trip, leg, [("to", "start")]⟩

def lastKey : ForeignKey := ⟨leg, trip, [("last", "id")]⟩

/-- Trips over the legs of a journey. A trip names its leg by a code, in the field `from-to`, and by
its ends, in the fields `from` and `to`; where it ends the next leg starts. A leg names its last
trip. -/
def schema : Schema where
  caseSensitivity := .preserve
  relations := [
    ⟨trip, .table, [{ name := "id" }, { name := "from-to" }, { name := "from" }, { name := "to" }]⟩,
    ⟨leg, .table,
      [{ name := "code" }, { name := "start" }, { name := "stop" }, { name := "last" }]⟩]
  foreignKeys := [codeKey, endsKey, nextKey, lastKey]
  distinct := List.pairwise_pair.2 (by decide)
  fits := fun k hk => Schema.fitsIn_of_firstMissing? (List.findSome?_eq_none_iff.1 rfl k hk)

/-- The context of a key of the journey, in one of the styles. -/
def context (k : ForeignKey) (style : CollectionStyle) : PairContext :=
  .ofSchema schema k.source k.target (some k.sourceSet) style

theorem trip_content_ne_parent :
    lastKey ∈ schema.keysBetween leg trip ∧
      (context nextKey .inline).contentName = .ok "trip-child-referencing-via-to" ∧
      NamingPolicy.parentRowName (context lastKey .inline) = .ok "parent-trip" ∧
      "trip-child-referencing-via-to" ≠ "parent-trip" := by
  have hlast : lastKey ∈ schema.keysBetween leg trip := List.mem_singleton_self lastKey
  have hchild : (context nextKey .inline).contentName = .ok "trip-child-referencing-via-to" := by
    decide +kernel
  have hparent : NamingPolicy.parentRowName (context lastKey .inline) = .ok "parent-trip" := by
    decide +kernel
  exact ⟨hlast, hchild, hparent,
    NamingPolicy.contentName_ne_parentRowName BEq.rfl hlast _ _ _ _ hchild hparent⟩

end Journey

/-! ## Keys between the same relations -/

/-- There are both names, and they differ exactly if `p` holds. -/
def ApartIff (x x' : Except PublishError String) (p : Prop) : Prop :=
  ∃ name name', x = .ok name ∧ x' = .ok name' ∧ (name ≠ name' ↔ p)

theorem apartIff_of_append {x x' : Except PublishError String} {base rest rest' : String}
    (h : x = .ok (base ++ rest)) (h' : x' = .ok (base ++ rest')) : ApartIff x x' (rest ≠ rest') :=
  ⟨_, _, h, h', not_congr (String.append_right_inj base)⟩

namespace NamingPolicy

variable {s : Schema} {ctx : PairContext} {child parent : RelationId} {k k' : ForeignKey}

theorem childCollectionName_eq_qualified (hmany : 1 < ctx.forward.length)
    (hk : ctx.selectedKey = .ok k) : childCollectionName ctx =
      .ok (collectionName ctx.child ++ "-from-" ++ Text.hyphenated k.sourceFields) := by
  rw [childCollectionName_eq, PairContext.plainOr_eq_ok]
  exact .inr ⟨Nat.not_le.2 hmany, k, hk, rfl⟩

theorem childRowName_eq_qualified (hstyle : ctx.style = .inline) (hmany : 1 < ctx.forward.length)
    (hk : ctx.selectedKey = .ok k) : childRowName ctx =
      .ok (rowName ctx.child ++ "-child-referencing-via-" ++ Text.hyphenated k.sourceFields) := by
  rw [childRowName_eq, PairContext.plainOr_eq_ok]
  refine .inr ⟨?_, k, hk, (if_neg (Nat.ne_of_gt hmany)).symm⟩
  rintro (hwrapped | ⟨hfew, -⟩)
  · exact nomatch hstyle.symm.trans hwrapped
  · exact Nat.not_le.2 hmany hfew

theorem parentRowName_eq_qualified (hmany : 1 < ctx.forward.length)
    (hk : ctx.selectedKey = .ok k) : parentRowName ctx =
      .ok (rowName ctx.parent ++ "-parent-referenced-via-" ++ Text.hyphenated k.sourceFields) := by
  rw [parentRowName_eq, PairContext.plainOr_eq_ok]
  exact .inr ⟨fun hfew => Nat.not_le.2 hmany hfew.1, k, hk, (if_neg (Nat.ne_of_gt hmany)).symm⟩

theorem one_lt_length_keysBetween (hk : k ∈ s.keysBetween child parent)
    (hk' : k' ∈ s.keysBetween child parent) (hne : k.sourceSet ≠ k'.sourceSet) :
    1 < (s.keysBetween child parent).length := by
  match hkeys : s.keysBetween child parent with
  | [] =>
    rw [hkeys] at hk
    exact absurd hk List.not_mem_nil
  | [only] =>
    rw [hkeys, List.mem_singleton] at hk hk'
    exact absurd (congrArg ForeignKey.sourceSet (hk.trans hk'.symm)) hne
  | _ :: _ :: rest => exact Nat.succ_lt_succ (Nat.succ_pos rest.length)

/-- Of fields with plain names, the texts tell different sets apart. -/
theorem hyphenated_ne (hplain : ∀ name ∈ k.sourceFields ++ k'.sourceFields, Text.IsPlain name)
    (hne : k.sourceSet ≠ k'.sourceSet) :
    Text.hyphenated k.sourceFields ≠ Text.hyphenated k'.sourceFields := by
  rw [List.forall_mem_append] at hplain
  intro heq
  have hfold := Text.hyphenated_injective hplain.1 hplain.2 heq
  exact hne (congrArg (fun names => FieldSet.mk (.ofList names)) hfold)

/-- All names of two keys between the same relations, of which neither is repeated, differ exactly
when the source fields of the keys do once they are joined. With plain names of fields they do. -/
theorem apart_iff (hk : k ∈ s.keysBetween child parent) (hk' : k' ∈ s.keysBetween child parent)
    (hne : k.sourceSet ≠ k'.sourceSet) (huniq : k.UniqueIn s) (huniq' : k'.UniqueIn s) :
    let ctx k style := PairContext.ofSchema s child parent (some k.sourceSet) style
    let apart := Text.hyphenated k.sourceFields ≠ Text.hyphenated k'.sourceFields
    (∀ style style', ApartIff (childCollectionName (ctx k style))
      (childCollectionName (ctx k' style')) apart) ∧
    ApartIff (childRowName (ctx k .inline)) (childRowName (ctx k' .inline)) apart ∧
    (∀ style style', ApartIff (parentRowName (ctx k style)) (parentRowName (ctx k' style'))
      apart) ∧
    ((∀ name ∈ k.sourceFields ++ k'.sourceFields, Text.IsPlain name) → apart) := by
  have hmany := one_lt_length_keysBetween hk hk' hne
  have hsel := PairContext.selectedKey_ofSchema hk huniq
  have hsel' := PairContext.selectedKey_ofSchema hk' huniq'
  refine ⟨fun style style' => ?_, ?_, fun style style' => ?_,
    fun hplain => hyphenated_ne hplain hne⟩
  · exact apartIff_of_append (childCollectionName_eq_qualified hmany (hsel style))
      (childCollectionName_eq_qualified hmany (hsel' style'))
  · exact apartIff_of_append (childRowName_eq_qualified rfl hmany (hsel .inline))
      (childRowName_eq_qualified rfl hmany (hsel' .inline))
  · exact apartIff_of_append (parentRowName_eq_qualified hmany (hsel style))
      (parentRowName_eq_qualified hmany (hsel' style'))

end NamingPolicy

namespace Journey

theorem nextKey_endsKey_apart :
    nextKey.sourceSet ≠ endsKey.sourceSet ∧ nextKey.UniqueIn schema ∧ endsKey.UniqueIn schema ∧
      ∃ name name', NamingPolicy.childCollectionName (context nextKey .wrapped) = .ok name ∧
        NamingPolicy.childCollectionName (context endsKey .wrapped) = .ok name' ∧
        name ≠ name' := by
  have hkeys : schema.keysBetween trip leg = [codeKey, endsKey, nextKey] := rfl
  have hnext : nextKey ∈ schema.keysBetween trip leg := by simp [hkeys]
  have hends : endsKey ∈ schema.keysBetween trip leg := by simp [hkeys]
  have hne : nextKey.sourceSet ≠ endsKey.sourceSet := by decide
  have hnext' : nextKey.UniqueIn schema := rfl
  have hends' : endsKey.UniqueIn schema := rfl
  obtain ⟨hcollection, -, -, hplain⟩ := NamingPolicy.apart_iff hnext hends hne hnext' hends'
  obtain ⟨name, name', hname, hname', hdiffer⟩ := hcollection .wrapped .wrapped
  exact ⟨hne, hnext', hends', name, name', hname, hname', hdiffer.2 (hplain (by decide))⟩

/-- The fields `from` and `to` joined by a hyphen read like the field `from-to`. -/
theorem codeKey_endsKey_alike :
    codeKey ∈ schema.keysBetween trip leg ∧ endsKey ∈ schema.keysBetween trip leg ∧
      codeKey.sourceSet ≠ endsKey.sourceSet ∧ codeKey.UniqueIn schema ∧
      endsKey.UniqueIn schema ∧
      ∀ k ∈ [codeKey, endsKey],
        NamingPolicy.childCollectionName (context k .wrapped) =
          .ok "trip-listing-from-from-to" ∧
        NamingPolicy.childRowName (context k .inline) =
          .ok "trip-child-referencing-via-from-to" ∧
        NamingPolicy.parentRowName (context k .wrapped) =
          .ok "leg-parent-referenced-via-from-to" := by
  have hkeys : schema.keysBetween trip leg = [codeKey, endsKey, nextKey] := rfl
  have hcode : codeKey.UniqueIn schema := rfl
  have hends : endsKey.UniqueIn schema := rfl
  refine ⟨by simp [hkeys], by simp [hkeys], by decide, hcode, hends, ?_⟩
  decide +kernel

end Journey

end XmlPublishing

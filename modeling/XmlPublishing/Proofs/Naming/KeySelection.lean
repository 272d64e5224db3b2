import XmlPublishing.Proofs.Agreement
import XmlPublishing.Proofs.Naming.DistinctNames

/-!
Selecting a foreign key does not depend on how the choice is written down.

Sets of field names are canonical: two lists of names make one set exactly when they name the same
fields (`FieldSet.ofNames_eq_iff`). So the keys that are meant are those whose source fields are
named (`matchingKeys_eq`), the outcome only says how many of them there are, and it stays what it is
when the candidates, their pairs or the names come in another order, and when names are repeated or
written in other letters (`selectKey_settled`).
-/

namespace XmlPublishing

/-- The two lists name the same fields, regardless of order, repetition and the case of ASCII
letters. -/
structure SameFields (names names' : List String) : Prop where
  left : ∀ name ∈ names, ∃ name' ∈ names', Text.Alike name name'
  right : ∀ name' ∈ names', ∃ name ∈ names, Text.Alike name name'

theorem sameFields_iff {names names' : List String} : SameFields names names' ↔
    (∀ name ∈ names, ∃ name' ∈ names', Text.Alike name name') ∧
      ∀ name' ∈ names', ∃ name ∈ names, Text.Alike name name' :=
  ⟨fun h => ⟨h.left, h.right⟩, fun h => ⟨h.1, h.2⟩⟩

instance (names names' : List String) : Decidable (SameFields names names') :=
  decidable_of_iff _ sameFields_iff.symm

theorem FieldSet.ofNames_eq_iff {names names' : List String} :
    ofNames names = ofNames names' ↔ SameFields names names' := by
  constructor
  · intro h
    refine ⟨fun name hname => exists_alike_of_ofNames_eq h hname, fun name' hname' => ?_⟩
    obtain ⟨name, hname, halike⟩ := exists_alike_of_ofNames_eq h.symm hname'
    exact ⟨name, hname, halike.symm⟩
  · intro h
    refine congrArg FieldSet.mk (NameSet.ext fun x => ?_)
    rw [NameSet.mem_ofList, NameSet.mem_ofList, List.mem_map, List.mem_map]
    constructor
    · rintro ⟨name, hname, rfl⟩
      obtain ⟨name', hname', halike⟩ := h.left name hname
      exact ⟨name', hname', halike.symm⟩
    · rintro ⟨name', hname', rfl⟩
      obtain ⟨name, hname, halike⟩ := h.right name' hname'
      exact ⟨name, hname, halike⟩

/-- The keys that are meant: all candidates, or those with exactly the named source fields. -/
def meantKeys (candidates : List ForeignKey) : Option (List String) → List ForeignKey
  | some names => candidates.filter fun k => SameFields k.sourceFields names
  | none => candidates

variable {candidates candidates' : List ForeignKey} {fields : Option FieldSet}
  {names names' : Option (List String)} {child parent : RelationId} {k k' : ForeignKey}

theorem matchingKeys_eq (candidates : List ForeignKey) (names : Option (List String)) :
    matchingKeys candidates (names.map .ofNames) = meantKeys candidates names := by
  cases names with
  | none => rfl
  | some names =>
    refine List.filter_congr fun k _ => ?_
    rw [decide_eq_decide]
    exact FieldSet.ofNames_eq_iff

/-! ## How many keys are left -/

/-- The outcome when `ks` are the keys that are left. -/
def outcomeOf (ks : List ForeignKey) (fields : Option FieldSet) (child parent : RelationId) :
    Except PublishError ForeignKey :=
  match ks with
  | [k] => .ok k
  | [] => .error (.noSuchForeignKey child parent fields)
  | ks => .error (.ambiguousForeignKey child parent (match fields with
    | some fields => .severalWithFields ks.length fields
    | none => .several ks.length))

theorem selectKey_eq_outcomeOf (candidates : List ForeignKey) (fields : Option FieldSet)
    (child parent : RelationId) : selectKey candidates fields child parent =
      outcomeOf (matchingKeys candidates fields) fields child parent := rfl

variable {ks ks' : List ForeignKey}

theorem outcomeOf_eq_missing :
    outcomeOf ks fields child parent = .error (.noSuchForeignKey child parent fields) ↔
      ks = [] := by
  match ks with
  | [] => exact iff_of_true rfl rfl
  | [k] => exact iff_of_false nofun nofun
  | _ :: _ :: _ => exact iff_of_false nofun nofun

theorem outcomeOf_eq_ambiguous :
    (∃ reason, outcomeOf ks fields child parent =
        .error (.ambiguousForeignKey child parent reason)) ↔ 1 < ks.length := by
  match ks with
  | [] => exact iff_of_false nofun (Nat.not_lt_zero 1)
  | [k] => exact iff_of_false nofun (Nat.lt_irrefl 1)
  | _ :: _ :: rest => exact iff_of_true ⟨_, rfl⟩ (Nat.succ_lt_succ (Nat.succ_pos rest.length))

/-- Keys that are related one by one give related keys, or the same error. -/
theorem outcomeOf_agree {R : ForeignKey → ForeignKey → Prop} (h : List.Forall₂ R ks ks') :
    Agree Eq R (outcomeOf ks fields child parent) (outcomeOf ks' fields child parent) := by
  cases h with
  | nil => exact .error rfl
  | cons hk hrest =>
    cases hrest with
    | nil => exact .ok hk
    | cons _ hrest =>
      refine .error ?_
      simp only [List.length_cons, hrest.length_eq]

theorem outcomeOf_perm (h : ks.Perm ks') :
    outcomeOf ks fields child parent = outcomeOf ks' fields child parent := by
  match ks, ks', h.length_eq with
  | [], [], _ => rfl
  | [k], [k'], _ => rw [List.perm_singleton.1 h]
  | _ :: _ :: _, _ :: _ :: _, hlength => simp only [outcomeOf, hlength]

/-! ## Other ways to write the choice -/

/-- The same key with its pairs in any order. -/
structure ForeignKey.Reordered (k k' : ForeignKey) : Prop where
  source : k.source = k'.source
  target : k.target = k'.target
  pairs : k.pairs.Perm k'.pairs

/-- The same keys in any order, each with its pairs in any order. -/
def Rearranged (ks ks' : List ForeignKey) : Prop :=
  ∃ mid, ks.Perm mid ∧ List.Forall₂ ForeignKey.Reordered mid ks'

theorem ForeignKey.Reordered.sameFields_iff (h : k.Reordered k') (names : List String) :
    SameFields k.sourceFields names ↔ SameFields k'.sourceFields names := by
  have hmem (name : String) : name ∈ k.sourceFields ↔ name ∈ k'.sourceFields :=
    (h.pairs.map _).mem_iff
  simp only [XmlPublishing.sameFields_iff, hmem]

theorem meantKeys_perm (h : ks.Perm ks') (names : Option (List String)) :
    (meantKeys ks names).Perm (meantKeys ks' names) := by
  cases names with
  | none => exact h
  | some names => exact h.filter _

theorem meantKeys_reordered (h : List.Forall₂ ForeignKey.Reordered ks ks')
    (names : Option (List String)) :
    List.Forall₂ ForeignKey.Reordered (meantKeys ks names) (meantKeys ks' names) := by
  cases names with
  | none => exact h
  | some names =>
    refine List.rel_filter (fun k k' hk => ?_) h
    simp only [decide_eq_true_eq, hk.sameFields_iff names]

theorem map_ofNames_eq (h : Option.Rel SameFields names names') :
    names.map FieldSet.ofNames = names'.map FieldSet.ofNames := by
  cases h with
  | none => rfl
  | some hnames => exact congrArg some (FieldSet.ofNames_eq_iff.2 hnames)

/-- The only key that is meant is selected; the selection fails with one error where no key is
meant, and with another one where several are. Written in any other way, the same choice has the
same outcome: the same key, with its pairs in the order that they have there, or the same error. -/
theorem selectKey_settled (candidates : List ForeignKey) (names : Option (List String))
    (child parent : RelationId) :
    let outcome := selectKey candidates (names.map .ofNames) child parent
    let meant := meantKeys candidates names
    (∀ k, outcome = .ok k ↔ meant = [k]) ∧
    (outcome = .error (.noSuchForeignKey child parent (names.map .ofNames)) ↔ meant = []) ∧
    ((∃ reason, outcome = .error (.ambiguousForeignKey child parent reason)) ↔
      1 < meant.length) ∧
    ∀ candidates' names', Rearranged candidates candidates' → Option.Rel SameFields names names' →
      Agree Eq ForeignKey.Reordered outcome
        (selectKey candidates' (names'.map .ofNames) child parent) := by
  simp only [← matchingKeys_eq, selectKey_eq_outcomeOf]
  refine ⟨fun k => selectKey_eq_ok, outcomeOf_eq_missing, outcomeOf_eq_ambiguous, ?_⟩
  rintro candidates' names' ⟨mid, hperm, hreordered⟩ hnames
  rw [← map_ofNames_eq hnames, matchingKeys_eq, matchingKeys_eq,
    outcomeOf_perm (meantKeys_perm hperm names)]
  exact outcomeOf_agree (meantKeys_reordered hreordered names)

namespace Journey

/-- The key of the ends, with its pairs the other way round. -/
def endsKeyBackwards : ForeignKey := ⟨trip, leg, [("to", "stop"), ("from", "start")]⟩

theorem endsKey_selected :
    Rearranged [codeKey, endsKey, nextKey] [nextKey, codeKey, endsKeyBackwards] ∧
      Option.Rel SameFields (some ["from", "to"]) (some ["TO", "From", "to"]) ∧
      ∃ k, selectKey [nextKey, codeKey, endsKeyBackwards] (some (.ofNames ["TO", "From", "to"]))
        trip leg = .ok k ∧ endsKey.Reordered k := by
  have hself (k : ForeignKey) : k.Reordered k := ⟨rfl, rfl, .refl _⟩
  have hback : endsKey.Reordered endsKeyBackwards := ⟨rfl, rfl, by decide⟩
  have hrearranged : Rearranged [codeKey, endsKey, nextKey] [nextKey, codeKey, endsKeyBackwards] :=
    ⟨[nextKey, codeKey, endsKey], by decide,
      .cons (hself nextKey) (.cons (hself codeKey) (.cons hback .nil))⟩
  have hnames : Option.Rel SameFields (some ["from", "to"]) (some ["TO", "From", "to"]) :=
    .some (by decide)
  obtain ⟨hok, -, -, hsame⟩ :=
    selectKey_settled [codeKey, endsKey, nextKey] (some ["from", "to"]) trip leg
  have hagree := hsame _ _ hrearranged hnames
  rw [(hok endsKey).2 (by decide)] at hagree
  exact ⟨hrearranged, hnames, hagree.exists_eq_ok⟩

end Journey

end XmlPublishing

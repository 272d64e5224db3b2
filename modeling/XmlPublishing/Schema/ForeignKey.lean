import XmlPublishing.NameSet
import XmlPublishing.Schema.RelationId

/-!
Foreign keys: directed edges from a child relation (the source) to a parent (the target).

`==` on keys compares source, target and the set of source fields. The target fields and the
order of the pairs matter only where a join condition is written.
-/

namespace XmlPublishing

/-- A set of field names, regardless of order, repetition and the case of ASCII letters. -/
structure FieldSet where
  names : NameSet
deriving DecidableEq

namespace FieldSet

def ofNames (names : List String) : FieldSet := ⟨.ofList (names.map Text.foldAscii)⟩

def toList (s : FieldSet) : List String := s.names.toList

/-- The set as it is written in messages. -/
def text (s : FieldSet) : String := "\x7b" ++ ", ".intercalate s.toList ++ "\x7d"

/-- Compares two sets as ascending lists. -/
def compare (a b : FieldSet) : Ordering := compareOfLessAndEq a.toList b.toList

end FieldSet

/-- A foreign key, with its pairs of a source field and a target field in declaration order. -/
structure ForeignKey where
  source : RelationId
  target : RelationId
  pairs : List (String × String)
deriving DecidableEq

namespace ForeignKey

def sourceFields (k : ForeignKey) : List String := k.pairs.map (·.1)

def targetFields (k : ForeignKey) : List String := k.pairs.map (·.2)

/-- The set of source fields, by which keys between the same relations are told apart. -/
def sourceSet (k : ForeignKey) : FieldSet := .ofNames k.sourceFields

/-- What identifies a key. -/
def identity (k : ForeignKey) : (Option String × String) × (Option String × String) × FieldSet :=
  (k.source.folded, k.target.folded, k.sourceSet)

instance : BEq ForeignKey := ⟨fun a b => a.identity = b.identity⟩

theorem beq_iff {a b : ForeignKey} : a == b ↔ a.identity = b.identity := decide_eq_true_iff

instance : EquivBEq ForeignKey where
  rfl := beq_iff.2 rfl
  symm h := beq_iff.2 (beq_iff.1 h).symm
  trans h h' := beq_iff.2 ((beq_iff.1 h).trans (beq_iff.1 h'))

/-- The key as it is written in messages. -/
def text (k : ForeignKey) : String :=
  k.source.text ++ "(" ++ ", ".intercalate k.sourceFields ++ ") -> " ++
    k.target.text ++ "(" ++ ", ".intercalate k.targetFields ++ ")"

end ForeignKey

end XmlPublishing

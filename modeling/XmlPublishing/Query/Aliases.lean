import XmlPublishing.FreshName
import XmlPublishing.NameSet
import XmlPublishing.Schema.RelationId
import XmlPublishing.Text.Initials

/-!
Table aliases of correlated subqueries.

`Aliases` are those visible at one point of a query. Every subquery goes on with the aliases of
the place where it stands, so that subqueries side by side may use the same alias while a nested
one never hides an outer one.
-/

namespace XmlPublishing

/-- The aliases in use at one point of a query. -/
structure Aliases where
  inUse : NameSet
deriving DecidableEq

namespace Aliases

/-- Keywords that initials could spell. -/
def reservedWords : List String :=
  ["all", "and", "any", "as", "asc", "at", "by", "do", "end", "for", "if", "in", "is", "key",
   "no", "not", "of", "on", "or", "set", "to"]

/-- No aliases, as before the outermost query. -/
def empty : Aliases := ⟨∅⟩

def contains (s : Aliases) (name : String) : Bool := name ∈ s.inUse

/-- Whether `name` may be given to a relation. -/
def isFree (s : Aliases) (name : String) : Bool :=
  name ∉ s.inUse && Text.foldAscii name ∉ reservedWords

def add (s : Aliases) (name : String) : Aliases := ⟨s.inUse.insert name⟩

/-- The initials of a relation's name, numbered from one when they are not free. -/
def fresh (s : Aliases) (r : RelationId) : String :=
  freshName s.isFree (Text.initials r.name) 1 (s.inUse.size + reservedWords.length)

def introduce (s : Aliases) (r : RelationId) : String × Aliases := (s.fresh r, s.add (s.fresh r))

/-- Introduces the given alias as it is, or else a fresh one. -/
def introduceAs (s : Aliases) (name? : Option String) (r : RelationId) : String × Aliases :=
  match name? with
  | some name => (name, s.add name)
  | none => s.introduce r

end Aliases

end XmlPublishing

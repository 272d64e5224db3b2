import XmlPublishing.Text.Case
import XmlPublishing.Text.Split

/-!
Names of relations, and how a database folds the identifiers that users write.

`==` on relation ids ignores the case of ASCII letters: it is the identity by which relations are
found. `=` is literal. An id without a schema part differs from every id with one.
-/

namespace XmlPublishing

/-- How the database folds identifiers that are not quoted. -/
inductive CaseSensitivity where
  | upper
  | lower
  | preserve
deriving DecidableEq

/-- What stands between the double quotes of a quoted identifier. -/
def unquoted? (ident : String) : Option String :=
  match ident.toList with
  | '"' :: rest =>
    if rest.getLast? = some '"' then some (String.ofList rest.dropLast) else none
  | _ => none

/-- The identifier as the database stores it: a quoted one literally, another one folded. -/
def CaseSensitivity.stored (c : CaseSensitivity) (ident : String) : String :=
  match unquoted? ident with
  | some literal => literal
  | none => match c with
    | .upper => Text.upper ident
    | .lower => Text.lower ident
    | .preserve => ident

/-- The name of a relation, with the schema that holds it. -/
structure RelationId where
  schema : Option String
  name : String
deriving DecidableEq

namespace RelationId

/-- Both parts with ASCII letters made small. -/
def folded (r : RelationId) : Option String × String :=
  (r.schema.map Text.foldAscii, Text.foldAscii r.name)

instance : BEq RelationId := ⟨fun a b => a.folded = b.folded⟩

theorem beq_iff {a b : RelationId} : a == b ↔ a.folded = b.folded := decide_eq_true_iff

instance : EquivBEq RelationId where
  rfl := beq_iff.2 rfl
  symm h := beq_iff.2 (beq_iff.1 h).symm
  trans h h' := beq_iff.2 ((beq_iff.1 h).trans (beq_iff.1 h'))

/-- Reads `schema.name` or `name`; the last full stop is the one that separates. -/
def parse (text : String) : RelationId :=
  match Text.splitLast? '.' text.toList with
  | some (schema, name) => ⟨some (String.ofList schema), String.ofList name⟩
  | none => ⟨none, text⟩

/-- The id as it is written in queries and messages. -/
def text (r : RelationId) : String :=
  match r.schema with
  | some schema => schema ++ "." ++ r.name
  | none => r.name

/-- Both parts as the database stores them. -/
def stored (r : RelationId) (c : CaseSensitivity) : RelationId :=
  ⟨r.schema.map c.stored, c.stored r.name⟩

/-- The two ids agree but for their schemas. -/
def SameName (a b : RelationId) : Prop := Text.Alike a.name b.name

instance (a b : RelationId) : Decidable (SameName a b) :=
  inferInstanceAs (Decidable (Text.Alike a.name b.name))

end RelationId

end XmlPublishing

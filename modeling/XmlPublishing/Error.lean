import XmlPublishing.Schema.ForeignKey

/-!
What can go wrong when layouts are edited and queries or schema documents are made from them.
Errors are causes; `PublishError.message` gives their wording.
-/

namespace XmlPublishing

/-- Something needed was not supplied, or does not fit. -/
inductive ConfigurationError where
  | defaultsWithoutSchema
  | publisherWithoutSchema
  | subtreeMismatch (expected found : RelationId)
deriving DecidableEq

def ConfigurationError.message : ConfigurationError → String
  | .defaultsWithoutSchema => "output spec factory requires a schema graph"
  | .publisherWithoutSchema => "query compiler requires a schema graph"
  | .subtreeMismatch expected found =>
    "subtree for " ++ expected.text ++ " describes relation " ++ found.text

/-- Why it is not clear which foreign key, or which of two elements, is meant. -/
inductive Ambiguity where
  | fieldsNotGiven
  | severalWithFields (count : Nat) (fields : FieldSet)
  | several (count : Nat)
  | nameInUse (name row : String)
deriving DecidableEq

def Ambiguity.message : Ambiguity → String
  | .fieldsNotGiven => "element name needs qualification but no foreign key fields were given"
  | .severalWithFields count fields =>
    toString count ++ " foreign keys use source fields " ++ fields.text
  | .several count =>
    toString count ++ " foreign keys exist, source fields are needed to choose one"
  | .nameInUse name row => "element name '" ++ name ++ "' is already used inside '" ++ row ++ "'"

/-- Why a text is not a sort order. -/
inductive SortOrderError where
  | emptyTerm (text : String)
  | unknownDirection (word field : String)
  | unexpectedWord (word field : String)
deriving DecidableEq

def SortOrderError.message : SortOrderError → String
  | .emptyTerm text => "empty term in '" ++ text ++ "'"
  | .unknownDirection word field => "unknown direction '" ++ word ++ "' for field '" ++ field ++ "'"
  | .unexpectedWord word field => "unexpected '" ++ word ++ "' after field '" ++ field ++ "'"

/-- An error of publishing. A rendering error keeps only the message of the backend. -/
inductive PublishError where
  | configuration (error : ConfigurationError)
  | ambiguousForeignKey (child parent : RelationId) (reason : Ambiguity)
  | noSuchForeignKey (child parent : RelationId) (fields : Option FieldSet)
  | unknownRelation (id : RelationId)
  | noSuchField (relation : RelationId) (field : String)
  | invalidSortOrder (error : SortOrderError)
  | rendering (message : String)
deriving DecidableEq

def PublishError.message : PublishError → String
  | .configuration error => "configuration error: " ++ error.message
  | .ambiguousForeignKey child parent reason =>
    "ambiguous foreign key from " ++ child.text ++ " to " ++ parent.text ++ ": " ++ reason.message
  | .noSuchForeignKey child parent fields =>
    "no foreign key from " ++ child.text ++ " to " ++ parent.text ++
      (match fields with
        | some fields => " with source fields " ++ fields.text
        | none => "")
  | .unknownRelation id => "relation " ++ id.text ++ " not found in schema"
  | .noSuchField relation field => "relation " ++ relation.text ++ " has no field named " ++ field
  | .invalidSortOrder error => "invalid row ordering: " ++ error.message
  | .rendering message => "rendering failed: " ++ message

end XmlPublishing

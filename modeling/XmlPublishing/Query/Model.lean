/-!
Flat models of queries, as backends read them: texts, flags and lists of texts under keys. Keys
keep the order in which they were first inserted. Embedded queries arrive as finished text.
-/

namespace XmlPublishing

inductive ValueKind where
  | text
  | flag
  | list
deriving DecidableEq

def ValueKind.phrase : ValueKind → String
  | .text => "a string"
  | .flag => "a boolean"
  | .list => "a list"

inductive ModelValue where
  | text (s : String)
  | flag (b : Bool)
  | list (items : List String)
deriving DecidableEq

def ModelValue.kind : ModelValue → ValueKind
  | .text _ => .text
  | .flag _ => .flag
  | .list _ => .list

/-- Why a model could not be rendered; a backend may have reasons of its own. -/
inductive BackendError where
  | missingKey (key : String)
  | wrongType (key : String) (expected found : ValueKind)
  | failed (message : String)
deriving DecidableEq

def BackendError.message : BackendError → String
  | .missingKey key => "model has no '" ++ key ++ "' entry"
  | .wrongType key expected found =>
    "model entry '" ++ key ++ "' should be " ++ expected.phrase ++ ", found " ++ found.phrase
  | .failed message => message

/-- The entries of a model, in order. -/
structure QueryModel where
  entries : List (String × ModelValue)
deriving DecidableEq

namespace QueryModel

def empty : QueryModel := ⟨[]⟩

/-- Replaces the value of `key` at its place, or adds an entry at the end. -/
def insertEntry (key : String) (value : ModelValue) :
    List (String × ModelValue) → List (String × ModelValue)
  | [] => [(key, value)]
  | (k, v) :: rest => if k = key then (k, value) :: rest else (k, v) :: insertEntry key value rest

def insert (m : QueryModel) (key : String) (value : ModelValue) : QueryModel :=
  ⟨insertEntry key value m.entries⟩

def insert? (m : QueryModel) (key : String) : Option ModelValue → QueryModel
  | some value => m.insert key value
  | none => m

def get? (m : QueryModel) (key : String) : Option ModelValue := m.entries.lookup key

def contains (m : QueryModel) (key : String) : Bool := (m.get? key).isSome

def keys (m : QueryModel) : List String := m.entries.map (·.1)

/-- The value under `key`, which must be there. -/
def get (m : QueryModel) (key : String) : Except BackendError ModelValue :=
  match m.get? key with
  | some v => .ok v
  | none => .error (.missingKey key)

def text (m : QueryModel) (key : String) : Except BackendError String := do
  match ← m.get key with
  | .text s => .ok s
  | v => .error (.wrongType key .text v.kind)

/-- The text under `key`, if the key is there. -/
def text? (m : QueryModel) (key : String) : Except BackendError (Option String) :=
  match m.get? key with
  | none => .ok none
  | some (.text s) => .ok (some s)
  | some v => .error (.wrongType key .text v.kind)

def flag (m : QueryModel) (key : String) : Except BackendError Bool := do
  match ← m.get key with
  | .flag b => .ok b
  | v => .error (.wrongType key .flag v.kind)

def list (m : QueryModel) (key : String) : Except BackendError (List String) := do
  match ← m.get key with
  | .list items => .ok items
  | v => .error (.wrongType key .list v.kind)

/-! ## Keys -/

/-- The relation, as it is written in a `from` clause. -/
def relationKey : String := "relation"

/-- The alias that the query introduces. -/
def aliasKey : String := "alias"

def selectFieldsKey : String := "selectFields"

/-- The fields that become elements of a row. -/
def xmlFieldsKey : String := "xmlFields"

def rowElementNameKey : String := "rowElementName"

/-- There only for a collection with an element around it. -/
def collectionElementNameKey : String := "collectionElementName"

/-- There only when a namespace is declared. -/
def namespaceKey : String := "namespace"

def parentFragmentsKey : String := "parentFragments"

def childFragmentsKey : String := "childFragments"

def rowsQueryKey : String := "rowsQuery"

/-- There only when rows are restricted. -/
def filterKey : String := "filter"

/-- The sort terms, with aliases. -/
def orderByKey : String := "orderBy"

def largeCharOutputKey : String := "largeCharOutput"

def resultColumnKey : String := "resultColumn"

end QueryModel

/-- The XML column of rows queries. -/
def rowXmlColumn : String := "ROW_XML"

/-- The XML column of collections and forests. -/
def collectionXmlColumn : String := "ROWCOLL_XML"

/-- The shapes of queries: one result row per row, one collection element, or the row elements
without one. -/
inductive QueryShape where
  | rows
  | collection
  | forest
deriving DecidableEq

/-- A backend writes the text of a model for each shape of query. -/
abbrev Backend := QueryShape → QueryModel → Except BackendError String

end XmlPublishing

import XmlPublishing.Error
import XmlPublishing.Text.Split

/-!
Sort orders of rows: terms separated by commas, each a field and perhaps a direction.
-/

namespace XmlPublishing

inductive SortDirection where
  | asc
  | desc
deriving DecidableEq

namespace SortDirection

def keyword : SortDirection → String
  | .asc => "asc"
  | .desc => "desc"

/-- The direction that a word names, in letters of either case. -/
def ofWord? (word : String) : Option SortDirection :=
  if Text.Alike word "asc" then some .asc
  else if Text.Alike word "desc" then some .desc
  else none

end SortDirection

/-- A field to sort by, with its direction. -/
structure SortTerm where
  field : String
  direction : SortDirection
deriving DecidableEq

namespace SortTerm

def text (t : SortTerm) : String := t.field ++ " " ++ t.direction.keyword

/-- Reads the words of one term of `whole`, which is named in errors. -/
def ofWords (whole : String) : List String → Except SortOrderError SortTerm
  | [] => .error (.emptyTerm whole)
  | [field] => .ok ⟨field, .asc⟩
  | field :: word :: rest => match SortDirection.ofWord? word, rest with
    | none, _ => .error (.unknownDirection word field)
    | some direction, [] => .ok ⟨field, direction⟩
    | some _, extra :: _ => .error (.unexpectedWord extra field)

end SortTerm

/-- The terms by which rows are sorted, the first one counting most. -/
structure SortOrder where
  terms : List SortTerm
deriving DecidableEq

namespace SortOrder

def single (field : String) (direction : SortDirection) : SortOrder := ⟨[⟨field, direction⟩]⟩

/-- Sorts rows that are equal so far by a further field. -/
def andThen (o : SortOrder) (field : String) (direction : SortDirection) : SortOrder :=
  ⟨o.terms ++ [⟨field, direction⟩]⟩

/-- Reads terms like `id desc, name`. Without a direction a term is ascending. -/
def parse (text : String) : Except SortOrderError SortOrder :=
  ((Text.splitOn ',' text).mapM fun piece => SortTerm.ofWords text (Text.words piece)).map mk

def text (o : SortOrder) : String := ", ".intercalate (o.terms.map (·.text))

end SortOrder

end XmlPublishing

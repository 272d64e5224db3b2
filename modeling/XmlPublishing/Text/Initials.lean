import XmlPublishing.Text.Case
import XmlPublishing.Text.Split

/-!
Two short forms of names: the initials of one name, and several names joined by hyphens.
-/

namespace XmlPublishing.Text

/-- The words of a name are separated by underscores, hyphens, full stops and spaces. -/
def isNameSeparator (c : Char) : Bool := c = '_' || c = '-' || c = '.' || c = ' '

/-- The first ASCII letter of a word, as a small letter. -/
def initial? (word : List Char) : Option Char := (word.find? Char.isAlpha).map Char.toLower

/-- The initials of the words of `name`, or `t` for a name without letters. -/
def initials (name : String) : String :=
  match (split isNameSeparator name.toList).filterMap initial? with
  | [] => "t"
  | cs => String.ofList cs

/-- The names in small letters, joined by hyphens. -/
def hyphenated (names : List String) : String := "-".intercalate (names.map lower)

end XmlPublishing.Text

/-!
Writing text inside delimiters.

`quoted q` is the rule of SQL identifiers (`q` a double quote) and literals (`q` a single quote):
the delimiter inside the text is written twice. `escapeAttribute` is the rule of XML attributes
between double quotes.
-/

namespace XmlPublishing.Text

/-- The text with every `q` written twice. -/
def double (q : Char) (cs : List Char) : List Char :=
  cs.flatMap fun c => if c = q then [q, q] else [c]

/-- The text between two `q`, with every `q` inside written twice. -/
def quoted (q : Char) (s : String) : String := String.ofList (q :: double q s.toList ++ [q])

/-- How `c` is written in an attribute value. -/
def escapeAttributeChar (c : Char) : List Char :=
  if c = '&' then "&amp;".toList
  else if c = '<' then "&lt;".toList
  else if c = '"' then "&quot;".toList
  else [c]

/-- The text as the content of a double-quoted attribute value. -/
def escapeAttribute (s : String) : String := String.ofList (s.toList.flatMap escapeAttributeChar)

end XmlPublishing.Text

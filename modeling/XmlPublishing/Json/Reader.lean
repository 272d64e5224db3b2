import XmlPublishing.Json.Value

/-!
Reading JSON documents (RFC 8259).

The reader is a machine that takes one character per step. Its stack holds the arrays and objects
that are still open, so nesting costs no recursion and has no limit, and reading `a ++ b` is
reading `a` and going on with `b` (`Reader.run_append`). Blanks are space, tab, line feed and
carriage return. A number ends at the first character that cannot continue it.
-/

namespace XmlPublishing

namespace Json

/-- An open array or object with the parts read so far, last first. -/
inductive Frame where
  | array (items : List Json)
  | object (members : List (Literal × Json)) (key : Literal)

/-- How far a number has been read. -/
inductive NumberPart where
  | minus
  | zero
  | whole
  | point
  | fraction
  | mark
  | sign
  | exponent

/-- Whether a number may end here. -/
def NumberPart.isComplete : NumberPart → Bool
  | .zero | .whole | .fraction | .exponent => true
  | .minus | .point | .mark | .sign => false

/-- The part that `c` continues a number with. -/
def NumberPart.next? (p : NumberPart) (c : Char) : Option NumberPart :=
  match p with
  | .minus => if c = '0' then some .zero else if c.isDigit then some .whole else none
  | .zero => tail
  | .whole => if c.isDigit then some .whole else tail
  | .point | .fraction =>
    if c.isDigit then some .fraction else if p.isComplete then exponent else none
  | .mark =>
    if c = '+' || c = '-' then some .sign else if c.isDigit then some .exponent else none
  | .sign | .exponent => if c.isDigit then some .exponent else none
where
  exponent := if c = 'e' || c = 'E' then some .mark else none
  tail := if c = '.' then some .point else exponent

/-- How far an escape in a string has been read. -/
inductive Escape where
  | outside
  | backslash
  | hex (digits : Nat) (code : Nat)

/-- What a string is read for. -/
inductive StringRole where
  | value
  | key (members : List (Literal × Json))

/-- What the reader is in the middle of. The parts of a string, a number or an object are listed
last first. -/
inductive Mode where
  | value
  | firstItem
  | key (members : List (Literal × Json))
  | colon (members : List (Literal × Json)) (key : Literal)
  | word (rest : List Char) (v : Json)
  | number (part : NumberPart) (chars : List Char)
  | string (role : StringRole) (units : Literal) (escape : Escape)
  | done (v : Json)

/-- The state of the reader; the innermost open array or object comes first. -/
structure Reader where
  stack : List Frame
  mode : Mode

namespace Reader

/-- Blanks between the tokens of a document. -/
def isBlank (c : Char) : Bool := c = ' ' || c = '\t' || c = '\n' || c = '\r'

/-- The character that a one-letter escape stands for. -/
def unescape? (c : Char) : Option Char :=
  match c with
  | '"' => some '"'
  | '\\' => some '\\'
  | '/' => some '/'
  | 'b' => some '\x08'
  | 'f' => some '\x0c'
  | 'n' => some '\n'
  | 'r' => some '\r'
  | 't' => some '\t'
  | _ => none

def hexDigit? (c : Char) : Option Nat :=
  if c.isDigit then some (c.toNat - '0'.toNat)
  else if 'a' ≤ c && c ≤ 'f' then some (c.toNat - 'a'.toNat + 10)
  else if 'A' ≤ c && c ≤ 'F' then some (c.toNat - 'A'.toNat + 10)
  else none

def beginValue (stack : List Frame) (c : Char) : Option Reader :=
  match c with
  | 'n' => some ⟨stack, .word "ull".toList .null⟩
  | 't' => some ⟨stack, .word "rue".toList (.bool true)⟩
  | 'f' => some ⟨stack, .word "alse".toList (.bool false)⟩
  | '"' => some ⟨stack, .string .value [] .outside⟩
  | '[' => some ⟨stack, .firstItem⟩
  | '\x7b' => some ⟨stack, .key []⟩
  | '-' => some ⟨stack, .number .minus ['-']⟩
  | '0' => some ⟨stack, .number .zero ['0']⟩
  | _ => if c.isDigit then some ⟨stack, .number .whole [c]⟩ else none

def afterValue (stack : List Frame) (v : Json) (c : Char) : Option Reader :=
  if isBlank c then some ⟨stack, .done v⟩ else
  match stack, c with
  | .array items :: outer, ',' => some ⟨.array (v :: items) :: outer, .value⟩
  | .array items :: outer, ']' => some ⟨outer, .done (.array (v :: items).reverse)⟩
  | .object members key :: outer, ',' =>
    some ⟨outer, .key ((key, v) :: members)⟩
  | .object members key :: outer, '\x7d' =>
    some ⟨outer, .done (.object ((key, v) :: members).reverse)⟩
  | _, _ => none

def endString (stack : List Frame) (units : Literal) : StringRole → Reader
  | .value => ⟨stack, .done (.string units.reverse)⟩
  | .key members => ⟨stack, .colon members units.reverse⟩

/-- A character inside a string. Control characters must be escaped. -/
def inString (stack : List Frame) (role : StringRole) (units : Literal) (escape : Escape)
    (c : Char) : Option Reader :=
  match escape with
  | .outside =>
    if c = '"' then some (endString stack units role)
    else if c = '\\' then some ⟨stack, .string role units .backslash⟩
    else if c.toNat < 32 then none
    else some ⟨stack, .string role (.char c :: units) .outside⟩
  | .backslash =>
    if c = 'u' then some ⟨stack, .string role units (.hex 3 0)⟩
    else (unescape? c).map fun c => ⟨stack, .string role (.char c :: units) .outside⟩
  | .hex digits code =>
    (hexDigit? c).map fun d => match digits with
      | 0 => ⟨stack, .string role (.code (code * 16 + d) :: units) .outside⟩
      | n + 1 => ⟨stack, .string role units (.hex n (code * 16 + d))⟩

def step (r : Reader) (c : Char) : Option Reader :=
  match r.mode with
  | .value => if isBlank c then some r else beginValue r.stack c
  | .firstItem =>
    if isBlank c then some r
    else if c = ']' then some ⟨r.stack, .done (.array [])⟩
    else beginValue (.array [] :: r.stack) c
  | .key members =>
    if isBlank c then some r
    else if c = '"' then some ⟨r.stack, .string (.key members) [] .outside⟩
    else if c = '\x7d' && members.isEmpty then some ⟨r.stack, .done (.object [])⟩
    else none
  | .colon members key =>
    if isBlank c then some r
    else if c = ':' then some ⟨.object members key :: r.stack, .value⟩
    else none
  | .word [] v => afterValue r.stack v c
  | .word (d :: rest) v => if c = d then some ⟨r.stack, .word rest v⟩ else none
  | .number part chars =>
    match part.next? c with
    | some part => some ⟨r.stack, .number part (c :: chars)⟩
    | none =>
      if part.isComplete then afterValue r.stack (.number (String.ofList chars.reverse)) c
      else none
  | .string role units escape => inString r.stack role units escape c
  | .done v => afterValue r.stack v c

/-- Takes the characters of `cs` in order. -/
def run (r : Reader) (cs : List Char) : Option Reader := cs.foldlM step r

/-- The value read when the document ends here. -/
def finish? (r : Reader) : Option Json :=
  match r.stack, r.mode with
  | [], .done v => some v
  | [], .word [] v => some v
  | [], .number part chars =>
    if part.isComplete then some (.number (String.ofList chars.reverse)) else none
  | _, _ => none

def start : Reader := ⟨[], .value⟩

theorem run_append (r : Reader) (a b : List Char) :
    r.run (a ++ b) = (r.run a).bind (·.run b) := by
  simp [run, List.foldlM_append]

end Reader

/-- The value that a document holds. -/
def parse? (text : String) : Option Json := (Reader.start.run text.toList).bind (·.finish?)

end Json

end XmlPublishing

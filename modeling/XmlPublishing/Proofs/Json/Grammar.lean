import XmlPublishing.Json.Value

/-!
The grammar of JSON documents (RFC 8259), as relations between values and the texts that spell them.

`Spells v cs` leaves a writer all the freedom that the format gives: blanks around every token, and
any mixture of plain characters, short escapes and `\u` escapes in a string. A value records which
of its characters were written as codes, so the relation ties each value to its own spellings only.
Nothing here refers to how documents are read.
-/

namespace XmlPublishing.Json

def blankChars : List Char := [' ', '\t', '\n', '\r']

/-- Blanks that may stand around a token. -/
def IsBlanks (cs : List Char) : Prop := ∀ c ∈ cs, c ∈ blankChars

/-! ## Numbers -/

def IsDigits (cs : List Char) : Prop := cs ≠ [] ∧ ∀ c ∈ cs, c.isDigit

/-- The digits before the point; only the number zero begins with a zero. -/
inductive IsWhole : List Char → Prop where
  | zero : IsWhole ['0']
  | digits {c : Char} {cs : List Char} (hc : c.isDigit) (hzero : c ≠ '0')
      (hcs : ∀ d ∈ cs, d.isDigit) : IsWhole (c :: cs)

inductive IsFraction : List Char → Prop where
  | none : IsFraction []
  | some {cs : List Char} (h : IsDigits cs) : IsFraction ('.' :: cs)

inductive IsExponent : List Char → Prop where
  | none : IsExponent []
  | some {mark : Char} {sign cs : List Char} (hmark : mark ∈ ['e', 'E'])
      (hsign : sign ∈ [[], ['+'], ['-']]) (h : IsDigits cs) : IsExponent (mark :: (sign ++ cs))

inductive IsNumber : List Char → Prop where
  | intro {sign whole fraction exponent : List Char} (hsign : sign ∈ [[], ['-']])
      (hwhole : IsWhole whole) (hfraction : IsFraction fraction)
      (hexponent : IsExponent exponent) : IsNumber (sign ++ (whole ++ (fraction ++ exponent)))

/-! ## Strings -/

/-- A hexadecimal digit and its value. -/
def IsHexDigit (c : Char) (value : Nat) : Prop :=
  "0123456789abcdef".toList[value]? = some c ∨ "0123456789ABCDEF".toList[value]? = some c

/-- The characters with an escape of one letter, each with its letter. -/
def shortEscapes : List (Char × Char) :=
  [('"', '"'), ('\\', '\\'), ('/', '/'), ('\x08', 'b'), ('\x0c', 'f'), ('\n', 'n'), ('\r', 'r'),
    ('\t', 't')]

/-- Ways to write one unit of a string. -/
inductive SpellsUnit : TextUnit → List Char → Prop where
  | plain {c : Char} (hquote : c ≠ '"') (hbackslash : c ≠ '\\') (hcontrol : 32 ≤ c.toNat) :
      SpellsUnit (.char c) [c]
  | short {c letter : Char} (h : (c, letter) ∈ shortEscapes) :
      SpellsUnit (.char c) ['\\', letter]
  | code {c₁ c₂ c₃ c₄ : Char} {d₁ d₂ d₃ d₄ : Nat} (h₁ : IsHexDigit c₁ d₁) (h₂ : IsHexDigit c₂ d₂)
      (h₃ : IsHexDigit c₃ d₃) (h₄ : IsHexDigit c₄ d₄) :
      SpellsUnit (.code (((d₁ * 16 + d₂) * 16 + d₃) * 16 + d₄)) ['\\', 'u', c₁, c₂, c₃, c₄]

inductive SpellsUnits : Literal → List Char → Prop where
  | nil : SpellsUnits [] []
  | cons {u : TextUnit} {us : Literal} {cs rest : List Char} (hu : SpellsUnit u cs)
      (hus : SpellsUnits us rest) : SpellsUnits (u :: us) (cs ++ rest)

/-- Ways to write a string, with the quotes around it. -/
inductive SpellsLiteral : Literal → List Char → Prop where
  | intro {l : Literal} {cs : List Char} (h : SpellsUnits l cs) :
      SpellsLiteral l ('"' :: (cs ++ ['"']))

/-- Ways to write the name of a member, with blanks around it. -/
inductive SpellsKey : Literal → List Char → Prop where
  | intro {l : Literal} {before cs after : List Char} (hbefore : IsBlanks before)
      (h : SpellsLiteral l cs) (hafter : IsBlanks after) : SpellsKey l (before ++ (cs ++ after))

/-! ## Values -/

mutual
/-- Ways to write a value. -/
inductive Spells : Json → List Char → Prop where
  | null : Spells .null "null".toList
  | true : Spells (.bool true) "true".toList
  | false : Spells (.bool false) "false".toList
  | number {cs : List Char} (h : IsNumber cs) : Spells (.number (String.ofList cs)) cs
  | string {l : Literal} {cs : List Char} (h : SpellsLiteral l cs) : Spells (.string l) cs
  | emptyArray {blanks : List Char} (h : IsBlanks blanks) :
      Spells (.array []) ('[' :: (blanks ++ [']']))
  | array {items : List Json} {cs : List Char} (h : SpellsItems items cs) :
      Spells (.array items) ('[' :: (cs ++ [']']))
  | emptyObject {blanks : List Char} (h : IsBlanks blanks) :
      Spells (.object []) ('\x7b' :: (blanks ++ ['\x7d']))
  | object {members : List (Literal × Json)} {cs : List Char} (h : SpellsMembers members cs) :
      Spells (.object members) ('\x7b' :: (cs ++ ['\x7d']))

/-- Ways to write a value with blanks around it; a document is one. -/
inductive SpellsPadded : Json → List Char → Prop where
  | intro {v : Json} {before cs after : List Char} (hbefore : IsBlanks before) (h : Spells v cs)
      (hafter : IsBlanks after) : SpellsPadded v (before ++ (cs ++ after))

/-- Ways to write one or more values with commas between them. -/
inductive SpellsItems : List Json → List Char → Prop where
  | one {v : Json} {cs : List Char} (h : SpellsPadded v cs) : SpellsItems [v] cs
  | more {v : Json} {vs : List Json} {cs rest : List Char} (h : SpellsPadded v cs)
      (hrest : SpellsItems vs rest) : SpellsItems (v :: vs) (cs ++ ',' :: rest)

/-- Ways to write one or more members with commas between them. -/
inductive SpellsMembers : List (Literal × Json) → List Char → Prop where
  | one {key : Literal} {v : Json} {name cs : List Char} (hkey : SpellsKey key name)
      (h : SpellsPadded v cs) : SpellsMembers [(key, v)] (name ++ ':' :: cs)
  | more {key : Literal} {v : Json} {members : List (Literal × Json)} {name cs rest : List Char}
      (hkey : SpellsKey key name) (h : SpellsPadded v cs) (hrest : SpellsMembers members rest) :
      SpellsMembers ((key, v) :: members) (name ++ ':' :: (cs ++ ',' :: rest))
end

end XmlPublishing.Json

import XmlPublishing.Text.Split

/-!
JSON values as a document spells them.

A value keeps what a reader of the document may still want to reject: string literals keep their
`\u` escapes as 16-bit codes, numbers keep their spelling, and objects keep the order and the
repetition of their members. `decode?` gives the text of a literal; it fails exactly where a
surrogate code has no partner.
-/

namespace XmlPublishing

/-- One part of a string literal: a character, or the code of a `\u` escape. -/
inductive TextUnit where
  | char (c : Char)
  | code (u : Nat)
deriving DecidableEq

/-- A string literal, unit by unit. -/
abbrev Literal := List TextUnit

inductive Json where
  | null
  | bool (b : Bool)
  | number (spelling : String)
  | string (literal : Literal)
  | array (items : List Json)
  | object (members : List (Literal × Json))

namespace Literal

/-- The first half of a pair of codes that stands for one character. -/
def isHighSurrogate (u : Nat) : Bool := 0xD800 ≤ u && u < 0xDC00

def isLowSurrogate (u : Nat) : Bool := 0xDC00 ≤ u && u < 0xE000

/-- The character that a pair of surrogates stands for. -/
def joinSurrogates (high low : Nat) : Char :=
  Char.ofNat (0x10000 + (high - 0xD800) * 0x400 + (low - 0xDC00))

/-- Decodes the units that follow `done`, whose characters are listed last first. -/
def decodeAfter? (done : List Char) : Literal → Option String
  | [] => some (String.ofList done.reverse)
  | .char c :: units => decodeAfter? (c :: done) units
  | .code high :: .code low :: units =>
    if isHighSurrogate high then
      if isLowSurrogate low then decodeAfter? (joinSurrogates high low :: done) units else none
    else if isLowSurrogate high then none
    else decodeAfter? (Char.ofNat high :: done) (.code low :: units)
  | .code u :: units =>
    if isHighSurrogate u || isLowSurrogate u then none
    else decodeAfter? (Char.ofNat u :: done) units

/-- The text of a literal, unless a surrogate stands alone. -/
def decode? (l : Literal) : Option String := decodeAfter? [] l

end Literal

end XmlPublishing

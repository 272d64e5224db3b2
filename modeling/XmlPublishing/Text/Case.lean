import XmlPublishing.Text.CaseContext
import XmlPublishing.Text.CaseTable

/-!
Letter case.

`foldAscii` changes ASCII letters only, and `Alike` compares texts up to it: this is how
identifiers are matched. `lower` and `upper` are the full Unicode mappings, which may change the
number of characters: this is how names are made. A capital sigma becomes a final sigma at the
end of a word, so `lower` looks at both sides of it.
-/

namespace XmlPublishing.Text

/-- The text with its ASCII capital letters made small; every other character is kept. -/
def foldAscii (s : String) : String := String.ofList (s.toList.map Char.toLower)

/-- The two texts differ at most in the case of ASCII letters. -/
def Alike (a b : String) : Prop := foldAscii a = foldAscii b

instance (a b : String) : Decidable (Alike a b) :=
  inferInstanceAs (Decidable (foldAscii a = foldAscii b))

/-- Looks `c` up among expansions, then among one-character mappings; other characters stay. -/
def mapCase (expansions : List (Nat × List Nat)) (runs : List CaseRun) (c : Char) : List Char :=
  match expansions.lookup c.toNat with
  | some cs => cs.map Char.ofNat
  | none => match runs.findSome? (·.image? c.toNat) with
    | some n => [Char.ofNat n]
    | none => [c]

/-- The small form of `c` on its own. -/
def lowerChar (c : Char) : List Char :=
  if c.toNat < 128 then [c.toLower] else mapCase smallExpansions smallRuns c

/-- The capital form of `c`. -/
def upperChar (c : Char) : List Char :=
  if c.toNat < 128 then [c.toUpper] else mapCase capitalExpansions capitalRuns c

/-- Whether the first character that is not case-ignorable is cased. -/
def startsCased (cs : List Char) : Bool :=
  match cs.dropWhile isCaseIgnorable with
  | [] => false
  | c :: _ => isCased c

/-- The small form of `cs` after a text; `cased` says whether the last character of that text
that is not case-ignorable is cased. -/
def lowerAfter (cased : Bool) : List Char → List Char
  | [] => []
  | c :: cs =>
    let small := if c = 'Σ' then [if cased && !startsCased cs then 'ς' else 'σ'] else lowerChar c
    small ++ lowerAfter (if isCaseIgnorable c then cased else isCased c) cs

def lower (s : String) : String := String.ofList (lowerAfter false s.toList)

def upper (s : String) : String := String.ofList (s.toList.flatMap upperChar)

theorem Alike.refl (a : String) : Alike a a := rfl

theorem Alike.symm {a b : String} (h : Alike a b) : Alike b a := Eq.symm h

theorem Alike.trans {a b c : String} (h : Alike a b) (h' : Alike b c) : Alike a c := Eq.trans h h'

end XmlPublishing.Text

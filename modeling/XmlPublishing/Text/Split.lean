import XmlPublishing.Text.Blank

/-!
Cutting text into pieces: at every separator (`split`), at the last one (`splitLast?`), into
words and into lines.

`split` never gives an empty list: a text without separators is its only piece. `words` drops the
empty pieces. A line ends at a line feed, a carriage return just before it belongs to the line
end, and what follows the last line feed is a line only when it is not empty.
-/

namespace XmlPublishing.Text

/-- The pieces of `cs` between the characters that `sep` holds for. -/
def split (sep : Char → Bool) (cs : List Char) : List (List Char) :=
  cs.foldr
    (fun c pieces =>
      if sep c then [] :: pieces else match pieces with
        | [] => [[c]]
        | piece :: rest => (c :: piece) :: rest)
    [[]]

theorem split_nil (sep : Char → Bool) : split sep [] = [[]] := rfl

theorem split_cons_of_sep {sep : Char → Bool} {c : Char} (h : sep c = true) (cs : List Char) :
    split sep (c :: cs) = [] :: split sep cs := by
  simp [split, h]

theorem split_cons_of_not_sep {sep : Char → Bool} {c : Char} (h : sep c = false)
    {cs piece : List Char} {pieces : List (List Char)} (hcs : split sep cs = piece :: pieces) :
    split sep (c :: cs) = (c :: piece) :: pieces := by
  rw [split] at hcs ⊢
  rw [List.foldr_cons, hcs, h]
  rfl

theorem split_ne_nil (sep : Char → Bool) (cs : List Char) : split sep cs ≠ [] := by
  cases cs with
  | nil => simp [split]
  | cons c cs =>
    simp only [split, List.foldr_cons]
    split
    · simp
    · split <;> simp

/-- The pieces of `s` between the occurrences of `c`. -/
def splitOn (c : Char) (s : String) : List String := (split (· == c) s.toList).map String.ofList

/-- What stands before and after the last occurrence of `d`. -/
def splitLast? (d : Char) : List Char → Option (List Char × List Char)
  | [] => none
  | c :: cs => match splitLast? d cs with
    | some (before, after) => some (c :: before, after)
    | none => if c = d then some ([], cs) else none

/-- The runs of characters between blanks. -/
def words (s : String) : List String :=
  ((split isBlank s.toList).filter (!·.isEmpty)).map String.ofList

/-- The text without a carriage return at its end. -/
def dropReturn (cs : List Char) : List Char :=
  if cs.getLast? = some '\r' then cs.dropLast else cs

def lines (s : String) : List String :=
  let pieces := split (· == '\n') s.toList
  let ended := pieces.dropLast.map dropReturn
  let rest := pieces.getLast?.toList.filter (!·.isEmpty)
  (ended ++ rest).map String.ofList

end XmlPublishing.Text

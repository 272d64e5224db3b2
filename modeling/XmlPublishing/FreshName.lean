/-!
Names that are not taken yet: a base name, or the base name with the least free number after it.
-/

namespace XmlPublishing

/-- The name `base` if it is free, and otherwise `base` followed by the least number from `start`
on that makes it free. At most `taken` of the numbered names are not free, so one of the first
`taken + 1` is. -/
def freshName (isFree : String → Bool) (base : String) (start taken : Nat) : String :=
  if isFree base then base else
  match (List.range' start taken).find? fun k => isFree (base ++ toString k) with
  | some k => base ++ toString k
  | none => base ++ toString (start + taken)

end XmlPublishing

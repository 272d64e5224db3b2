import XmlPublishing.Json.Value

/-!
Reading typed data off JSON values.

A record is written as an object, in which members that the record does not have are ignored and
its own ones stand at most once, or as the array of its members in order, which may stop early.
Either way `members?` gives, for each name, the value written for it. Nothing is converted: a
number is not a string, and `null` stands only for a missing optional value.
-/

namespace XmlPublishing

namespace Json

def string? : Json → Option String
  | .string literal => literal.decode?
  | _ => none

def bool? : Json → Option Bool
  | .bool b => some b
  | _ => none

/-- A whole number up to `limit`, spelled with digits only. -/
def nat? (limit : Nat) : Json → Option Nat
  | .number spelling =>
    if spelling.toList.all Char.isDigit then
      let n := spelling.toList.foldl (fun n c => 10 * n + (c.toNat - '0'.toNat)) 0
      if n ≤ limit then some n else none
    else none
  | _ => none

def nullable? (read : Json → Option α) : Json → Option (Option α)
  | .null => some none
  | j => (read j).map some

def list? (read : Json → Option α) : Json → Option (List α)
  | .array items => items.mapM read
  | _ => none

/-- One of several words, written as a string or as the only key of an object, with `null`. -/
def choice? (options : List (String × α)) : Json → Option α
  | .string literal => literal.decode?.bind fun word => options.lookup word
  | .object [(key, .null)] => key.decode?.bind fun word => options.lookup word
  | _ => none

/-- The value of the only member called `name`, if there is one; fails when there are several. -/
def member? (members : List (String × Json)) (name : String) : Option (Option Json) :=
  match members.filter (·.1 == name) with
  | [] => some none
  | [(_, v)] => some (some v)
  | _ => none

/-- What a record with the given member names says of each of them. -/
def members? (names : List String) : Json → Option (List (Option Json))
  | .array items =>
    if items.length ≤ names.length then
      some (items.map some ++ List.replicate (names.length - items.length) none)
    else none
  | .object members => do
    let members ← members.mapM fun (key, v) => key.decode?.map fun key => (key, v)
    names.mapM (member? members)
  | _ => none

def required (read : Json → Option α) : Option Json → Option α
  | some j => read j
  | none => none

/-- A member that stands for `default` where it is missing. -/
def optional (default : α) (read : Json → Option α) : Option Json → Option α
  | some j => read j
  | none => some default

end Json

end XmlPublishing

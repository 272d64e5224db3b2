import XmlPublishing.Text.Case
import XmlPublishing.Text.Blank

/-!
XML Schema's built-in types, and the one for each database type.
-/

namespace XmlPublishing.Xsd

inductive BuiltinType where
  | string
  | integer
  | decimal
  | double
  | boolean
  | date
  | dateTime
  | time
  | base64Binary
deriving DecidableEq

def BuiltinType.name : BuiltinType → String
  | .string => "xs:string"
  | .integer => "xs:integer"
  | .decimal => "xs:decimal"
  | .double => "xs:double"
  | .boolean => "xs:boolean"
  | .date => "xs:date"
  | .dateTime => "xs:dateTime"
  | .time => "xs:time"
  | .base64Binary => "xs:base64Binary"

/-- The name of a database type without its parameters, in small letters. -/
def baseTypeName (dbType : String) : String :=
  Text.foldAscii (Text.trim (String.ofList (dbType.toList.takeWhile (· != '('))))

/-- The built-in type for the base name of a database type; unknown ones are strings. -/
def BuiltinType.ofBaseName (base : String) : BuiltinType :=
  if base ∈ ["integer", "int", "int2", "int4", "int8", "smallint", "bigint", "tinyint", "serial",
      "bigserial"] then .integer
  else if base ∈ ["numeric", "decimal", "number", "money"] then .decimal
  else if base ∈ ["real", "float", "float4", "float8", "double", "double precision"] then .double
  else if base ∈ ["boolean", "bool", "bit"] then .boolean
  else if base = "date" then .date
  else if base = "datetime" then .dateTime
  else if "timestamp".toList.isPrefixOf base.toList then .dateTime
  else if "time".toList.isPrefixOf base.toList then .time
  else if base ∈ ["bytea", "blob", "binary", "varbinary", "raw"] then .base64Binary
  else .string

/-- The built-in type for a database type, when that is known. -/
def BuiltinType.ofDbType : Option String → BuiltinType
  | some dbType => .ofBaseName (baseTypeName dbType)
  | none => .string

end XmlPublishing.Xsd

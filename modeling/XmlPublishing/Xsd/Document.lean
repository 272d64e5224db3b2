import XmlPublishing.Text.Quoted

/-!
XML Schema documents of the form that this library writes: global elements, and complex types that
are sequences of elements. `Document.text` is the only place where they become text.
-/

namespace XmlPublishing.Xsd

structure ElementDecl where
  name : String
  typeName : String
  optional : Bool := false
  unbounded : Bool := false
deriving DecidableEq

/-- A type whose content is a sequence of elements. -/
structure ComplexType where
  name : String
  elements : List ElementDecl
deriving DecidableEq

structure Document where
  targetNs : Option String
  roots : List ElementDecl
  types : List ComplexType
deriving DecidableEq

/-- The namespace of XML Schema itself. -/
def xmlSchemaNs : String := "http://www.w3.org/2001/XMLSchema"

/-- An attribute with a blank before it. -/
def attributeText (name value : String) : String :=
  " " ++ name ++ "=\"" ++ Text.escapeAttribute value ++ "\""

def ElementDecl.text (e : ElementDecl) : String :=
  "<xs:element" ++ attributeText "name" e.name ++ attributeText "type" e.typeName ++
    (if e.optional then attributeText "minOccurs" "0" else "") ++
    (if e.unbounded then attributeText "maxOccurs" "unbounded" else "") ++ "/>"

/-- The lines of a type definition, one unit further in than the document. -/
def ComplexType.lines (unit : String) (t : ComplexType) : List String :=
  (unit ++ "<xs:complexType" ++ attributeText "name" t.name ++ ">") ::
    (if t.elements = [] then [unit ++ unit ++ "<xs:sequence/>"]
      else (unit ++ unit ++ "<xs:sequence>") ::
        t.elements.map (fun e => unit ++ unit ++ unit ++ e.text) ++
        [unit ++ unit ++ "</xs:sequence>"]) ++
    [unit ++ "</xs:complexType>"]

def Document.lines (unit : String) (d : Document) : List String :=
  ["<?xml version=\"1.0\" encoding=\"UTF-8\"?>",
    "<xs:schema" ++ attributeText "xmlns:xs" xmlSchemaNs ++
      (match d.targetNs with
        | some ns => attributeText "targetNamespace" ns ++ attributeText "xmlns" ns
        | none => "") ++
      attributeText "elementFormDefault" "qualified" ++ ">"] ++
    d.roots.map (fun e => unit ++ e.text) ++
    d.types.flatMap (·.lines unit) ++
    ["</xs:schema>"]

/-- The text of a document, with `indent` spaces per level. Every line is ended. -/
def Document.text (indent : Nat) (d : Document) : String :=
  String.join ((d.lines (String.ofList (List.replicate indent ' '))).map (· ++ "\n"))

end XmlPublishing.Xsd

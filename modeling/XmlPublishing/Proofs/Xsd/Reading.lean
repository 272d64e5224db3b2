import XmlPublishing.Proofs.Sequence
import XmlPublishing.Proofs.Xsd.Markup
import XmlPublishing.Xsd.OfLayout

/-!
Schema documents read from their text.

`Document.read?` finds the declarations in any text that is an XML document: what its `xs:element`
and `xs:complexType` tags say, in order. The text of a document is read as that document
(`Document.read?_text`), and its tags are exactly those of the global elements and types of the
document (`Document.tags_text`).
-/

namespace XmlPublishing.Xsd

open Xml

/-! ## Declarations from trees -/

def ElementDecl.ofTree? : Tree → Option ElementDecl
  | .element tag attributes _ =>
    if tag = "xs:element" then do
      let name ← attributes.lookup "name"
      let typeName ← attributes.lookup "type"
      return { name, typeName
               optional := attributes.lookup "minOccurs" = some "0"
               unbounded := attributes.lookup "maxOccurs" = some "unbounded" }
    else none

/-- The content of a sequence that stands alone. -/
def sequence? : List Tree → Option (List Tree)
  | [.element tag _ content] => if tag = "xs:sequence" then some content else none
  | _ => none

def ComplexType.ofTree? : Tree → Option ComplexType
  | .element tag attributes content =>
    if tag = "xs:complexType" then do
      let name ← attributes.lookup "name"
      let elements ← (← sequence? content).mapM ElementDecl.ofTree?
      return { name, elements }
    else none

/-- A global element or a type. -/
def declaration? (t : Tree) : Option (ElementDecl ⊕ ComplexType) :=
  (ElementDecl.ofTree? t).map .inl <|> (ComplexType.ofTree? t).map .inr

def Document.ofTree? : Tree → Option Document
  | .element tag attributes content =>
    if tag = "xs:schema" then do
      let declarations ← content.mapM declaration?
      return { targetNs := attributes.lookup "targetNamespace"
               roots := declarations.filterMap Sum.getLeft?
               types := declarations.filterMap Sum.getRight? }
    else none

/-- The schema document that a text is. -/
def Document.read? (s : String) : Option Document := (parse? s).bind Document.ofTree?

/-! ## Trees of declarations -/

def ElementDecl.attributes (e : ElementDecl) : List (String × String) :=
  [("name", e.name), ("type", e.typeName)] ++ (if e.optional then [("minOccurs", "0")] else []) ++
    (if e.unbounded then [("maxOccurs", "unbounded")] else [])

def ElementDecl.tree (e : ElementDecl) : Tree := .element "xs:element" e.attributes []

def ComplexType.tree (t : ComplexType) : Tree :=
  .element "xs:complexType" [("name", t.name)]
    [.element "xs:sequence" [] (t.elements.map ElementDecl.tree)]

def Document.attributes (d : Document) : List (String × String) :=
  ("xmlns:xs", xmlSchemaNs) :: (match d.targetNs with
    | some ns => [("targetNamespace", ns), ("xmlns", ns)]
    | none => []) ++ [("elementFormDefault", "qualified")]

def Document.tree (d : Document) : Tree :=
  .element "xs:schema" d.attributes (d.roots.map ElementDecl.tree ++ d.types.map ComplexType.tree)

theorem ElementDecl.ofTree?_tree (e : ElementDecl) : ofTree? e.tree = some e := by
  obtain ⟨name, typeName, optional, unbounded⟩ := e
  cases optional <;> cases unbounded <;> rfl

theorem mapM_map_eq_some {α β γ : Type} {f : β → Option γ} {g : α → β} {k : α → γ}
    (h : ∀ a, f (g a) = some (k a)) (l : List α) : (l.map g).mapM f = some (l.map k) := by
  have hl : List.Forall₂ (fun a b => b = g a) l (l.map g) :=
    List.forall₂_map_right_iff.2 (List.forall₂_same.2 fun a _ => rfl)
  exact mapM_eq_some_of_forall₂ hl fun a b hb => hb ▸ h a

theorem ComplexType.ofTree?_tree (t : ComplexType) : ofTree? t.tree = some t := by
  have helements : (t.elements.map ElementDecl.tree).mapM ElementDecl.ofTree? =
      some (t.elements.map id) := mapM_map_eq_some ElementDecl.ofTree?_tree t.elements
  rw [List.map_id] at helements
  rw [tree, ofTree?, if_pos rfl, sequence?, if_pos rfl, Option.bind_eq_bind, Option.bind_eq_bind]
  simp only [List.lookup_cons_self, Option.bind_some, Option.bind_eq_bind, helements]
  rfl

theorem declaration?_element (e : ElementDecl) : declaration? e.tree = some (.inl e) := by
  rw [declaration?, ElementDecl.ofTree?_tree]
  rfl

theorem declaration?_type (t : ComplexType) : declaration? t.tree = some (.inr t) := by
  rw [declaration?, ComplexType.ofTree?_tree]
  rfl

theorem Document.ofTree?_tree (d : Document) : ofTree? d.tree = some d := by
  have hroots := mapM_map_eq_some declaration?_element d.roots
  have htypes := mapM_map_eq_some declaration?_type d.types
  have hdeclarations : (d.roots.map ElementDecl.tree ++ d.types.map ComplexType.tree).mapM
      declaration? = some (d.roots.map .inl ++ d.types.map .inr) := by
    rw [List.mapM_append, hroots, htypes]
    rfl
  have hns : d.attributes.lookup "targetNamespace" = d.targetNs := by
    rw [attributes]
    cases d.targetNs <;> rfl
  rw [tree, ofTree?, if_pos rfl, hdeclarations, hns]
  simp [List.filterMap_append, List.filterMap_map, Function.comp_def]

/-! ## Tags of declarations -/

def ElementDecl.tags (e : ElementDecl) : List Tag := [.empty "xs:element" e.attributes]

def ComplexType.tags (t : ComplexType) : List Tag :=
  .opening "xs:complexType" [("name", t.name)] ::
    (if t.elements = [] then [.empty "xs:sequence" []]
      else .opening "xs:sequence" [] :: (t.elements.map ElementDecl.tags).flatten ++
        [.closing "xs:sequence"]) ++ [.closing "xs:complexType"]

def Document.tags (d : Document) : List Tag :=
  .instruction :: (.opening "xs:schema" d.attributes ::
    ((d.roots.map ElementDecl.tags).flatten ++ (d.types.map ComplexType.tags).flatten) ++
      [.closing "xs:schema"])

theorem ElementDecl.nests_tags (e : ElementDecl) : Nests e.tags [e.tree] := .empty _ _

theorem ComplexType.nests_tags (t : ComplexType) : Nests t.tags [t.tree] := by
  have hsequence : Nests
      (if t.elements = [] then [.empty "xs:sequence" []]
        else .opening "xs:sequence" [] :: (t.elements.map ElementDecl.tags).flatten ++
          [.closing "xs:sequence"])
      [.element "xs:sequence" [] (t.elements.map ElementDecl.tree)] := by
    split
    · next hnone =>
      rw [hnone]
      exact .empty _ _
    · exact (Nests.flatten ElementDecl.nests_tags t.elements).element _ _
  exact hsequence.element _ _

theorem Document.nests_tags (d : Document) : Nests d.tags [d.tree] := by
  have hroots := Nests.flatten ElementDecl.nests_tags d.roots
  have htypes := Nests.flatten ComplexType.nests_tags d.types
  exact ((hroots.append htypes).element _ _).instruction

/-! ## Text of declarations -/

section

variable {unit : String}

/-- The lines, each of them ended, are read as these tags. -/
def ReadsLines (lines : List String) (ts : List Tag) : Prop :=
  ReadsAs (String.join (lines.map (· ++ "\n"))) ts

namespace ReadsLines

variable {lines lines' : List String} {ts ts' : List Tag}

theorem append (h : ReadsLines lines ts) (h' : ReadsLines lines' ts') :
    ReadsLines (lines ++ lines') (ts ++ ts') := by
  rw [ReadsLines, List.map_append, String.join_append]
  exact ReadsAs.append h h'

theorem singleton {line : String} (h : ReadsAs (line ++ "\n") ts) : ReadsLines [line] ts := by
  rw [ReadsLines, List.map_singleton, String.join_cons, String.join_nil, String.append_empty]
  exact h

theorem flatMap {α : Type} {f : α → List String} {g : α → List Tag}
    (h : ∀ a, ReadsLines (f a) (g a)) (l : List α) :
    ReadsLines (l.flatMap f) (l.map g).flatten := by
  induction l with
  | nil => exact ReadsAs.nil
  | cons a l ih =>
    rw [List.flatMap_cons]
    exact (h a).append ih

end ReadsLines

theorem ElementDecl.toList_text (e : ElementDecl) :
    e.text.toList = '<' :: ("xs:element".toList ++ written e.attributes ++ ['/'] ++ ['>']) := by
  have hif (b : Prop) [Decidable b] (n v : String) :
      (if b then attributeText n v else "").toList = written (if b then [(n, v)] else []) := by
    split
    · rw [written_cons, written_nil, List.append_nil]
    · rfl
  have htext : e.text = "<xs:element" ++ attributeText "name" e.name ++
      attributeText "type" e.typeName ++
      (if e.optional then attributeText "minOccurs" "0" else "") ++
      (if e.unbounded then attributeText "maxOccurs" "unbounded" else "") ++ "/>" := rfl
  rw [attributes, written_append, written_append, written_cons, written_cons, written_nil,
    ← hif e.optional, ← hif e.unbounded, htext]
  simp only [String.toList_append, List.append_assoc]
  rfl

theorem ElementDecl.isName_attributes (e : ElementDecl) : ∀ a ∈ e.attributes, IsName a.1 := by
  have hnames : ∀ name ∈ ["name", "type", "minOccurs", "maxOccurs"], IsName name := by
    decide +kernel
  have hsub : e.attributes.map (·.1) ⊆ ["name", "type", "minOccurs", "maxOccurs"] := by
    obtain ⟨name, typeName, optional, unbounded⟩ := e
    cases optional <;> cases unbounded <;> simp [attributes]
  exact fun a ha => hnames a.1 (hsub (List.mem_map_of_mem ha))

theorem Document.isName_attributes (d : Document) : ∀ a ∈ d.attributes, IsName a.1 := by
  have hnames : ∀ name ∈ ["xmlns:xs", "targetNamespace", "xmlns", "elementFormDefault"],
      IsName name := by decide +kernel
  have hsub : d.attributes.map (·.1) ⊆
      ["xmlns:xs", "targetNamespace", "xmlns", "elementFormDefault"] := by
    rw [attributes]
    cases d.targetNs <;> simp
  exact fun a ha => hnames a.1 (hsub (List.mem_map_of_mem ha))

variable {unit name line : String}

theorem ElementDecl.readsLines (hunit : '<' ∉ unit.toList) (e : ElementDecl) :
    ReadsLines [unit ++ e.text] e.tags := by
  have hname : IsName "xs:element" := by decide +kernel
  have hfeed : '<' ∉ ['\n'] := by decide
  refine .singleton (.empty hname e.isName_attributes hunit hfeed ?_)
  simp [e.toList_text]

/-- A line that opens an element. -/
theorem readsLines_opening {as : List (String × String)} (hunit : '<' ∉ unit.toList)
    (hname : IsName name) (has : ∀ a ∈ as, IsName a.1)
    (hline : line.toList = unit.toList ++ '<' :: (name.toList ++ written as ++ ['>'])) :
    ReadsLines [line] [.opening name as] := by
  have hfeed : '<' ∉ ['\n'] := by decide
  refine .singleton (.opening hname has hunit hfeed ?_)
  simp [hline]

theorem readsLines_closing (hunit : '<' ∉ unit.toList) (hname : IsName name)
    (hline : line.toList = unit.toList ++ '<' :: '/' :: (name.toList ++ ['>'])) :
    ReadsLines [line] [.closing name] := by
  have hfeed : '<' ∉ ['\n'] := by decide
  refine .singleton (.closing hname hunit hfeed ?_)
  simp [hline]

theorem ComplexType.readsLines_sequence (hunit : '<' ∉ unit.toList) (t : ComplexType) :
    ReadsLines
      (if t.elements = [] then [unit ++ unit ++ "<xs:sequence/>"]
        else (unit ++ unit ++ "<xs:sequence>") ::
          t.elements.map (fun e => unit ++ unit ++ unit ++ e.text) ++
          [unit ++ unit ++ "</xs:sequence>"])
      (if t.elements = [] then [.empty "xs:sequence" []]
        else .opening "xs:sequence" [] :: (t.elements.map ElementDecl.tags).flatten ++
          [.closing "xs:sequence"]) := by
  have hname : IsName "xs:sequence" := by decide +kernel
  have hunit₂ : '<' ∉ (unit ++ unit).toList := by simp [hunit]
  have hunit₃ : '<' ∉ (unit ++ unit ++ unit).toList := by simp [hunit]
  split
  · have hfeed : '<' ∉ ['\n'] := by decide
    refine .singleton (.empty hname nofun hunit₂ hfeed ?_)
    simp [written_nil]
  · have hopening : ReadsLines [unit ++ unit ++ "<xs:sequence>"] [.opening "xs:sequence" []] := by
      refine readsLines_opening hunit₂ hname nofun ?_
      simp [written_nil]
    have helements := ReadsLines.flatMap (ElementDecl.readsLines hunit₃) t.elements
    have hclosing : ReadsLines [unit ++ unit ++ "</xs:sequence>"] [.closing "xs:sequence"] := by
      refine readsLines_closing hunit₂ hname ?_
      simp
    rw [← List.map_eq_flatMap] at helements
    exact (hopening.append helements).append hclosing

theorem ComplexType.readsLines (hunit : '<' ∉ unit.toList) (t : ComplexType) :
    ReadsLines (t.lines unit) t.tags := by
  have hname : IsName "xs:complexType" := by decide +kernel
  have hattributes : ∀ a ∈ [("name", t.name)], IsName a.1 := by
    rw [List.forall_mem_singleton]
    exact (by decide +kernel : IsName "name")
  have hopening : ReadsLines [unit ++ "<xs:complexType" ++ attributeText "name" t.name ++ ">"]
      [.opening "xs:complexType" [("name", t.name)]] := by
    refine readsLines_opening hunit hname hattributes ?_
    simp [written_cons, written_nil]
  have hclosing : ReadsLines [unit ++ "</xs:complexType>"] [.closing "xs:complexType"] := by
    refine readsLines_closing hunit hname ?_
    simp
  exact (hopening.append (t.readsLines_sequence hunit)).append hclosing

theorem Document.readsLines (hunit : '<' ∉ unit.toList) (d : Document) :
    ReadsLines (d.lines unit) d.tags := by
  have hname : IsName "xs:schema" := by decide +kernel
  have hnone : '<' ∉ "".toList := List.not_mem_nil
  have hfeed : '<' ∉ ['\n'] := by decide
  have hinstruction :
      ReadsLines ["<?xml version=\"1.0\" encoding=\"UTF-8\"?>"] [.instruction] := by
    let body := "?xml version=\"1.0\" encoding=\"UTF-8\"?".toList
    have hbody : '<' ∉ body := by decide
    have htag (rest : List Char) : Tag.ofText (body ++ '>' :: rest) = .instruction := rfl
    exact .singleton (.tag rfl hnone hbody hfeed htag)
  have hopening : ReadsLines ["<xs:schema" ++ attributeText "xmlns:xs" xmlSchemaNs ++
      (match d.targetNs with
        | some ns => attributeText "targetNamespace" ns ++ attributeText "xmlns" ns
        | none => "") ++
      attributeText "elementFormDefault" "qualified" ++ ">"]
      [.opening "xs:schema" d.attributes] := by
    refine readsLines_opening hnone hname d.isName_attributes ?_
    have hns : (match d.targetNs with
        | some ns => attributeText "targetNamespace" ns ++ attributeText "xmlns" ns
        | none => "").toList = written (match d.targetNs with
        | some ns => [("targetNamespace", ns), ("xmlns", ns)]
        | none => []) := by
      cases d.targetNs with
      | none => rfl
      | some ns =>
        rw [written_cons, written_cons, written_nil, List.append_nil]
        exact String.toList_append
    rw [attributes, written_append, written_cons, written_cons, written_nil, ← hns]
    simp only [String.toList_append, List.append_assoc]
    rfl
  have hroots := ReadsLines.flatMap (ElementDecl.readsLines hunit) d.roots
  have htypes := ReadsLines.flatMap (ComplexType.readsLines hunit) d.types
  have hclosing : ReadsLines ["</xs:schema>"] [.closing "xs:schema"] :=
    readsLines_closing hnone hname rfl
  rw [← List.map_eq_flatMap] at hroots
  exact (((hinstruction.append hopening).append hroots).append htypes).append hclosing

end

theorem Document.readsAs_text (indent : Nat) (d : Document) : ReadsAs (d.text indent) d.tags := by
  have hunit : '<' ∉ (String.ofList (List.replicate indent ' ')).toList := by
    rw [String.toList_ofList]
    exact fun h => absurd (List.eq_of_mem_replicate h) (by decide)
  exact d.readsLines hunit

/-- The tags in the text of a document are those of its global elements and of its types, inside of
one `xs:schema`, and there are no others. -/
theorem Document.tags_text (indent : Nat) (d : Document) :
    Xml.tags (d.text indent) = .instruction :: (.opening "xs:schema" d.attributes ::
      ((d.roots.map ElementDecl.tags).flatten ++ (d.types.map ComplexType.tags).flatten) ++
        [.closing "xs:schema"]) := (d.readsAs_text indent).tags_eq

/-- The text of a document is read as that document. -/
theorem Document.read?_text (indent : Nat) (d : Document) : read? (d.text indent) = some d := by
  rw [read?, parse?_eq_some (d.readsAs_text indent) d.nests_tags, Option.bind_some, ofTree?_tree]

/-- The text for a layout is read as its document. -/
theorem exists_read?_of_text {s : Schema} {o : XsdOptions} {n : Layout} {t : String}
    (h : text s o n = .ok t) :
    ∃ doc, Document.read? t = some doc ∧ Document.ofLayout s o n = .ok doc := by
  obtain ⟨doc, hdoc, rfl⟩ := map_eq_ok.1 h
  exact ⟨doc, doc.read?_text o.indent, hdoc⟩

end XmlPublishing.Xsd

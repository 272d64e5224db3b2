import XmlPublishing.Proofs.Query.BuiltElements
import XmlPublishing.Proofs.Xsd.Growth
import XmlPublishing.Proofs.Xsd.Reading

/-!
Schema documents as grammars.

`Document.elementTree?` follows the types of elements to some depth and gives the tree of elements
that a declaration stands for. The text of the document for a layout, read back and followed from
its first global element, gives the tree that the text of the rows query for the layout is read as
(`text_describes_rows`).

A type name that begins like those of the built-in types would be taken for one of them, so no type
of the document may have such a name. Types are named after relations, perhaps with a suffix that
cannot begin like that, so this depends on the names of the relations only
(`Grows.not_isBuiltinName`).
-/

namespace XmlPublishing.Xsd

/-- Whether a type name begins like those of the built-in types. -/
def isBuiltinName (name : String) : Bool := "xs:".toList.isPrefixOf name.toList

theorem BuiltinType.isBuiltinName_name (t : BuiltinType) : isBuiltinName t.name := by
  cases t <;> decide

namespace Document

/-- The tree that an element of the document stands for, if it has at most that depth. -/
def elementTree? (d : Document) : Nat → ElementDecl → Option ElementTree
  | 0, _ => none
  | depth + 1, e =>
    if isBuiltinName e.typeName then some (.element e.name [])
    else (d.types.find? (·.name = e.typeName)).bind fun t =>
      (t.elements.mapM (d.elementTree? depth)).map (.element e.name)

/-- The element stands for that tree, however deep one reads beyond it. -/
def Reads (d : Document) (e : ElementDecl) (tree : ElementTree) : Prop :=
  ∃ depth, ∀ k ≥ depth, d.elementTree? k e = some tree

variable {d : Document} {e : ElementDecl}

theorem reads_of_isBuiltinName (h : isBuiltinName e.typeName) : d.Reads e (.element e.name []) := by
  refine ⟨1, fun k hk => ?_⟩
  obtain ⟨depth, rfl⟩ := Nat.exists_eq_succ_of_ne_zero (by omega : k ≠ 0)
  rw [elementTree?, if_pos h]

theorem exists_depth {es : List ElementDecl} {trees : List ElementTree}
    (h : List.Forall₂ d.Reads es trees) :
    ∃ depth, ∀ k ≥ depth, es.mapM (d.elementTree? k) = some trees := by
  induction h with
  | nil => exact ⟨0, fun _ _ => rfl⟩
  | cons hhead _ ih =>
    obtain ⟨depth₁, h₁⟩ := hhead
    obtain ⟨depth₂, h₂⟩ := ih
    refine ⟨max depth₁ depth₂, fun k hk => ?_⟩
    rw [List.mapM_cons, h₁ k (by omega), h₂ k (by omega)]
    rfl

theorem reads_of_find? {t : ComplexType} {trees : List ElementTree}
    (hbuiltin : ¬ isBuiltinName e.typeName) (ht : d.types.find? (·.name = e.typeName) = some t)
    (h : List.Forall₂ d.Reads t.elements trees) : d.Reads e (.element e.name trees) := by
  obtain ⟨depth, h⟩ := exists_depth h
  refine ⟨depth + 1, fun k hk => ?_⟩
  obtain ⟨depth', rfl⟩ := Nat.exists_eq_succ_of_ne_zero (by omega : k ≠ 0)
  rw [elementTree?, if_neg hbuiltin, ht, Option.bind_some, h depth' (by omega), Option.map_some]

end Document

theorem fieldElement_eq_ok {r : RelationId} {fields : List Field} {name : String} {e : ElementDecl}
    (h : fieldElement r fields name = .ok e) :
    e.name = Text.lower name ∧ isBuiltinName e.typeName := by
  unfold fieldElement at h
  split at h
  · cases h
    exact ⟨rfl, BuiltinType.isBuiltinName_name _⟩
  · cases h

theorem find?_eq_some_of_nodup {types : List ComplexType} (h : (types.map (·.name)).Nodup)
    {t : ComplexType} (ht : t ∈ types) : types.find? (·.name = t.name) = some t := by
  cases hfind : types.find? (·.name = t.name) with
  | none => exact absurd (decide_eq_true rfl) (List.find?_eq_none.1 hfind t ht)
  | some t' =>
    have hname := List.find?_some hfind
    replace hname : t'.name = t.name := of_decide_eq_true hname
    have ht' := List.mem_of_find?_eq_some hfind
    exact congrArg some (List.inj_on_of_nodup_map h ht' ht hname)

/-! ## Reading rows -/

section

open TypeRegistry

variable {s : Schema} {N W : List Layout} {r : TypeRegistry} {doc : Document} {p : Planner}
  {n : Layout} {e : ElementDecl} {rowsType listing : String}

/-- An element whose type is that of a node's rows stands for the tree of every rows query for the
node. -/
def RowsRead (doc : Document) (r : TypeRegistry) (p : Planner) (n : Layout) : Prop :=
  ∀ (e : ElementDecl) (name : String) (aliases : Aliases) (filter : Option Filter)
    (columns : RowColumns) (ambient : Option String) (sorted : Bool),
    e.name = n.rowName → r.Names n e.typeName →
    doc.Reads e (p.rows name aliases filter columns ambient sorted n).elementTree

theorem Grows.reads_of_typesRows (h : Grows s N W .empty doc.types r)
    (hnames : ∀ t ∈ doc.types, ¬ isBuiltinName t.name) (hn : r.Names n e.typeName) {trees}
    (helements : ∀ t, r.TypesRows s n t → List.Forall₂ doc.Reads t.elements trees) :
    doc.Reads e (.element e.name trees) := by
  obtain ⟨t, ht, hname, htypes⟩ := h.exists_typesRows hn
  refine Document.reads_of_find? (hname ▸ hnames t ht) ?_ (helements t htypes)
  rw [← hname]
  exact find?_eq_some_of_nodup h.names_nodup ht

theorem Grows.reads_of_lists (h : Grows s N W .empty doc.types r)
    (hnames : ∀ t ∈ doc.types, ¬ isBuiltinName t.name) (hn : r.Lists n e.typeName) {tree}
    (hrows : ∀ e' : ElementDecl, e'.name = n.rowName → r.Names n e'.typeName → doc.Reads e' tree) :
    doc.Reads e (.element e.name [tree]) := by
  obtain ⟨rowsType, hn, hlisting⟩ := hn
  obtain ⟨-, t, ht, hname, m, e', hm, he', htype, helements⟩ := h.of_mem_listingTypes hlisting
  have hfind := find?_eq_some_of_nodup h.names_nodup ht
  rw [hname] at hfind
  refine Document.reads_of_find? (hname ▸ hnames t ht) hfind ?_
  rw [helements]
  refine .cons (hrows e' ?_ (htype ▸ hn)) .nil
  exact he'.trans (Layout.rowName_eq_of_beq (h.wf.beq_of_names hm hn))

theorem Grows.reads_child (h : Grows s N W .empty doc.types r)
    (hnames : ∀ t ∈ doc.types, ¬ isBuiltinName t.name) {style : CollectionStyle} {j : Joined Layout}
    (hj : r.TypesChild style j e) (ih : RowsRead doc r p j.layout) (name : String)
    (aliases : Aliases) (ambient : Option String) :
    doc.Reads e (p.child name aliases ambient style j).elementTree := by
  have htype := hj.type
  cases style with
  | inline => exact ih e _ _ _ _ _ _ hj.name htype
  | wrapped =>
    change doc.Reads e (.element j.layout.collectionName [_])
    rw [← show e.name = j.layout.collectionName from hj.name]
    exact h.reads_of_lists hnames htype fun e' hname hn => ih e' _ _ _ _ _ _ hname hn

theorem Grows.rowsRead (h : Grows s N W .empty doc.types r)
    (hnames : ∀ t ∈ doc.types, ¬ isBuiltinName t.name) (p : Planner) (n : Layout) :
    RowsRead doc r p n := by
  induction n with
  | node info parents children ihParents ihChildren =>
    intro e name aliases filter columns ambient sorted hename hn
    rw [Planner.rows_node, RowsPlan.elementTree_rows]
    change doc.Reads e (.element info.rowName _)
    rw [← show e.name = info.rowName from hename]
    refine h.reads_of_typesRows hnames hn fun t ht => ?_
    obtain ⟨fields, own, ps, cs, -, hown, hps, hcs, ht⟩ := ht
    rw [ht, List.map_map, List.map_map]
    -- type and plan have the same three parts: fields, parents, children
    refine List.rel_append (List.rel_append ?_ ?_) ?_
    · rw [ElementTree.fields, List.forall₂_map_right_iff]
      refine ((mapM_eq_ok.1 hown).imp fun name d hd => ?_).flip
      obtain ⟨hname, hbuiltin⟩ := fieldElement_eq_ok hd
      rw [flip, ← hname]
      exact Document.reads_of_isBuiltinName hbuiltin
    · rw [List.forall₂_map_right_iff]
      refine (forall₂_imp_of_mem hps fun j hj d _ hd => ?_).flip
      exact ihParents j hj d _ _ _ _ _ _ hd.name hd.type
    · rw [List.forall₂_map_right_iff]
      refine (forall₂_imp_of_mem hcs fun j hj d _ hd => ?_).flip
      exact h.reads_child hnames hd (ihChildren j hj) _ _ _

end

/-! ## Names that do not look built in -/

/-- A beginning that ends inside the first part of a text is a beginning of that part, if the rest
does not go on with one of its letters. -/
theorem isPrefixOf_of_isPrefixOf_append {w a b : List Char} (h : w <+: a ++ b)
    (hb : ∀ c ∈ b.head?, c ∉ w) : w <+: a := by
  rcases List.prefix_or_prefix_of_prefix h (List.prefix_append a b) with hw | ⟨rest, rfl⟩
  · exact hw
  -- else it goes on into `b`, whose first letter it then has
  cases rest with
  | nil => exact ⟨[], by rw [List.append_nil, List.append_nil]⟩
  | cons c rest =>
    obtain ⟨more, hmore⟩ := (List.prefix_append_right_inj a).1 h
    have hc : c ∈ b.head? := by rw [← hmore]; rfl
    exact absurd (List.mem_append_right _ List.mem_cons_self) (hb c hc)

theorem isBuiltinName_of_append {base rest : String} (h : isBuiltinName (base ++ rest))
    (hrest : ∀ c ∈ rest.toList.head?, c ∉ "xs:".toList) : isBuiltinName base := by
  rw [isBuiltinName, String.toList_append, List.isPrefixOf_iff_prefix] at h
  rw [isBuiltinName, List.isPrefixOf_iff_prefix]
  exact isPrefixOf_of_isPrefixOf_append h hrest

theorem isBuiltinName_of_numbered {base name : String} (h : Numbered base name)
    (hname : isBuiltinName name) : isBuiltinName base := by
  obtain ⟨digits, rfl, hdigits⟩ := h
  refine isBuiltinName_of_append hname fun c hc hmem => ?_
  have hnot : ∀ c ∈ "xs:".toList, ¬ c.isDigit := by simp
  exact hnot c hmem (hdigits c (List.mem_of_mem_head? hc))

theorem isBuiltinName_of_listing {base : String} (h : isBuiltinName (base ++ "-listing")) :
    isBuiltinName base := by
  refine isBuiltinName_of_append h fun c hc => ?_
  obtain rfl : '-' = c := Option.some.inj hc
  decide

section

open TypeRegistry

variable {s : Schema} {o : XsdOptions} {n : Layout} {r : TypeRegistry} {types : List ComplexType}

theorem listed_subset_nodes : listed o n ⊆ n.nodes := by
  intro m hm
  rcases List.mem_append.1 hm with hm | hm
  · obtain ⟨k, hk, -, e, he, rfl⟩ := Layout.mem_wrapped.1 hm
    exact Layout.mem_nodes_trans (Layout.mem_nodes_of_child he) hk
  · split at hm
    · obtain rfl := List.mem_singleton.1 hm
      exact m.self_mem_nodes
    · cases hm

/-- If no relation's type is named like a built-in one, no type of the document is. -/
theorem Grows.not_isBuiltinName (h : Grows s n.nodes (listed o n) .empty types r)
    (hnames : ∀ m ∈ n.nodes, ¬ isBuiltinName (s.rowsTypeName m.relation)) :
    ∀ t ∈ types, ¬ isBuiltinName t.name := by
  intro t ht hbuiltin
  have hname : t.name ∈ r.names := h.names_perm.mem_iff.1 (List.mem_map_of_mem ht)
  rcases List.mem_append.1 hname with hname | hname
  · obtain ⟨⟨m, rowsType⟩, hm, rfl : rowsType = t.name⟩ := List.mem_map.1 hname
    obtain ⟨⟨hm, hbase⟩, -⟩ := h.of_mem_rowsTypes hm
    exact hnames m hm (isBuiltinName_of_numbered hbase hbuiltin)
  · obtain ⟨⟨rowsType, listing⟩, hlisting, rfl : listing = t.name⟩ := List.mem_map.1 hname
    obtain ⟨⟨c, hc, -, hbase⟩, -⟩ := h.of_mem_listingTypes hlisting
    have hlistingName := isBuiltinName_of_numbered hbase hbuiltin
    exact hnames c (listed_subset_nodes hc) (isBuiltinName_of_listing hlistingName)

end

/-- A schema document, read as a grammar from its first global element, and a rows query, read by
its nesting, give the same tree of elements. -/
def Describes (xsd query : String) : Prop :=
  ∃ doc tree, Document.read? xsd = some doc ∧ SqlXml.readRows? query = some tree ∧
    ∃ root rest, doc.roots = root :: rest ∧
      ∃ depth, ∀ k ≥ depth, doc.elementTree? k root = some tree

end XmlPublishing.Xsd

namespace XmlPublishing.Staff

open Xsd

/-- The team with quotes, parentheses and commas in its names, and a line feed in that of the
root. -/
def markedTeam : Layout :=
  .node { team.info with rowName := "x\"), (\n y\"" } [⟨bossKey, alone.renameRows "'"⟩]
    [⟨bossKey, .node { withBoss.info with rowName := "as \"", collectionName := "((" }
      [⟨bossKey, alone.renameRows "\"\""⟩] []⟩]

/-- Employees with a field whose name has a label and another column in it. -/
def labelledSchema : Schema where
  caseSensitivity := .preserve
  relations := [⟨employee, .table, [{ name := "id as \"no\", e.id" }]⟩]
  foreignKeys := []
  distinct := List.pairwise_singleton _ _
  fits := nofun

def labelled : Layout :=
  .leaf ⟨employee, ["id as \"no\", e.id"], "e", "es", .wrapped, none, none⟩

/-- Employees without fields. -/
def bare : Layout := .leaf ⟨employee, [], "e", "e-listing", .wrapped, none, none⟩

/-- Employees with their bosses, whose elements have a name of two lines. -/
def brokenBoss : Layout := .node bare.info [⟨bossKey, bare.renameRows "a\nb"⟩] []

/-- The layout has a schema document and a rows query, and the one does not describe the other. -/
def Undescribed (s : Schema) (n : Layout) : Prop :=
  (∀ m ∈ n.nodes, ¬ isBuiltinName (s.rowsTypeName m.relation)) ∧
    ∃ p xsd query, Publisher.ofSchema? (some s) none {} = .ok p ∧ Xsd.text s {} n = .ok xsd ∧
      p.rows n none none ⟨.omitted, .xml⟩ none = .ok query ∧ ¬ Describes xsd query

theorem not_describes {doc : Document} {root : ElementDecl} {rest : List ElementDecl}
    (hroots : doc.roots = root :: rest) {query : String} {tree : ElementTree}
    (hquery : SqlXml.readRows? query = some tree) (bound : Nat)
    (hne : ∀ depth, doc.elementTree? (depth + bound) root ≠ some tree) (indent : Nat) :
    ¬ Describes (doc.text indent) query := by
  rintro ⟨doc', tree', hdoc, htree, root', rest', hroots', depth, hdepth⟩
  rw [Document.read?_text] at hdoc
  cases hdoc
  rw [hquery] at htree
  cases htree
  rw [hroots] at hroots'
  cases hroots'
  exact hne depth (hdepth _ (Nat.le_add_right depth bound))

theorem labelled_undescribed : Undescribed labelledSchema labelled := by
  let lines := ["select", "  xmlelement(name \"e\",",
    "    xmlforest(e.id as \"no\", e.id as \"id as \"\"no\"\", e.id\")", "  ) as ROW_XML",
    "from e e"]
  have hlines : SqlXml.ReadsLines lines _ := .flatMap (by decide +kernel)
  have htokens : lines.flatMap SqlXml.tokens = [.word "select", .word "xmlelement", .opening,
      .word "name", .name "e", .word "xmlforest", .opening, .word "e.id", .word "as", .name "no",
      .word "e.id", .word "as", .name "id as \"no\", e.id", .closing, .closing, .word "as",
      .word "ROW_XML", .word "from", .word "e", .word "e"] := by decide +kernel
  have hreads : SqlXml.readRows? (SqlXml.joinLines lines) =
      some (.element "e" [.element "no" [], .element "id as \"no\", e.id" []]) := by
    rw [SqlXml.readRows?, SqlXml.items, hlines.tokens_eq (List.cons_ne_nil _ _), htokens]
    rfl
  refine ⟨by decide, _, _, SqlXml.joinLines lines, rfl, rfl, rfl, ?_⟩
  refine not_describes rfl hreads 2 (fun depth h => ?_) _
  -- one element inside of the row element against two
  have hcontent := (ElementTree.element.inj (Option.some.inj h)).2
  cases (List.cons.inj hcontent).2

theorem brokenBoss_undescribed : Undescribed schema brokenBoss := by
  let lines := ["select", "  xmlelement(name \"e\",", "    (", "      select",
    "        xmlelement(name \"a\n      b\") as ROW_XML", "      from e e1",
    "      where e.boss = e1.id", "    )", "  ) as ROW_XML", "from e e"]
  have hlines : SqlXml.ReadsLines lines _ := .flatMap (by decide +kernel)
  have htokens : lines.flatMap SqlXml.tokens = [.word "select", .word "xmlelement", .opening,
      .word "name", .name "e", .opening, .word "select", .word "xmlelement", .opening, .word "name",
      .name "a\n      b", .closing, .word "as", .word "ROW_XML", .word "from", .word "e",
      .word "e1", .word "where", .word "e.boss", .word "=", .word "e1.id", .closing, .closing,
      .word "as", .word "ROW_XML", .word "from", .word "e", .word "e"] := by decide +kernel
  have hreads : SqlXml.readRows? (SqlXml.joinLines lines) =
      some (.element "e" [.element "a\n      b" []]) := by
    rw [SqlXml.readRows?, SqlXml.items, hlines.tokens_eq (List.cons_ne_nil _ _), htokens]
    rfl
  have htext : publisher.rows brokenBoss none none ⟨.omitted, .xml⟩ none =
      .ok (SqlXml.joinLines lines) := by decide +kernel
  refine ⟨by decide, _, _, SqlXml.joinLines lines, rfl, rfl, htext, ?_⟩
  refine not_describes rfl hreads 3 (fun depth h => ?_) _
  -- the second line of the name is indented with the query around it
  have hcontent := (ElementTree.element.inj (Option.some.inj h)).2
  exact absurd (ElementTree.element.inj (List.cons.inj hcontent).1).1 (by decide)

end XmlPublishing.Staff

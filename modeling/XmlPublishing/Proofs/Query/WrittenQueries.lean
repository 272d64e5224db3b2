import XmlPublishing.Proofs.Query.WrittenElements

/-!
The queries that the standard backend writes, as they are read.

A query inside of another one is cut into lines, so the names in it must not have line feeds; then
it builds the same elements as on its own (`BuildsQuery`). This holds of rows queries and of groups
around them (`RowsParts.buildsQuery`, `GroupParts.buildsQuery`). Of a rows query that stands on its
own only the row element is read, whose name and labels may be any text, and nothing is asked of its
clauses (`RowsParts.readRows?_eq_some`).
-/

namespace XmlPublishing.SqlXml

open Text

variable {P : String → Prop} {unit name : String} {ls : List String}
  {f : List ElementTree → List ElementTree}

/-! ## Queries inside of others -/

/-- The text builds these elements, also if it is cut into lines. -/
def BuildsQuery (s : String) (trees : List ElementTree) : Prop :=
  ∃ ls items, ls ≠ [] ∧ joinLines ls = s ∧ Spells OneLine ls items ∧
    queryTrees items = trees

theorem BuildsQuery.spells_lines {s : String} {trees : List ElementTree}
    (h : BuildsQuery s trees) (hP : ∀ x, OneLine x → P x) :
    ∃ items, Spells P (lines s) items ∧ queryTrees items = trees := by
  obtain ⟨ls, items, hne, rfl, ⟨ts, hts, hnest, hsingle⟩, htrees⟩ := h
  exact ⟨items, ⟨ts, hts.lines hne hsingle, hnest, fun x hx => hP x (hsingle x hx)⟩, htrees⟩

theorem Spells.parens {items : List Item} {first last : String}
    (hfirst : Lexes (first.toList ++ ['\n']) [.opening])
    (hlast : Lexes (last.toList ++ ['\n']) [.closing]) (h : Spells P ls items) :
    Spells P (first :: ls ++ [last]) [.parens items] := by
  obtain ⟨ts, hts, hnest, hP⟩ := h
  refine ⟨_, ((ReadsLines.singleton hfirst).append hts).append (.singleton hlast), hnest.parens, ?_⟩
  simpa using hP

theorem buildsContents_subqueries (hunit : ∀ c ∈ unit.toList, c = ' ')
    (hP : ∀ x, OneLine x → P x) {queries : List String} {trees : List ElementTree}
    (h : List.Forall₂ (fun s tree => BuildsQuery s [tree]) queries trees) :
    BuildsContents P (queries.map (subquery unit)) fun _ => trees := by
  have hfirst : Lexes ("(".toList ++ ['\n']) [.opening] := rfl
  have hlast : Lexes (")".toList ++ ['\n']) [.closing] := rfl
  induction h with
  | nil => exact .nil
  | @cons s tree _ _ hquery _ ih =>
    obtain ⟨items, hspells, htrees⟩ := hquery.spells_lines hP
    have hsubquery := (hspells.indented hunit).parens hfirst hlast
    have hbuilds : BuildsContents P [subquery unit s] fun _ => [tree] :=
      ⟨[[.parens items]], .cons hsubquery .nil, htrees ▸ Builds.query items⟩
    exact hbuilds.append ih

/-! ## Select lists -/

theorem BuildsCall.ne_nil (h : BuildsCall P ls f) : ls ≠ [] := by
  rintro rfl
  obtain ⟨items, ⟨ts, hts, hnest, -⟩, hcall⟩ := h
  have hnone : ReadsTape .start [] ts .start := hts
  cases hnone
  have hitems := congrArg Nesting.items (hnest ⟨[], []⟩)
  cases hcall
  cases hitems

theorem buildsCall_serialized (h : BuildsCall P ls f) : BuildsCall P (serialized ls) f := by
  have hne := h.ne_nil
  obtain ⟨items, ⟨ts, hts, hnest, hP⟩, hcall⟩ := h
  obtain ⟨line, ls, rfl⟩ := List.exists_cons_of_ne_nil hne
  have hopen : Lexes "xmlserialize(content ".toList
      [.word "xmlserialize", .opening, .word "content"] := rfl
  have hend : Lexes ("as clob)".toList ++ ['\n']) [.word "as", .word "clob", .closing] := rfl
  have hblank : separates ' ' := by decide
  have htext : " as clob)".toList = ' ' :: "as clob)".toList := rfl
  have hspells := (hts.onFirst hopen).onLast htext hblank hend (List.cons_ne_nil _ _)
  have hclob : Nests [.word "as", .word "clob"] [.word "as", .word "clob"] := fun _ => rfl
  have hnests := (((hnest.append hclob).word "content").parens).word "xmlserialize"
  refine ⟨_, ⟨_, hspells, ?_, ?_⟩, hcall.serialized⟩
  · simpa using hnests
  · simpa using hP

theorem spells_resultColumn (h : BuildsCall P ls f) (largeChar : Bool) {column : String}
    (hcolumn : Plain column) :
    ∃ (items : List Item) (ws : List String), IsCall items f ∧
      Spells P (resultColumn ls largeChar column) (items ++ .word "as" :: ws.map .word) := by
  have hxml : BuildsCall P (if largeChar then serialized ls else ls) f := by
    cases largeChar with
    | true => exact buildsCall_serialized h
    | false => exact h
  have hne := hxml.ne_nil
  obtain ⟨items, ⟨ts, hts, hnest, hP⟩, hcall⟩ := hxml
  have hblank : separates ' ' := by decide
  have has : Lexes "as ".toList [.word "as"] := rfl
  obtain ⟨ws, hread⟩ := Lexes.line hcolumn
  have htext : (" as " ++ column).toList = ' ' :: ("as " ++ column).toList := by
    rw [String.toList_append, String.toList_append]
    rfl
  refine ⟨items, ws, hcall, _, hts.onLast htext hblank (has.prepend hread) hne,
    hnest.append ((Nests.words ws).word "as"), ?_⟩
  simpa using hP

theorem forall₂_spells_plain (P : String → Prop) (h : ∀ line ∈ ls, Plain line) :
    ∃ ws : List (List String),
      List.Forall₂ (Spells P) (ls.map fun line => [line]) (ws.map fun ws => ws.map .word) := by
  induction ls with
  | nil => exact ⟨[], .nil⟩
  | cons line ls ih =>
    obtain ⟨hline, hls⟩ := List.forall_mem_cons.1 h
    obtain ⟨ws, hws⟩ := ih hls
    obtain ⟨ws', hws'⟩ := Spells.plain hline
    exact ⟨ws' :: ws, .cons hws' hws⟩

theorem spells_select (hunit : ∀ c ∈ unit.toList, c = ' ') (h : BuildsCall P ls f)
    (largeChar : Bool) {column : String} (hcolumn : Plain column) {columns : List String}
    (hcolumns : ∀ c ∈ columns, Plain c) :
    ∃ (ws : List String) (items : List Item) (ws' : List String), IsCall items f ∧
      Spells P ("select" :: commaList unit (columns.map (fun c => [c]) ++
        [resultColumn ls largeChar column])) (selectItems ws items ws') := by
  obtain ⟨items, ws', hcall, hspells⟩ := spells_resultColumn h largeChar hcolumn
  obtain ⟨ws, hws⟩ := forall₂_spells_plain P hcolumns
  have hselect : Spells P ["select"] [.word "select"] :=
    ⟨[.word "select"], .singleton rfl, fun _ => rfl, by simp⟩
  refine ⟨ws.flatten, items, ws', hcall, ?_⟩
  have hlist := spells_commaList hunit (List.rel_append hws (.cons hspells .nil))
  rw [List.flatten_append, List.flatten_singleton, ← List.map_flatten] at hlist
  exact hselect.append hlist

/-! ## Rows queries -/

/-- What a rows query writes up to its `from` clause, names and namespaces apart, is words. -/
structure RowsParts.IsPlain (q : RowsParts) : Prop where
  name : Plain q.name
  columns : ∀ column ∈ q.selectFields, Plain column
  fields : ∀ field ∈ q.xmlFields, Plain field
  column : Plain q.column

/-- The lines of a rows query before its `from` clause. -/
def RowsParts.selectLines (unit : String) (q : RowsParts) : List String :=
  let content := namespaceContent q.ns ++ forest q.name q.xmlFields ++
    (q.parents ++ q.children).map (subquery unit)
  "select" :: commaList unit (q.selectFields.map (fun field => [q.name ++ "." ++ field]) ++
    [resultColumn (element unit q.rowName content) q.largeChar q.column])

theorem RowsParts.lines_eq (q : RowsParts) :
    q.lines unit = q.selectLines unit ++
      (("from " ++ (q.relation ++ " " ++ q.name)) :: tail q.filter q.orderBy) := by
  have hfrom : "from " ++ q.relation ++ " " ++ q.name =
      "from " ++ (q.relation ++ " " ++ q.name) := by
    rw [String.append_assoc, String.append_assoc, String.append_assoc]
  rw [lines, selectLines, List.append_assoc, hfrom]
  rfl

variable {q : RowsParts} {parents children : List ElementTree}

theorem RowsParts.spells_selectLines (hunit : ∀ c ∈ unit.toList, c = ' ')
    (hP : ∀ x, OneLine x → P x) (hq : q.IsPlain) (hname : P q.rowName)
    (hlabels : ∀ field ∈ q.xmlFields, P (lower field))
    (hparents : List.Forall₂ (fun s tree => BuildsQuery s [tree]) q.parents parents)
    (hchildren : List.Forall₂ (fun s tree => BuildsQuery s [tree]) q.children children) :
    ∃ (ws : List String) (items : List Item) (ws' : List String),
      (IsCall items fun _ =>
        [.element q.rowName (ElementTree.fields q.xmlFields ++ parents ++ children)]) ∧
      Spells P (q.selectLines unit) (selectItems ws items ws') := by
  have hforest := buildsContents_forest hq.name hq.fields hlabels
  have hqueries := buildsContents_subqueries hunit hP (List.rel_append hparents hchildren)
  have hcontent := ((buildsContents_namespace q.ns).append hforest).append hqueries
  have helement := buildsCall_element hunit hname hcontent
  have hcolumns : ∀ c ∈ q.selectFields.map (q.name ++ "." ++ ·), Plain c := by
    intro c hc
    obtain ⟨column, hcolumn, rfl⟩ := List.mem_map.1 hc
    simp +decide [hq.name, hq.columns column hcolumn]
  obtain ⟨ws, items, ws', hcall, hspells⟩ := spells_select hunit helement q.largeChar hq.column
    hcolumns
  rw [List.map_map] at hspells
  refine ⟨ws, items, ws', ?_, hspells⟩
  rwa [List.nil_append, ← List.append_assoc] at hcall

/-- Lines of words. -/
theorem spells_plainLines (P : String → Prop) (h : ∀ line ∈ ls, Plain line) :
    ∃ ws : List String, Spells P ls (ws.map .word) := by
  obtain ⟨ws, hws⟩ := forall₂_spells_plain P h
  have hlines := Spells.flatten hws
  rw [← List.flatMap_def, List.flatMap_singleton', ← List.map_flatten] at hlines
  exact ⟨ws.flatten, hlines⟩

theorem plain_tail {filter : Option String} (hfilter : ∀ f ∈ filter, Plain f) :
    ∀ line ∈ tail filter [], Plain line := by
  intro line hline
  cases filter with
  | none => cases hline
  | some filter =>
    obtain rfl := List.mem_singleton.1 hline
    simp +decide [hfilter filter rfl]

theorem spells_from (P : String → Prop) {relation : String} (h : Plain relation)
    (hls : ∀ line ∈ ls, Plain line) :
    ∃ ws : List String, Spells P (("from " ++ relation) :: ls) (.word "from" :: ws.map .word) := by
  obtain ⟨ws, hread⟩ := Lexes.line h
  have hfrom : Lexes "from ".toList [.word "from"] := rfl
  have hspells : Spells P ["from " ++ relation] (.word "from" :: ws.map .word) :=
    ⟨_, .singleton (hfrom.prepend hread), (Nests.words ws).word "from", by simp⟩
  obtain ⟨ws', hrest⟩ := spells_plainLines P hls
  refine ⟨ws ++ ws', ?_⟩
  rw [List.map_append]
  exact hspells.append hrest

/-- A rows query that is nested into another one. -/
theorem RowsParts.buildsQuery (hunit : ∀ c ∈ unit.toList, c = ' ') (hq : q.IsPlain)
    (hname : OneLine q.rowName) (hlabels : ∀ field ∈ q.xmlFields, OneLine (lower field))
    (hparents : List.Forall₂ (fun s tree => BuildsQuery s [tree]) q.parents parents)
    (hchildren : List.Forall₂ (fun s tree => BuildsQuery s [tree]) q.children children)
    (hrelation : Plain q.relation) (hfilter : ∀ f ∈ q.filter, Plain f) (horder : q.orderBy = []) :
    BuildsQuery (joinLines (q.lines unit))
      [.element q.rowName (ElementTree.fields q.xmlFields ++ parents ++ children)] := by
  obtain ⟨ws, items, ws', hcall, hselect⟩ := spells_selectLines
    (P := OneLine) hunit (fun _ h => h) hq hname hlabels hparents hchildren
  have hrest : Plain (q.relation ++ " " ++ q.name) := by simp +decide [hrelation, hq.name]
  obtain ⟨clauses, hfrom⟩ := spells_from OneLine hrest (plain_tail hfilter)
  have hlines : q.lines unit = q.selectLines unit ++
      (("from " ++ (q.relation ++ " " ++ q.name)) :: tail q.filter []) := by rw [lines_eq, horder]
  rw [hlines]
  exact ⟨_, _, List.cons_ne_nil _ _, rfl, hselect.append hfrom, queryTrees_over_relation hcall⟩

/-- The row element of a rows query that stands on its own, whatever its clauses are. -/
theorem RowsParts.readRows?_eq_some (hunit : ∀ c ∈ unit.toList, c = ' ') (hq : q.IsPlain)
    (hparents : List.Forall₂ (fun s tree => BuildsQuery s [tree]) q.parents parents)
    (hchildren : List.Forall₂ (fun s tree => BuildsQuery s [tree]) q.children children) :
    readRows? (joinLines (q.lines unit)) =
      some (.element q.rowName (ElementTree.fields q.xmlFields ++ parents ++ children)) := by
  obtain ⟨ws, xml, ws', hcall, ts, hts, hnest, -⟩ := spells_selectLines
    (P := fun _ => True) hunit (fun _ _ => trivial) hq trivial (fun _ _ => trivial) hparents
    hchildren
  have hfrom : read .start "from ".toList = (.start, [.word "from"]) := rfl
  obtain ⟨us, htokens⟩ : ∃ us, tokens (joinLines (q.lines unit)) = ts ++ .word "from" :: us := by
    rw [lines_eq, tokens, ← SameLines.map_symbol_tape (List.append_ne_nil_of_right_ne_nil _
      (List.cons_ne_nil _ _)), tape_append, List.map_append, read_append, ReadsTape.read_eq hts,
      tape_append_cons, List.map_append, map_symbol_some, read_append, hfrom]
    exact ⟨_, rfl⟩
  have hitems : items (joinLines (q.lines unit)) =
      selectItems ws xml ws' ++ .word "from" :: (nest us ⟨[], []⟩).items := by
    rw [items, htokens, nest_append, hnest]
    rfl
  rw [readRows?, hitems]
  exact head?_queryTrees_append hcall _

/-! ## Groups -/

theorem spells_derivedTable (hunit : ∀ c ∈ unit.toList, c = ' ') {s : String}
    {trees : List ElementTree} (h : BuildsQuery s trees) (hname : Plain name)
    (hls : ∀ line ∈ ls, Plain line) :
    ∃ (items : List Item) (ws : List String), queryTrees items = trees ∧
      Spells OneLine ("from (" :: indented unit (Text.lines s) ++ (") " ++ name) :: ls)
        (.word "from" :: .parens items :: ws.map .word) := by
  obtain ⟨items, ⟨ts, hts, hnest, hsingle⟩, htrees⟩ := h.spells_lines fun _ h => h
  have hopen : Lexes ("from (".toList ++ ['\n']) [.word "from", .opening] := rfl
  have hclose : Lexes ") ".toList [.closing] := rfl
  obtain ⟨ws, hread⟩ := Lexes.line hname
  have htable : Spells OneLine ("from (" :: indented unit (Text.lines s) ++ [") " ++ name])
      (.word "from" :: .parens items :: ws.map .word) := by
    refine ⟨_, ((ReadsLines.singleton hopen).append (hts.indented hunit)).append
      (.singleton (hclose.prepend hread)), ?_, by simpa using hsingle⟩
    have hnests := (hnest.parens.word "from").append (.words ws)
    simpa only [List.cons_append, List.append_assoc, List.nil_append] using hnests
  obtain ⟨ws', hrest⟩ := spells_plainLines OneLine hls
  refine ⟨items, ws ++ ws', htrees, ?_⟩
  have hspells := htable.append hrest
  rw [List.append_assoc] at hspells
  rw [List.map_append]
  exact hspells

/-- The value of a group. -/
def GroupParts.xmlLines (unit : String) (q : GroupParts) : List String :=
  match q.wrapper with
  | some (collectionName, ns) =>
    element unit collectionName (namespaceContent ns ++ [[aggregate q.name q.orderBy]])
  | none => [aggregate q.name q.orderBy]

theorem GroupParts.lines_eq (q : GroupParts) :
    q.lines unit =
      "select" :: commaList unit [resultColumn (q.xmlLines unit) q.largeChar q.column] ++
        ("from (" :: indented unit (Text.lines q.rowsQuery) ++
          (") " ++ q.name) :: tail q.filter []) := by
  simp only [lines, List.append_assoc]
  rfl

theorem GroupParts.buildsCall_xmlLines (hunit : ∀ c ∈ unit.toList, c = ' ') {q : GroupParts}
    (hname : Plain q.name) (hwrapper : ∀ w ∈ q.wrapper, P w.1)
    (horder : ∀ term ∈ q.orderBy, Plain term) :
    ∃ f : List ElementTree → List ElementTree, BuildsCall P (q.xmlLines unit) f ∧
      ∀ tree, f [tree] = [tree.inside (q.wrapper.map (·.1))] := by
  have helements : BuildsCall P _ _ := buildsCall_aggregate hname horder
  rw [xmlLines]
  cases hw : q.wrapper with
  | none => exact ⟨_, helements, fun _ => rfl⟩
  | some wrapper =>
    have hcontent := (buildsContents_namespace wrapper.2).append helements.buildsContents
    exact ⟨_, buildsCall_element hunit (hwrapper wrapper hw) hcontent, fun _ => rfl⟩

/-- A collection or forest that is nested into a rows query. -/
theorem GroupParts.buildsQuery (hunit : ∀ c ∈ unit.toList, c = ' ') {q : GroupParts}
    {tree : ElementTree} (hrows : BuildsQuery q.rowsQuery [tree]) (hname : Plain q.name)
    (hwrapper : ∀ w ∈ q.wrapper, OneLine w.1) (horder : ∀ term ∈ q.orderBy, Plain term)
    (hfilter : ∀ f ∈ q.filter, Plain f) (hcolumn : Plain q.column) :
    BuildsQuery (joinLines (q.lines unit)) [tree.inside (q.wrapper.map (·.1))] := by
  obtain ⟨f, hxml, hf⟩ := buildsCall_xmlLines hunit hname hwrapper horder
  have hnone : ∀ c ∈ ([] : List String), Plain c := nofun
  obtain ⟨ws, xml, ws', hcall, hselect⟩ := spells_select hunit hxml q.largeChar hcolumn hnone
  obtain ⟨items, clauses, htrees, htable⟩ := spells_derivedTable hunit hrows hname
    (plain_tail hfilter)
  rw [lines_eq]
  refine ⟨_, _, List.cons_ne_nil _ _, rfl, hselect.append htable, ?_⟩
  rw [queryTrees_over_query hcall, htrees, hf]

end XmlPublishing.SqlXml

import XmlPublishing.Proofs.Query.StandardText
import XmlPublishing.Proofs.Text.DeepLines

/-!
Indentation only adds spaces at the starts of lines.

The number of spaces per level (the width) changes no line but for what it starts with, and each
line stands at the same depth for all widths (`Publisher.only_indents`). Nested queries are cut into
their lines and indented again at every level, and a line that is written may contain ends of lines
itself; what carries the proof is that all of this is steady in the width: for each width the same
deep lines are written (`SteadyLines`, `SteadyText`).
-/

namespace XmlPublishing

open Text

namespace SqlXml

/-- A line, with a text for each width. It may contain ends of lines. -/
def SteadyLine (line : Nat → String) : Prop :=
  ∃ ls ≠ [], ∀ width, line width = writeAll width ls

/-- Lines of which each is steady. -/
inductive SteadyLines : (Nat → List String) → Prop
  | nil : SteadyLines fun _ => []
  | cons {line : Nat → String} {lines : Nat → List String} :
      SteadyLine line → SteadyLines lines → SteadyLines fun width => line width :: lines width

/-- Steady lines of which the first is not indented. -/
inductive Headed : (Nat → List String) → Prop
  | head (line : String) {lines : Nat → List String} :
      SteadyLines lines → Headed fun width => line :: lines width

/-- A text of steady lines of which the last is not indented. -/
def SteadyText (text : Nat → String) : Prop :=
  ∃ ls last, DeepLine.depth last = 0 ∧ ∀ width, text width = writeAll width (ls ++ [last])

theorem steadyLine_const (s : String) : SteadyLine fun _ => s := by
  obtain ⟨ls, hne, -, hwrite⟩ := exists_writeAll s
  exact ⟨ls, hne, fun width => (hwrite width).symm⟩

theorem SteadyLine.append {line : Nat → String} (h : SteadyLine line) {u : String}
    (hu : '\n' ∉ u.toList) : SteadyLine fun width => line width ++ u := by
  obtain ⟨ls, hne, hwrite⟩ := h
  obtain ⟨ls, l, rfl⟩ := (List.eq_nil_or_concat' ls).resolve_left hne
  refine ⟨ls ++ [l.append u hu], by simp, fun width => ?_⟩
  dsimp only
  rw [writeAll_append, hwrite]

/-- A line that is not empty stands one unit further in, and an empty one stays. -/
theorem SteadyLine.indentLine {line : Nat → String} (h : SteadyLine line) :
    SteadyLine fun width => SqlXml.indentLine (spaces width) (line width) := by
  obtain ⟨ls, hne, hwrite⟩ := h
  obtain ⟨l, ls, rfl⟩ := List.exists_cons_of_ne_nil hne
  by_cases hempty : ls = [] ∧ l.depth = 0 ∧ l.text = ""
  · obtain ⟨rfl, hdepth, htext⟩ := hempty
    refine ⟨[l], hne, fun width => ?_⟩
    simp [hwrite, SqlXml.indentLine, writeAll, DeepLine.write, hdepth, htext]
  · refine ⟨l.deeper :: ls, List.cons_ne_nil _ _, fun width => ?_⟩
    dsimp only
    rw [writeAll_deeper, hwrite, SqlXml.indentLine]
    split
    · next hline =>
      -- a line in some units of spaces is empty only if units have none
      obtain ⟨rfl, hspaces, htext⟩ := writeAll_eq_empty.1 hline
      have hdepth : l.depth ≠ 0 := fun hdepth => hempty ⟨rfl, hdepth, htext⟩
      obtain rfl : width = 0 := (Nat.mul_eq_zero.1 hspaces).resolve_left hdepth
      rw [hline, spaces_zero, String.empty_append]
    · rfl

namespace SteadyLines

variable {lines lines' : Nat → List String}

theorem append (h : SteadyLines lines) (h' : SteadyLines lines') :
    SteadyLines fun width => lines width ++ lines' width := by
  induction h with
  | nil => exact h'
  | cons hline _ ih => exact .cons hline ih

theorem single (s : String) : SteadyLines fun _ => [s] := .cons (steadyLine_const s) .nil

theorem const (ls : List String) : SteadyLines fun _ => ls := by
  induction ls with
  | nil => exact .nil
  | cons l ls ih => exact .cons (steadyLine_const l) ih

theorem indented (h : SteadyLines lines) :
    SteadyLines fun width => SqlXml.indented (spaces width) (lines width) := by
  induction h with
  | nil => exact .nil
  | cons hline _ ih => exact .cons hline.indentLine ih

theorem onLast (h : SteadyLines lines) {u : String} (hu : '\n' ∉ u.toList) :
    SteadyLines fun width => SqlXml.onLast (· ++ u) (lines width) := by
  induction h with
  | nil => exact .nil
  | cons hline hlines ih =>
    cases hlines with
    | nil => exact .cons (hline.append hu) .nil
    | cons hline' hlines' => exact .cons hline ih

theorem commaList {items : List (Nat → List String)} (h : ∀ item ∈ items, SteadyLines item) :
    SteadyLines fun width => SqlXml.commaList (spaces width) (items.map (· width)) := by
  induction items with
  | nil => exact .nil
  | cons item items ih =>
    obtain ⟨hitem, hitems⟩ := List.forall_mem_cons.1 h
    cases items with
    | nil => exact hitem.indented
    | cons item' items => exact ((hitem.onLast (by decide)).indented).append (ih hitems)

end SteadyLines

theorem Headed.steadyLines {lines : Nat → List String} (h : Headed lines) : SteadyLines lines := by
  obtain ⟨line, hlines⟩ := h
  exact .cons (steadyLine_const line) hlines

/-! ## What the backend writes -/

theorem headed_element (name : String) {content : List (Nat → List String)}
    (h : ∀ item ∈ content, SteadyLines item) :
    Headed fun width => element (spaces width) name (content.map (· width)) := by
  cases content with
  | nil => exact .head _ .nil
  | cons item items => exact .head _ ((SteadyLines.commaList h).append (.single ")"))

theorem steadyLines_resultColumn {xml : Nat → List String} (h : Headed xml) (largeChar : Bool)
    {column : String} (hcolumn : '\n' ∉ column.toList) :
    SteadyLines fun width => resultColumn (xml width) largeChar column := by
  have has : '\n' ∉ (" as " ++ column).toList := by simp [hcolumn]
  cases largeChar with
  | false => exact h.steadyLines.onLast has
  | true =>
    obtain ⟨line, hlines⟩ := h
    have hserialized := Headed.head ("xmlserialize(content " ++ line) hlines
    exact (hserialized.steadyLines.onLast (by decide)).onLast has

theorem SteadyText.lines {text : Nat → String} (h : SteadyText text) :
    SteadyLines fun width => Text.lines (text width) := by
  obtain ⟨ls, last, hlast, hwrite⟩ := h
  have hdeep (ls : List DeepLine) : SteadyLines fun width => ls.map (·.write width) := by
    induction ls with
    | nil => exact .nil
    | cons l ls ih => exact .cons ⟨[l], by simp, fun width => by simp [writeAll]⟩ ih
  simp only [hwrite, lines_writeAll _ ls hlast]
  exact hdeep _

theorem SteadyLines.exists_blocks {lines : Nat → List String} (h : SteadyLines lines) :
    ∃ blocks : List (List DeepLine), [] ∉ blocks ∧
      ∀ width, lines width = blocks.map (writeAll width) := by
  induction h with
  | nil => exact ⟨[], List.not_mem_nil, fun _ => rfl⟩
  | cons hline _ ih =>
    obtain ⟨ls, hne, hwrite⟩ := hline
    obtain ⟨blocks, hblocks, hlines⟩ := ih
    refine ⟨ls :: blocks, by simp [hne.symm, hblocks], fun width => ?_⟩
    dsimp only
    rw [hwrite, hlines, List.map_cons]

/-- The clauses at the end of a query are not indented. -/
theorem steadyText_joinLines {lines : Nat → List String} (h : SteadyLines lines)
    {clauses : List String} (hne : clauses ≠ []) :
    SteadyText fun width => joinLines (lines width ++ clauses) := by
  obtain ⟨clauses, clause, rfl⟩ := (List.eq_nil_or_concat' clauses).resolve_left hne
  obtain ⟨blocks, hblocks, hlines⟩ := (h.append (.const clauses)).exists_blocks
  obtain ⟨block, hblock, hflat, hwrite⟩ := exists_writeAll clause
  obtain ⟨block, last, rfl⟩ := (List.eq_nil_or_concat' block).resolve_left hblock
  refine ⟨blocks.flatten ++ block, last, hflat last (by simp), fun width => ?_⟩
  have hall : [] ∉ blocks ++ [block ++ [last]] := by simp [hblocks]
  have htext := writeAll_flatten width hall
  simp only [List.flatten_append, List.flatten_singleton, List.map_append, List.map_singleton,
    hwrite, ← hlines] at htext
  dsimp only
  rw [List.append_assoc, htext, joinLines, List.append_assoc]

theorem steadyLines_subquery {text : Nat → String} (h : SteadyText text) :
    SteadyLines fun width => subquery (spaces width) (text width) :=
  (SteadyLines.single "(").append (h.lines.indented.append (.single ")"))

/-- A rows query around embedded queries of which each is steady. -/
theorem steadyText_rowsLines (q : RowsParts) (hcolumn : '\n' ∉ q.column.toList)
    {parents children : List (Nat → String)} (hparents : ∀ text ∈ parents, SteadyText text)
    (hchildren : ∀ text ∈ children, SteadyText text) :
    SteadyText fun width => joinLines (RowsParts.lines (spaces width)
      { q with parents := parents.map (· width), children := children.map (· width) }) := by
  let fixed : List (Nat → List String) :=
    (namespaceContent q.ns ++ forest q.name q.xmlFields).map fun item _ => item
  let queries : List (Nat → List String) :=
    (parents ++ children).map fun text width => subquery (spaces width) (text width)
  have hcontent : ∀ item ∈ fixed ++ queries, SteadyLines item := by
    intro item hitem
    rcases List.mem_append.1 hitem with hitem | hitem
    · obtain ⟨item, -, rfl⟩ := List.mem_map.1 hitem
      exact .const item
    · obtain ⟨text, htext, rfl⟩ := List.mem_map.1 hitem
      apply steadyLines_subquery
      exact (List.mem_append.1 htext).elim (hparents text) (hchildren text)
  have hxml := steadyLines_resultColumn (headed_element q.rowName hcontent) q.largeChar hcolumn
  let plain : List (Nat → List String) :=
    q.selectFields.map fun field _ => [q.name ++ "." ++ field]
  have hcolumns : SteadyLines fun width => commaList (spaces width)
      ((plain ++ [fun width => resultColumn (element (spaces width) q.rowName
        ((fixed ++ queries).map (· width))) q.largeChar q.column]).map (· width)) := by
    refine .commaList fun item hitem => ?_
    rcases List.mem_append.1 hitem with hitem | hitem
    · obtain ⟨field, -, rfl⟩ := List.mem_map.1 hitem
      exact .single _
    · obtain rfl := List.mem_singleton.1 hitem
      exact hxml
  have hclauses : ["from " ++ q.relation ++ " " ++ q.name] ++ tail q.filter q.orderBy ≠ [] := by
    simp
  have htext := steadyText_joinLines ((SteadyLines.single "select").append hcolumns) hclauses
  simpa [RowsParts.lines, fixed, queries, plain, Function.comp_def] using htext

/-- A group around a steady rows query. -/
theorem steadyText_groupLines (q : GroupParts) (hcolumn : '\n' ∉ q.column.toList)
    {rowsQuery : Nat → String} (h : SteadyText rowsQuery) :
    SteadyText fun width => joinLines (GroupParts.lines (spaces width)
      { q with rowsQuery := rowsQuery width }) := by
  have hgroup {xml : Nat → List String} (hxml : Headed xml) :
      SteadyText fun width => joinLines
        ("select" :: indented (spaces width) (resultColumn (xml width) q.largeChar q.column) ++
          ["from ("] ++ indented (spaces width) (Text.lines (rowsQuery width)) ++
          [") " ++ q.name] ++ tail q.filter []) := by
    have hvalue := (steadyLines_resultColumn hxml q.largeChar hcolumn).indented
    have hfrom := (SteadyLines.single "from (").append h.lines.indented
    have hclauses : [") " ++ q.name] ++ tail q.filter [] ≠ [] := by simp
    have htext := steadyText_joinLines
      (((SteadyLines.single "select").append hvalue).append hfrom) hclauses
    simpa using htext
  cases hw : q.wrapper with
  | none =>
    simpa [GroupParts.lines, hw] using hgroup (.head (aggregate q.name q.orderBy) .nil)
  | some wrapper =>
    let content : List (Nat → List String) :=
      (namespaceContent wrapper.2 ++ [[aggregate q.name q.orderBy]]).map fun item _ => item
    have hcontent : ∀ item ∈ content, SteadyLines item := by
      intro item hitem
      obtain ⟨item, -, rfl⟩ := List.mem_map.1 hitem
      exact .const item
    simpa [GroupParts.lines, hw, content, Function.comp_def] using
      hgroup (headed_element wrapper.1 hcontent)

end SqlXml

/-! ## Plans -/

open SqlXml

theorem Group.steadyText_sql {g : GroupPlan}
    (h : SteadyText fun width => g.rows.sql (spaces width)) :
    SteadyText fun width => g.sql (spaces width) := by
  have hcolumn : '\n' ∉ collectionXmlColumn.toList := by decide
  exact steadyText_groupLines (g.info.parts "") hcolumn h

theorem RowsPlan.steadyText_sql (q : RowsPlan) : SteadyText fun width => q.sql (spaces width) := by
  induction q with
  | rows info parents children ihParents ihChildren =>
    have hparents : ∀ text ∈ parents.map fun q width => q.sql (spaces width), SteadyText text := by
      simpa using ihParents
    have hchildren : ∀ text ∈ children.map fun g width => Group.sql (spaces width) g,
        SteadyText text := by
      intro text htext
      obtain ⟨g, hg, rfl⟩ := List.mem_map.1 htext
      exact Group.steadyText_sql (ihChildren g hg)
    have hcolumn : '\n' ∉ rowXmlColumn.toList := by decide
    have htext := steadyText_rowsLines (info.parts (info.columns.getD []) [] []) hcolumn hparents
      hchildren
    simpa [RowsPlan.sql_rows, RowsInfo.parts, Function.comp_def] using htext

/-- With any width the result fails alike, or it has the lines of `flat`, the result for width zero,
each in `depth * width` spaces for some depth of its own. -/
def OnlyIndents (result : Nat → Except PublishError String) : Prop :=
  (∃ e, ∀ width, result width = .error e) ∨
    ∃ flat depths, result 0 = .ok flat ∧ depths.length = (splitOn '\n' flat).length ∧
      ∀ width, ∃ text, result width = .ok text ∧
        splitOn '\n' text =
          List.zipWith (fun depth line => spaces (depth * width) ++ line) depths (splitOn '\n' flat)

theorem onlyIndents_unlessUnknown (unknown : List RelationId) {text : Nat → String}
    (h : SteadyText text) : OnlyIndents fun width => unlessUnknown unknown (text width) := by
  cases unknown with
  | cons r rs => exact .inl ⟨_, fun _ => rfl⟩
  | nil =>
    obtain ⟨ls, last, -, hwrite⟩ := h
    have hlines (width : Nat) : splitOn '\n' (text width) = (ls ++ [last]).map (·.write width) := by
      rw [hwrite, splitOn_writeAll width (by simp)]
    refine .inr ⟨text 0, (ls ++ [last]).map (·.depth), rfl, by simp [hlines], fun width => ?_⟩
    refine ⟨text width, rfl, ?_⟩
    rw [hlines, hlines, List.zipWith_map, List.zipWith_self]
    simp [DeepLine.write]

section

variable {p : Nat → Publisher} (hp : ∀ indent, (p indent).backend = SqlXml.backend indent)
include hp

theorem RowsPlan.onlyIndents_text (q : RowsPlan) :
    OnlyIndents fun indent => q.text (p indent).render := by
  simp only [fun indent => q.text_eq_sql (hp indent)]
  exact onlyIndents_unlessUnknown q.unknown q.steadyText_sql

theorem Group.onlyIndents_text (g : GroupPlan) :
    OnlyIndents fun indent => g.text (p indent).render := by
  simp only [fun indent => g.text_eq_sql (hp indent)]
  exact onlyIndents_unlessUnknown g.rows.unknown (Group.steadyText_sql g.rows.steadyText_sql)

end

/-- The width that queries are indented with changes them at the starts of lines only. -/
theorem Publisher.only_indents (s : Schema) (options : QueryOptions) (n : Layout)
    (name? filter ambient : Option String) :
    ∃ p : Nat → Publisher,
      (∀ indent, Publisher.ofSchema? (some s) none { options with indent } = .ok (p indent)) ∧
      (∀ columns, OnlyIndents fun indent => (p indent).rows n name? filter columns ambient) ∧
      (∀ xmlType, OnlyIndents fun indent => (p indent).collection n name? filter xmlType ambient) ∧
      OnlyIndents fun indent => (p indent).forest n name? filter ambient := by
  let p (indent : Nat) : Publisher := ⟨s, SqlXml.backend indent, { options with indent }⟩
  have hp (indent : Nat) : (p indent).backend = SqlXml.backend indent := rfl
  -- the plans do not depend on the width
  let planner : Planner := ⟨s, options.childSideOnLeft⟩
  refine ⟨p, fun _ => rfl, fun columns => ?_, fun xmlType => ?_, ?_⟩
  · exact (planner.topRows n name? filter columns ambient).onlyIndents_text hp
  · exact (planner.topGroup n name? filter xmlType ambient .wrapped).onlyIndents_text hp
  · exact (planner.topGroup n name? filter .xml ambient .inline).onlyIndents_text hp

end XmlPublishing

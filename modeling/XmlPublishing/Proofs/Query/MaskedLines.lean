import Mathlib.Data.List.Forall2
import XmlPublishing.Proofs.Text.QuotedLines
import XmlPublishing.Query.SqlXml

/-!
Standard SQL/XML text outside of its quotes.

Quoted names and namespaces stand in lines that are indented, extended at their ends, joined, and
cut again where queries are nested, and these steps do not look at quotes. None of them lets what
is quoted change the rest: lines that differ only inside of quotes do so after every step.
-/

namespace XmlPublishing

open Text

namespace SqlXml

/-! ## Indentation -/

/-- The tape with `unit` at the start of each line that is not empty; `b` says whether one starts
here. -/
def indentTape (unit : List Char) : Bool → List (Option Char) → List (Option Char)
  | _, [] => []
  | _, none :: t => none :: indentTape unit true t
  | b, some c :: t => (if b then unit.map some else []) ++ some c :: indentTape unit false t

theorem indentTape_line (unit cs : List Char) (t : List (Option Char)) :
    indentTape unit false (cs.map some ++ none :: t) =
      cs.map some ++ none :: indentTape unit true t := by
  induction cs with
  | nil => rfl
  | cons c cs ih =>
    rw [List.map_cons, List.cons_append, indentTape, ih]
    rfl

theorem tape_indented (unit : String) (lines : List String) :
    tape (indented unit lines) = indentTape unit.toList true (tape lines) := by
  induction lines with
  | nil => rfl
  | cons line lines ih =>
    rw [indented, List.map_cons, tape_cons, tape_cons, ← indented, ih, indentLine]
    cases hline : line.toList with
    | nil =>
      rw [if_pos (String.toList_eq_nil_iff.1 hline), hline]
      rfl
    | cons c cs =>
      have hne : line ≠ "" := fun h => by
        rw [h] at hline
        cases hline
      rw [if_neg hne, String.toList_append, hline, List.map_append, List.map_cons, List.cons_append,
        indentTape, indentTape_line, List.append_assoc]
      rfl

section

variable {unit : List Char} {σ : QuoteState} {b : Bool} {t : List (Option Char)}

/-- Indentation is masked where it stands inside of quotes, and kept elsewhere. -/
theorem mask_unit (hunit : ∀ c ∈ unit, isQuote c = false) (hb : σ.CanStart b) :
    mask symbol σ ((if b then unit.map some else []) ++ t) =
        (if b && σ.isClosed then unit.map some else []) ++ mask symbol σ t ∧
      scan symbol σ ((if b then unit.map some else []) ++ t) = scan symbol σ t := by
  have hunit : ∀ x ∈ unit.map some, isQuote (symbol x) = false := by
    intro x hx
    obtain ⟨c, hc, rfl⟩ := List.mem_map.1 hx
    exact hunit c hc
  cases b with
  | false => exact ⟨rfl, rfl⟩
  | true =>
    cases σ with
    | outside =>
      rw [if_pos rfl, mask_append, scan_append, mask_eq_self rfl hunit, scan_outside hunit]
      exact ⟨rfl, rfl⟩
    | inside q =>
      rw [if_pos rfl, mask_append, scan_append, mask_inside hunit, scan_inside hunit]
      exact ⟨rfl, rfl⟩
    | after q => exact absurd rfl (hb rfl q)

/-- Indenting and masking can be exchanged. -/
theorem mask_indentTape (hunit : ∀ c ∈ unit, isQuote c = false) (hb : σ.CanStart b) :
    mask symbol σ (indentTape unit b t) = indentTape unit (b && σ.isClosed) (mask symbol σ t) ∧
      scan symbol σ (indentTape unit b t) = scan symbol σ t := by
  induction t generalizing σ b with
  | nil => exact ⟨rfl, rfl⟩
  | cons x t ih =>
    cases x with
    | none =>
      rw [indentTape]
      by_cases hσ : σ.isClosed
      · have hstart : QuoteState.CanStart true .outside := nofun
        obtain ⟨hmask, hscan⟩ := ih hstart
        rw [mask_cons_of_isClosed hσ rfl, mask_cons_of_isClosed hσ rfl,
          scan_cons_of_isClosed hσ rfl, scan_cons_of_isClosed hσ rfl, hmask, indentTape]
        exact ⟨rfl, hscan⟩
      · obtain ⟨q, rfl⟩ := QuoteState.exists_inside_of_not_isClosed hσ
        have hstart : QuoteState.CanStart true (.inside q) := nofun
        obtain ⟨hmask, hscan⟩ := ih hstart
        rw [mask_cons_inside rfl, mask_cons_inside rfl, scan_cons_inside rfl, scan_cons_inside rfl,
          hmask, QuoteState.isClosed, Bool.and_false, Bool.and_false]
        exact ⟨rfl, hscan⟩
    | some c =>
      obtain ⟨hmask, hscan⟩ := ih (QuoteState.canStart_false (σ.next c))
      obtain ⟨hunit, hscanUnit⟩ := mask_unit (t := some c :: indentTape unit false t) hunit hb
      rw [indentTape, hunit, hscanUnit]
      refine ⟨?_, hscan⟩
      by_cases hk : σ.keeps c
      · have hcons (u : List (Option Char)) :
            mask symbol σ (some c :: u) = some c :: mask symbol (σ.next c) u :=
          mask_cons_of_keeps hk
        rw [hcons, hcons, hmask, indentTape]
        rfl
      · have hcons (u : List (Option Char)) :
            mask symbol σ (some c :: u) = mask symbol (σ.next c) u :=
          mask_cons_of_not_keeps hk
        rw [hcons, hcons, hmask, hb.and_isClosed_of_not_keeps hk]
        rfl

end

end SqlXml

namespace Text.SameLines

variable {ls ls' : List String} {unit : String}

theorem indented (hunit : QuoteFree unit) (h : SameLines ls ls') :
    SameLines (SqlXml.indented unit ls) (SqlXml.indented unit ls') := by
  have hindent (t : List (Option Char)) :
      mask symbol .outside (SqlXml.indentTape unit.toList true t) =
          SqlXml.indentTape unit.toList true (mask symbol .outside t) ∧
        scan symbol .outside (SqlXml.indentTape unit.toList true t) = scan symbol .outside t :=
    SqlXml.mask_indentTape hunit nofun
  constructor
  · rw [SqlXml.tape_indented, SqlXml.tape_indented, (hindent _).1, (hindent _).1, h.mask_eq]
  · rw [SqlXml.tape_indented, (hindent _).2, h.closed]
  · rw [SqlXml.tape_indented, (hindent _).2, h.closed']

/-! ## First and last lines -/

/-- Up to the end of the last line nothing is open, either. -/
theorem mask_append_end {t : List (Option Char)}
    (h : scan symbol .outside (t ++ [none]) = .outside) :
    (scan symbol .outside t).isClosed ∧
      mask symbol .outside (t ++ [none]) = mask symbol .outside t ++ [none] := by
  rw [scan_append] at h
  have hclosed : (scan symbol .outside t).isClosed := by
    refine QuoteState.isClosed_of_next (c := '\n') rfl ?_
    exact congrArg QuoteState.isClosed h
  rw [mask_append, mask_cons_of_isClosed hclosed rfl]
  exact ⟨hclosed, rfl⟩

theorem exists_tape_onLast {lines : List String} (hne : lines ≠ []) (u : String) :
    ∃ t, tape lines = t ++ [none] ∧
      tape (SqlXml.onLast (· ++ u) lines) = t ++ (u.toList.map some ++ [none]) := by
  induction lines with
  | nil => exact absurd rfl hne
  | cons line lines ih =>
    cases lines with
    | nil =>
      refine ⟨line.toList.map some, tape_cons line [], ?_⟩
      rw [SqlXml.onLast, tape_cons, String.toList_append, List.map_append, List.append_assoc]
      rfl
    | cons line' lines =>
      obtain ⟨t, ht, hlast⟩ := ih (List.cons_ne_nil line' lines)
      refine ⟨line.toList.map some ++ none :: t, ?_, ?_⟩
      · rw [tape_cons, ht, List.append_assoc, List.cons_append]
      · rw [SqlXml.onLast, tape_cons, hlast, List.append_assoc, List.cons_append]
        nofun

theorem nil_iff (h : SameLines ls ls') : ls = [] ↔ ls' = [] := by
  have hnil {ms : List String} (hne : ms ≠ []) (hms : scan symbol .outside (tape ms) = .outside) :
      mask symbol .outside (tape ms) ≠ [] := by
    obtain ⟨t, ht, -⟩ := exists_tape_onLast hne ""
    rw [ht] at hms ⊢
    rw [(mask_append_end hms).2]
    exact List.append_ne_nil_of_right_ne_nil _ (List.cons_ne_nil none [])
  constructor
  · rintro rfl
    exact Decidable.byContradiction fun hne => hnil hne h.closed' h.mask_eq.symm
  · rintro rfl
    exact Decidable.byContradiction fun hne => hnil hne h.closed h.mask_eq

theorem onLast {u : String} (hu : QuoteFree u) (h : SameLines ls ls') :
    SameLines (SqlXml.onLast (· ++ u) ls) (SqlXml.onLast (· ++ u) ls') := by
  by_cases hne : ls = []
  · obtain rfl := h.nil_iff.1 hne
    rw [hne] at h ⊢
    exact h
  have hu : ∀ x ∈ u.toList.map some ++ [none], isQuote (symbol x) = false := by
    intro x hx
    rcases List.mem_append.1 hx with hx | hx
    · obtain ⟨c, hc, rfl⟩ := List.mem_map.1 hx
      exact hu c hc
    · obtain rfl := List.mem_singleton.1 hx
      rfl
  have hend {t : List (Option Char)} (ht : (scan symbol .outside t).isClosed) :
      mask symbol .outside (t ++ (u.toList.map some ++ [none])) =
          mask symbol .outside t ++ (u.toList.map some ++ [none]) ∧
        scan symbol .outside (t ++ (u.toList.map some ++ [none])) = .outside := by
    rw [mask_append, scan_append, mask_eq_self ht hu,
      scan_of_isClosed ht hu (List.append_ne_nil_of_right_ne_nil _ (List.cons_ne_nil none []))]
    exact ⟨rfl, rfl⟩
  obtain ⟨t, ht, hlast⟩ := exists_tape_onLast hne u
  obtain ⟨t', ht', hlast'⟩ := exists_tape_onLast (mt h.nil_iff.2 hne) u
  obtain ⟨hmask, hclosed, hclosed'⟩ := h
  rw [ht] at hmask hclosed
  rw [ht'] at hmask hclosed'
  obtain ⟨hopen, hmask₁⟩ := mask_append_end hclosed
  obtain ⟨hopen', hmask₂⟩ := mask_append_end hclosed'
  rw [hmask₁, hmask₂] at hmask
  constructor
  · rw [hlast, hlast', (hend hopen).1, (hend hopen').1, List.append_cancel_right hmask]
  · rw [hlast, (hend hopen).2]
  · rw [hlast', (hend hopen').2]

theorem onFirst {u : String} (hu : QuoteFree u) (h : SameLines ls ls') :
    SameLines (SqlXml.onFirst (u ++ ·) ls) (SqlXml.onFirst (u ++ ·) ls') := by
  have hu : ∀ x ∈ u.toList.map some, isQuote (symbol x) = false := by
    intro x hx
    obtain ⟨c, hc, rfl⟩ := List.mem_map.1 hx
    exact hu c hc
  cases ls with
  | nil =>
    obtain rfl := h.nil_iff.1 rfl
    exact h
  | cons l ls =>
    cases ls' with
    | nil => cases h.nil_iff.2 rfl
    | cons l' ls' =>
      rw [SqlXml.onFirst, SqlXml.onFirst]
      constructor
      · rw [tape_append_cons, tape_append_cons, mask_append, mask_append, scan_outside hu,
          h.mask_eq]
      · rw [tape_append_cons, scan_append, scan_outside hu, h.closed]
      · rw [tape_append_cons, scan_append, scan_outside hu, h.closed']

/-! ## Lines as text -/

theorem map_symbol_tape {lines : List String} (hne : lines ≠ []) :
    (tape lines).map symbol = (SqlXml.joinLines lines).toList ++ ['\n'] := by
  induction lines with
  | nil => exact absurd rfl hne
  | cons line lines ih =>
    rw [tape_cons, List.map_append, List.map_cons, map_symbol_some, SqlXml.joinLines]
    cases lines with
    | nil => rfl
    | cons line' lines =>
      rw [ih (List.cons_ne_nil line' lines), String.intercalate_cons_cons, String.toList_append,
        String.toList_append, List.append_assoc, List.append_assoc]
      rfl

theorem closed_joinLines {lines : List String} (hne : lines ≠ [])
    (h : scan symbol .outside (tape lines) = .outside) :
    Closed (SqlXml.joinLines lines) ∧
      (mask symbol .outside (tape lines)).map symbol =
        mask id .outside (SqlXml.joinLines lines).toList ++ ['\n'] := by
  have hscan : scan id .outside ((tape lines).map symbol) = .outside := (scan_map symbol).trans h
  have hmask : mask id .outside ((tape lines).map symbol) =
      (mask symbol .outside (tape lines)).map symbol := mask_map symbol
  rw [map_symbol_tape hne] at hscan hmask
  rw [scan_append] at hscan
  have hclosed : Closed (SqlXml.joinLines lines) := by
    refine QuoteState.isClosed_of_next (c := '\n') rfl ?_
    exact congrArg QuoteState.isClosed hscan
  rw [← hmask, mask_append, mask_cons_of_isClosed hclosed rfl]
  exact ⟨hclosed, rfl⟩

/-- Lines that differ only inside of quotes do so as a text. -/
theorem joinLines (h : SameLines ls ls') :
    SameText (SqlXml.joinLines ls) (SqlXml.joinLines ls') := by
  by_cases hne : ls = []
  · obtain rfl := h.nil_iff.1 hne
    rw [hne]
    exact .refl rfl
  obtain ⟨hclosed, hmask⟩ := closed_joinLines hne h.closed
  obtain ⟨hclosed', hmask'⟩ := closed_joinLines (mt h.nil_iff.2 hne) h.closed'
  rw [h.mask_eq, hmask'] at hmask
  exact ⟨congrArg String.ofList (List.append_cancel_right hmask).symm, hclosed, hclosed'⟩

/-- Whatever lines follow on both sides, quotes in them included, they are masked alike. -/
theorem masked_joinLines_append (h : SameLines ls ls') (ms : List String) :
    masked (SqlXml.joinLines (ls ++ ms)) = masked (SqlXml.joinLines (ls' ++ ms)) := by
  by_cases hne : ls = []
  · obtain rfl := h.nil_iff.1 hne
    rw [hne]
  by_cases hms : ms = []
  · rw [hms, List.append_nil, List.append_nil]
    exact h.joinLines.masked_eq
  · have hfeed : QuoteFree "\n" := by decide
    have hjoin := h.joinLines.append hfeed
    have houtside {s : String} (hs : Closed s) :
        scan id .outside (s ++ "\n").toList = .outside := by
      rw [String.toList_append, scan_append]
      exact scan_of_isClosed hs hfeed (List.cons_ne_nil _ _)
    have happend {s : String} (hs : Closed s) (u : String) :
        masked (s ++ "\n" ++ u) =
          String.ofList (mask id .outside (s ++ "\n").toList ++ mask id .outside u.toList) := by
      rw [masked, String.toList_append, mask_append, houtside hs]
    have hsplit {lines : List String} (hlines : lines ≠ []) : SqlXml.joinLines (lines ++ ms) =
        SqlXml.joinLines lines ++ "\n" ++ SqlXml.joinLines ms :=
      String.intercalate_append_of_ne_nil hlines hms
    rw [hsplit hne, hsplit (mt h.nil_iff.2 hne), happend h.joinLines.closed,
      happend h.joinLines.closed', hjoin.mask_eq]

end Text.SameLines

/-! ## What the backend writes -/

namespace SqlXml

variable {unit : String}

theorem sameLines_commaList (hunit : QuoteFree unit) {items items' : List (List String)}
    (h : List.Forall₂ SameLines items items') :
    SameLines (commaList unit items) (commaList unit items') := by
  induction h with
  | nil => exact .refl nofun
  | cons hitem hrest ih =>
    cases hrest with
    | nil => exact hitem.indented hunit
    | cons hitem' hrest' => exact ((hitem.onLast (by decide)).indented hunit).append ih

/-- The name of an element does not change its lines outside of quotes. -/
theorem sameLines_element (hunit : QuoteFree unit) (name name' : String)
    {content content' : List (List String)} (h : List.Forall₂ SameLines content content') :
    SameLines (element unit name content) (element unit name' content') := by
  have hname : SameText (identifier name) (identifier name') := .quoted .double name name'
  have hhead : SameText ("xmlelement(name " ++ identifier name)
      ("xmlelement(name " ++ identifier name') := hname.prepend (by decide)
  cases h with
  | nil => exact .singleton (hhead.append (by decide))
  | cons hitem hrest =>
    have hopen := SameLines.singleton (hhead.append (u := ",") (by decide))
    have hlines := sameLines_commaList hunit (.cons hitem hrest)
    exact hopen.append (hlines.append (.line (by decide)))

theorem sameLines_subquery (hunit : QuoteFree unit) {query query' : String}
    (h : SameText query query') : SameLines (subquery unit query) (subquery unit query') := by
  have hlines := h.lines.indented hunit
  exact (SameLines.line (by decide)).append (hlines.append (.line (by decide)))

theorem sameLines_resultColumn {xml xml' : List String} (h : SameLines xml xml') (largeChar : Bool)
    {column : String} (hcolumn : QuoteFree column) :
    SameLines (resultColumn xml largeChar column) (resultColumn xml' largeChar column) := by
  have has : QuoteFree (" as " ++ column) := by simp +decide [hcolumn]
  cases largeChar with
  | false => exact h.onLast has
  | true => exact ((h.onFirst (by decide)).onLast (by decide)).onLast has

theorem closed_namespaceContent (ns : Option String) :
    ∀ item ∈ namespaceContent ns, ∀ line ∈ item, Closed line := by
  cases ns with
  | none => nofun
  | some ns =>
    intro item hitem line hline
    obtain rfl := List.mem_singleton.1 hitem
    obtain rfl := List.mem_singleton.1 hline
    exact ((closed_quoted .single ns).prepend (by decide)).append (by decide)

theorem closed_forest {name : String} (hname : QuoteFree name) {fields : List String}
    (hfields : ∀ field ∈ fields, QuoteFree field) :
    ∀ item ∈ forest name fields, ∀ line ∈ item, Closed line := by
  rw [forest]
  split
  · nofun
  intro item hitem line hline
  obtain rfl := List.mem_singleton.1 hitem
  obtain rfl := List.mem_singleton.1 hline
  refine (Closed.prepend (by decide) (.intercalate (by decide) (by decide)
    fun piece hpiece => ?_)).append (by decide)
  obtain ⟨field, hfield, rfl⟩ := List.mem_map.1 hpiece
  have hcolumn : QuoteFree (name ++ "." ++ field ++ " as ") := by
    simp +decide [hname, hfields field hfield]
  exact (closed_quoted .double (lower field)).prepend hcolumn

theorem quoteFree_aggregate {name : String} (hname : QuoteFree name) {orderBy : List String}
    (horder : ∀ term ∈ orderBy, QuoteFree term) : QuoteFree (aggregate name orderBy) := by
  have hterms : QuoteFree (", ".intercalate orderBy) := .intercalate (by decide) horder
  rw [aggregate]
  split <;> simp +decide [hname, hterms]

theorem closed_tail {filter : Option String} (hfilter : ∀ f ∈ filter, QuoteFree f)
    {orderBy : List String} (horder : ∀ term ∈ orderBy, QuoteFree term) :
    ∀ line ∈ tail filter orderBy, Closed line := by
  have hterms : QuoteFree (", ".intercalate orderBy) := .intercalate (by decide) horder
  intro line hline
  rcases List.mem_append.1 hline with hline | hline
  · cases filter with
    | none => cases hline
    | some filter =>
      obtain rfl := List.mem_singleton.1 hline
      exact (hfilter filter rfl).closed.prepend (by decide)
  · split at hline
    · cases hline
    · obtain rfl := List.mem_singleton.1 hline
      exact hterms.closed.prepend (by decide)

/-- The texts differ only inside of quotes up to the clauses, which both have at their end. -/
def SameBefore (clauses : List String) (t t' : String) : Prop :=
  ∃ ls ls', SameLines ls ls' ∧ t = joinLines (ls ++ clauses) ∧ t' = joinLines (ls' ++ clauses)

variable {clauses : List String} {t t' : String}

theorem SameBefore.masked_eq (h : SameBefore clauses t t') : masked t = masked t' := by
  obtain ⟨ls, ls', hsame, rfl, rfl⟩ := h
  exact hsame.masked_joinLines_append clauses

theorem SameBefore.sameText (h : SameBefore clauses t t')
    (hclauses : ∀ line ∈ clauses, Closed line) : SameText t t' := by
  obtain ⟨ls, ls', hsame, rfl, rfl⟩ := h
  exact (hsame.append (.refl hclauses)).joinLines

/-- Neither the name of a row element nor names inside the embedded queries change a rows query
outside of quotes. -/
theorem sameBefore_rowsLines (hunit : QuoteFree unit) {q : RowsParts}
    (hrelation : QuoteFree q.relation) (hname : QuoteFree q.name) (hcolumn : QuoteFree q.column)
    (hselect : ∀ field ∈ q.selectFields, QuoteFree field)
    (hfields : ∀ field ∈ q.xmlFields, QuoteFree field) (rowName : String)
    {parents children : List String} (hparents : List.Forall₂ SameText q.parents parents)
    (hchildren : List.Forall₂ SameText q.children children) :
    SameBefore (tail q.filter q.orderBy) (joinLines (q.lines unit))
      (joinLines (RowsParts.lines unit { q with rowName, parents, children })) := by
  have hfixed : List.Forall₂ SameLines (namespaceContent q.ns ++ forest q.name q.xmlFields)
      (namespaceContent q.ns ++ forest q.name q.xmlFields) := by
    refine List.forall₂_same.2 fun item hitem => .refl fun line hline => ?_
    rcases List.mem_append.1 hitem with hitem | hitem
    · exact closed_namespaceContent q.ns item hitem line hline
    · exact closed_forest hname hfields item hitem line hline
  have hqueries : List.Forall₂ SameLines ((q.parents ++ q.children).map (subquery unit))
      ((parents ++ children).map (subquery unit)) := by
    rw [List.forall₂_map_left_iff, List.forall₂_map_right_iff]
    exact (List.rel_append hparents hchildren).imp fun _ _ => sameLines_subquery hunit
  have helement := sameLines_element hunit q.rowName rowName (List.rel_append hfixed hqueries)
  have hxml := sameLines_resultColumn helement q.largeChar hcolumn
  have hplain : List.Forall₂ SameLines (q.selectFields.map fun field => [q.name ++ "." ++ field])
      (q.selectFields.map fun field => [q.name ++ "." ++ field]) := by
    refine List.forall₂_same.2 fun item hitem => ?_
    obtain ⟨field, hfield, rfl⟩ := List.mem_map.1 hitem
    exact .line (by simp +decide [hname, hselect field hfield])
  have hcolumns := sameLines_commaList hunit (List.rel_append hplain (.cons hxml .nil))
  have hfrom : SameLines ["from " ++ q.relation ++ " " ++ q.name]
      ["from " ++ q.relation ++ " " ++ q.name] := .line (by simp +decide [hrelation, hname])
  exact ⟨_, _, (SameLines.line (by decide)).append (hcolumns.append hfrom), rfl, rfl⟩

/-- The lines of a group around the lines `xml` of its value, up to its clauses. -/
theorem sameBefore_group (hunit : QuoteFree unit) {name column : String} (hname : QuoteFree name)
    (hcolumn : QuoteFree column) {xml xml' : List String} (hxml : SameLines xml xml')
    {rowsQuery rowsQuery' : String} (hrows : SameText rowsQuery rowsQuery') (largeChar : Bool)
    (clauses : List String) :
    SameBefore clauses
      (joinLines ("select" :: indented unit (resultColumn xml largeChar column) ++ ["from ("] ++
        indented unit (Text.lines rowsQuery) ++ [") " ++ name] ++ clauses))
      (joinLines ("select" :: indented unit (resultColumn xml' largeChar column) ++ ["from ("] ++
        indented unit (Text.lines rowsQuery') ++ [") " ++ name] ++ clauses)) := by
  have hvalue := (sameLines_resultColumn hxml largeChar hcolumn).indented hunit
  have htable := hrows.lines.indented hunit
  have hselect : SameLines ["select"] ["select"] := .line (by decide)
  have hfrom : SameLines ["from ("] ["from ("] := .line (by decide)
  have hend : SameLines [") " ++ name] [") " ++ name] := .line (by simp +decide [hname])
  exact ⟨_, _, (((hselect.append hvalue).append hfrom).append htable).append hend, rfl, rfl⟩

/-- Neither the name of the element around a group nor names inside its rows query change the group
outside of quotes. -/
theorem sameBefore_groupLines (hunit : QuoteFree unit) {q : GroupParts} (hname : QuoteFree q.name)
    (hcolumn : QuoteFree q.column) (horder : ∀ term ∈ q.orderBy, QuoteFree term)
    {rowsQuery : String} (hrows : SameText q.rowsQuery rowsQuery) (collectionName : String) :
    SameBefore (tail q.filter []) (joinLines (q.lines unit))
      (joinLines (GroupParts.lines unit
        { q with rowsQuery, wrapper := q.wrapper.map fun w => (collectionName, w.2) })) := by
  have helements : SameLines [aggregate q.name q.orderBy] [aggregate q.name q.orderBy] :=
    .line (quoteFree_aggregate hname horder)
  rw [GroupParts.lines, GroupParts.lines]
  cases q.wrapper with
  | none => exact sameBefore_group hunit hname hcolumn helements hrows q.largeChar _
  | some wrapper =>
    have hns : List.Forall₂ SameLines (namespaceContent wrapper.2) (namespaceContent wrapper.2) :=
      List.forall₂_same.2 fun item hitem => .refl (closed_namespaceContent wrapper.2 item hitem)
    have hxml := sameLines_element hunit wrapper.1 collectionName
      (List.rel_append hns (.cons helements .nil))
    exact sameBefore_group hunit hname hcolumn hxml hrows q.largeChar _

end SqlXml

end XmlPublishing

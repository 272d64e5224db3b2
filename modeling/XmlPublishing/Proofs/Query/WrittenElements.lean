import XmlPublishing.Proofs.Query.Reading

/-!
The calls that the standard backend writes, as they are read.

Lines spell some items (`Spells`) wherever they stand. The content of an element builds elements
(`BuildsContents`), and so does a call (`BuildsCall`), perhaps from those that the derived table of
the query builds; there is one lemma for each kind of call that is written. What is written outside
of quotes has to consist of words. All lemmas carry along what the quoted names have in common.
-/

namespace XmlPublishing.SqlXml

open Text

variable {P : String → Prop} {unit : String}

/-- The lines consist of these items, and `P` holds of all identifiers in them. -/
def Spells (P : String → Prop) (ls : List String) (items : List Item) : Prop :=
  ∃ ts, ReadsLines ls ts ∧ Nests ts items ∧ ∀ x, .name x ∈ ts → P x

namespace Spells

variable {ls ms : List String} {as bs : List Item}

theorem nil : Spells P [] [] := ⟨[], .nil, .nil, nofun⟩

theorem append (h : Spells P ls as) (h' : Spells P ms bs) : Spells P (ls ++ ms) (as ++ bs) := by
  obtain ⟨ts, hts, has, hP⟩ := h
  obtain ⟨us, hus, hbs, hP'⟩ := h'
  refine ⟨ts ++ us, hts.append hus, has.append hbs, fun x hx => ?_⟩
  rcases List.mem_append.1 hx with hx | hx
  · exact hP x hx
  · exact hP' x hx

theorem flatten {lss : List (List String)} {itemss : List (List Item)}
    (h : List.Forall₂ (Spells P) lss itemss) : Spells P lss.flatten itemss.flatten := by
  induction h with
  | nil => exact .nil
  | cons hitem _ ih => exact hitem.append ih

theorem indented (hunit : ∀ c ∈ unit.toList, c = ' ') (h : Spells P ls as) :
    Spells P (indented unit ls) as := by
  obtain ⟨ts, hts, has, hP⟩ := h
  exact ⟨ts, hts.indented hunit, has, hP⟩

theorem comma (h : Spells P ls as) : Spells P (onLast (· ++ ",") ls) as := by
  obtain ⟨ts, hts, has, hP⟩ := h
  refine ⟨ts, ?_, has, hP⟩
  by_cases hne : ls = []
  · rwa [hne] at hts ⊢
  · have hcomma : separates ',' := by decide
    have hend : Lexes ([] ++ ['\n']) [] := rfl
    have htext : ",".toList = [','] := rfl
    have hlast := hts.onLast htext hcomma hend hne
    rwa [List.append_nil] at hlast

/-- A line of words. -/
theorem plain {line : String} (h : Plain line) :
    ∃ ws : List String, Spells P [line] (ws.map .word) := by
  obtain ⟨ws, hread⟩ := Lexes.line h
  exact ⟨ws, ws.map .word, .singleton hread, .words ws, by simp⟩

end Spells

/-- The items one unit further in, with commas between them, are the same items. -/
theorem spells_commaList (hunit : ∀ c ∈ unit.toList, c = ' ') {contents : List (List String)}
    {itemss : List (List Item)} (h : List.Forall₂ (Spells P) contents itemss) :
    Spells P (commaList unit contents) itemss.flatten := by
  induction h with
  | nil => exact .nil
  | cons hitem hrest ih =>
    rw [List.flatten_cons]
    cases hrest with
    | nil =>
      rw [List.flatten_nil, List.append_nil]
      exact hitem.indented hunit
    | cons hitem' hrest' => exact (hitem.comma.indented hunit).append ih

/-- The contents of an element build these elements from those of the derived table. -/
def BuildsContents (P : String → Prop) (contents : List (List String))
    (trees : List ElementTree → List ElementTree) : Prop :=
  ∃ itemss, List.Forall₂ (Spells P) contents itemss ∧ Builds itemss.flatten trees

/-- The lines are a call that builds these elements from those of the derived table. -/
def BuildsCall (P : String → Prop) (ls : List String)
    (trees : List ElementTree → List ElementTree) : Prop :=
  ∃ items, Spells P ls items ∧ IsCall items trees

section

variable {contents contents' : List (List String)} {ls : List String}
  {f g : List ElementTree → List ElementTree} {name : String}

theorem BuildsContents.nil : BuildsContents P [] fun _ => [] := ⟨[], .nil, .nil⟩

theorem BuildsContents.append (h : BuildsContents P contents f)
    (h' : BuildsContents P contents' g) :
    BuildsContents P (contents ++ contents') fun rows => f rows ++ g rows := by
  obtain ⟨itemss, hspells, hbuilds⟩ := h
  obtain ⟨itemss', hspells', hbuilds'⟩ := h'
  refine ⟨itemss ++ itemss', List.rel_append hspells hspells', ?_⟩
  rw [List.flatten_append]
  exact hbuilds.append hbuilds'

theorem BuildsCall.buildsContents (h : BuildsCall P ls f) : BuildsContents P [ls] f := by
  obtain ⟨items, hspells, hcall⟩ := h
  refine ⟨[items], .cons hspells .nil, ?_⟩
  rw [List.flatten_singleton]
  exact hcall.builds

/-! ## Calls -/

theorem lexes_closing : Lexes [')', '\n'] [.closing] := rfl

/-- A call in one line. -/
theorem spells_call {opening inner word : String} {ts us : List Token} {items : List Item}
    (hopening : Lexes opening.toList (.word word :: .opening :: ts))
    (hinner : Lexes (inner.toList ++ [')', '\n']) (us ++ [.closing]))
    (hnest : Nests (ts ++ us) items) (hP : ∀ x, .name x ∈ ts ++ us → P x) :
    Spells P [opening ++ inner ++ ")"] [.word word, .parens items] := by
  have htext : (opening ++ inner ++ ")").toList ++ ['\n'] =
      (opening ++ inner).toList ++ [')', '\n'] := by
    rw [String.toList_append, List.append_assoc]
    rfl
  have htokens : Token.word word :: .opening :: ts ++ (us ++ [.closing]) =
      .word word :: (.opening :: (ts ++ us) ++ [.closing]) := by
    rw [← List.append_assoc]
    rfl
  have hread := hopening.prepend hinner
  rw [← htext, htokens] at hread
  refine ⟨_, .singleton hread, hnest.parens.word word, ?_⟩
  simpa using hP

theorem buildsCall_element (hunit : ∀ c ∈ unit.toList, c = ' ') (hname : P name)
    (h : BuildsContents P contents f) :
    BuildsCall P (element unit name contents) fun rows => [.element name (f rows)] := by
  obtain ⟨itemss, hspells, hbuilds⟩ := h
  have hopening : Lexes "xmlelement(name ".toList
      [.word "xmlelement", .opening, .word "name"] := rfl
  refine ⟨_, ?_, .element name hbuilds⟩
  cases hspells with
  | nil =>
    have hinner : Lexes ((identifier name).toList ++ [')', '\n']) ([.name name] ++ [.closing]) :=
      lexes_closing.name name (by decide)
    have hnest : Nests ([.word "name"] ++ [.name name]) [.word "name", .name name] := fun _ => rfl
    exact spells_call hopening hinner hnest (by simpa using hname)
  | @cons content items contents itemss hcontent hcontents =>
    obtain ⟨ts, hts, hnest, hP⟩ := spells_commaList hunit (.cons hcontent hcontents)
    let head : List Token := [.word "xmlelement", .opening, .word "name", .name name]
    have hhead : ReadsLines ["xmlelement(name " ++ identifier name ++ ","] head := by
      have hcomma : Lexes [',', '\n'] [] := rfl
      have htext : ("xmlelement(name " ++ identifier name ++ ",").toList ++ ['\n'] =
          ("xmlelement(name " ++ identifier name).toList ++ [',', '\n'] := by
        rw [String.toList_append, List.append_assoc]
        rfl
      have hread := hopening.prepend (hcomma.name name (by decide))
      rw [← htext] at hread
      exact .singleton hread
    have hend : ReadsLines [")"] [.closing] := .singleton lexes_closing
    have hnests : Nests (head ++ ts ++ [.closing]) _ :=
      ((hnest.name name).word "name").parens.word "xmlelement"
    refine ⟨_, (hhead.append hts).append hend, hnests, ?_⟩
    simpa [head, or_imp, forall_and, hname] using hP

theorem buildsCall_aggregate (hname : Plain name) {orderBy : List String}
    (horder : ∀ term ∈ orderBy, Plain term) :
    BuildsCall P [aggregate name orderBy] fun rows => rows := by
  let inner := name ++ "." ++ rowXmlColumn ++
    (if orderBy = [] then "" else " order by " ++ ", ".intercalate orderBy)
  have hcomma : Plain ", " := by decide
  have hterms : Plain (", ".intercalate orderBy) := forall_mem_intercalate hcomma horder
  have hinner : Plain inner := by
    simp only [inner]
    split <;> simp +decide [hname, hterms]
  have hopening : Lexes "xmlagg(".toList [.word "xmlagg", .opening] := rfl
  obtain ⟨ws, hread⟩ := lexes_closing.plain hinner (by decide)
  have htext : aggregate name orderBy = "xmlagg(" ++ inner ++ ")" := by
    simp only [aggregate, inner, String.append_assoc]
  rw [htext]
  exact ⟨_, spells_call hopening hread (.words ws) (by simp), .aggregate _⟩

theorem buildsContents_namespace (ns : Option String) :
    BuildsContents P (namespaceContent ns) fun _ => [] := by
  cases ns with
  | none => exact .nil
  | some ns =>
    have hopening : Lexes "xmlnamespaces(default ".toList
        [.word "xmlnamespaces", .opening, .word "default"] := rfl
    have hinner : Lexes ((quoted '\'' ns).toList ++ [')', '\n']) ([.literal] ++ [.closing]) :=
      lexes_closing.literal ns (by decide)
    have hliteral : Nests [.literal] [.literal] := fun _ => rfl
    have hspells : Spells P [namespaceItem ns] _ :=
      spells_call hopening hinner (hliteral.word "default") (by simp)
    exact BuildsCall.buildsContents ⟨_, hspells, .namespaces _⟩

/-! ## Forests -/

/-- Words and a label, for each member of a list. -/
def labelled {α : Type} (word name : String → α) (l : List (List String × String)) : List α :=
  l.flatMap fun (ws, x) => ws.map word ++ [word "as", name x]

theorem labels_labelled (l : List (List String × String)) :
    labels "" (labelled .word .name l) = l.map (·.2) := by
  induction l with
  | nil => rfl
  | cons a l ih =>
    rw [labelled, List.flatMap_cons, List.append_assoc, List.map_cons, ← ih]
    exact labels_words a.1 a.2 _

theorem nests_labelled (l : List (List String × String)) :
    Nests (labelled .word .name l) (labelled .word .name l) := by
  induction l with
  | nil => exact .nil
  | cons a l ih =>
    have hlabel : Nests [.word "as", .name a.2] [.word "as", .name a.2] := fun _ => rfl
    exact ((Nests.words a.1).append hlabel).append ih

/-- The column of a field, under a label. -/
def labelText (name field : String) : String :=
  name ++ "." ++ field ++ " as " ++ identifier (lower field)

theorem lexes_labelText (hname : Plain name) {field : String} (hfield : Plain field) {c : Char}
    {cs : List Char} (hc : c ≠ '"') {ts : List Token} (h : Lexes (c :: cs) ts) :
    ∃ ws : List String, Lexes ((labelText name field).toList ++ c :: cs)
      (ws.map .word ++ .word "as" :: .name (lower field) :: ts) := by
  have hcolumn : Plain (name ++ "." ++ field) := by simp +decide [hname, hfield]
  have has : Lexes " as ".toList [.word "as"] := rfl
  have htext : (labelText name field).toList ++ c :: cs =
      (name ++ "." ++ field).toList ++ (" as ".toList ++
        ((identifier (lower field)).toList ++ c :: cs)) := by
    simp only [labelText, String.toList_append, List.append_assoc]
  rw [htext]
  exact (has.append (h.name (lower field) hc)).plain hcolumn (by decide)

theorem intercalate_labelText (name field : String) (fields : List String) :
    (", ".intercalate ((field :: fields).map (labelText name))).toList ++ [')', '\n'] =
      (labelText name field).toList ++ (if fields = [] then [')', '\n'] else
        ", ".toList ++
          ((", ".intercalate (fields.map (labelText name))).toList ++ [')', '\n'])) := by
  cases fields with
  | nil => rfl
  | cons field' fields =>
    rw [List.map_cons, List.map_cons, String.intercalate_cons_cons, String.toList_append,
      String.toList_append, if_neg (List.cons_ne_nil _ _), List.append_assoc, List.append_assoc]

theorem lexes_labels (hname : Plain name) {fields : List String}
    (hfields : ∀ field ∈ fields, Plain field) :
    ∃ l : List (List String × String), l.map (·.2) = fields.map lower ∧
      Lexes ((", ".intercalate (fields.map (labelText name))).toList ++ [')', '\n'])
        (labelled .word .name l ++ [.closing]) := by
  induction fields with
  | nil => exact ⟨[], rfl, lexes_closing⟩
  | cons field fields ih =>
    obtain ⟨hfield, hfields⟩ := List.forall_mem_cons.1 hfields
    obtain ⟨l, hl, hread⟩ := ih hfields
    rw [intercalate_labelText]
    have hlabel {c : Char} {cs : List Char} (hc : c ≠ '"')
        (h : Lexes (c :: cs) (labelled .word .name l ++ [.closing])) :
        ∃ l : List (List String × String), l.map (·.2) = (field :: fields).map lower ∧
          Lexes ((labelText name field).toList ++ c :: cs)
            (labelled .word .name l ++ [.closing]) := by
      obtain ⟨ws, hread⟩ := lexes_labelText hname hfield hc h
      refine ⟨(ws, lower field) :: l, congrArg (lower field :: ·) hl, ?_⟩
      rw [labelled, List.flatMap_cons, List.append_assoc, List.append_assoc]
      exact hread
    split
    · next hnil =>
      subst hnil
      exact hlabel (by decide) hread
    · have hcomma : Lexes ", ".toList [] := rfl
      exact hlabel (by decide) (hcomma.append hread)

theorem buildsContents_forest (hname : Plain name) {fields : List String}
    (hfields : ∀ field ∈ fields, Plain field) (hP : ∀ field ∈ fields, P (lower field)) :
    BuildsContents P (forest name fields) fun _ => ElementTree.fields fields := by
  by_cases hne : fields = []
  · subst hne
    exact .nil
  obtain ⟨l, hl, hread⟩ := lexes_labels hname hfields
  have hopening : Lexes "xmlforest(".toList [.word "xmlforest", .opening] := rfl
  have hspells : Spells P ["xmlforest(" ++ ", ".intercalate (fields.map (labelText name)) ++ ")"]
      [.word "xmlforest", .parens (labelled .word .name l)] := by
    refine spells_call hopening hread (nests_labelled l) fun x hx => ?_
    have hlabel : x ∈ fields.map lower := by
      rw [← hl]
      simpa [labelled] using hx
    obtain ⟨field, hfield, rfl⟩ := List.mem_map.1 hlabel
    exact hP field hfield
  have htrees : (labels "" (labelled .word .name l)).map (ElementTree.element · []) =
      ElementTree.fields fields := by
    rw [labels_labelled, hl, List.map_map]
    rfl
  have hcall : BuildsCall P _ fun _ => ElementTree.fields fields :=
    ⟨_, hspells, htrees ▸ .forest _⟩
  have hforest : forest name fields =
      [["xmlforest(" ++ ", ".intercalate (fields.map (labelText name)) ++ ")"]] := if_neg hne
  rw [hforest]
  exact hcall.buildsContents

end

end XmlPublishing.SqlXml

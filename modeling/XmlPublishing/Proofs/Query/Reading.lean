import XmlPublishing.Proofs.ElementTree
import XmlPublishing.Proofs.Query.Tokens

/-!
The elements that a query builds, read from its text.

Tokens are nested by their parentheses, from the end of a text to its beginning (`items`). In the
items of a query, `xmlelement` builds an element of the name behind `name`, with all that is built
between its parentheses; `xmlforest` builds an element for each label behind `as`; `xmlagg` gathers
what the derived table behind `from` builds; and parentheses that no word stands before hold a query
of their own. Nothing else builds elements.

`readRows?` gives the row element of a rows query: the first that its text builds.
-/

namespace XmlPublishing.SqlXml

open Text

/-- A token that is not a parenthesis, or what stands between two that match. -/
inductive Item where
  | word (s : String)
  | name (s : String)
  | literal
  | parens (items : List Item)

/-! ## Nesting -/

/-- The items behind a place in a text, and those behind each closing parenthesis that it stands
before. -/
structure Nesting where
  items : List Item
  around : List (List Item)

def Nesting.cons (item : Item) (s : Nesting) : Nesting := { s with items := item :: s.items }

/-- What a token makes of what is behind it. -/
def Token.before (s : Nesting) : Token → Nesting
  | .word w => s.cons (.word w)
  | .name x => s.cons (.name x)
  | .literal => s.cons .literal
  | .closing => ⟨[], s.items :: s.around⟩
  | .opening =>
    match s.around with
    | behind :: around => ⟨.parens s.items :: behind, around⟩
    | [] => ⟨[.parens s.items], []⟩

def nest (ts : List Token) (s : Nesting) : Nesting := ts.foldr (fun t s => t.before s) s

/-- The items that a text begins with, up to a parenthesis that closes nothing. -/
def items (s : String) : List Item := (nest (tokens s) ⟨[], []⟩).items

/-! ## Elements -/

/-- The word that an item is, for a call behind it. -/
def Item.asWord : Item → String
  | .word s => s
  | _ => ""

/-- The name at the beginning of a call of `xmlelement`. -/
def elementName? : List Item → Option String
  | .word w :: .name x :: _ => if w = "name" then some x else none
  | _ => none

/-- The labels in a call of `xmlforest`; `before` is the word before them. -/
def labels (before : String) : List Item → List String
  | [] => []
  | .name x :: items => (if before = "as" then [x] else []) ++ labels "" items
  | item :: items => labels item.asWord items

mutual
/-- What an item builds behind the word `before`; `rows` is what the derived table builds. -/
def Item.built (rows : List ElementTree) (before : String) : Item → List ElementTree
  | .parens items =>
    if before = "xmlelement" then
      (elementName? items).toList.map fun x => .element x (builtIn rows "" items)
    else if before = "xmlforest" then (labels "" items).map (.element · [])
    else if before = "xmlagg" then rows
    else if before = "xmlserialize" then builtIn rows "" items
    else if before = "" then builtIn (derivedIn "" items) "" items
    else []
  | _ => []
termination_by structural x => x
def builtIn (rows : List ElementTree) (before : String) : List Item → List ElementTree
  | [] => []
  | item :: items => item.built rows before ++ builtIn rows item.asWord items
termination_by structural x => x
/-- What an item builds as a derived table, behind the word `before`. -/
def Item.derived (before : String) : Item → List ElementTree
  | .parens items => if before = "from" then builtIn (derivedIn "" items) "" items else []
  | _ => []
termination_by structural x => x
def derivedIn (before : String) : List Item → List ElementTree
  | [] => []
  | item :: items => item.derived before ++ derivedIn item.asWord items
termination_by structural x => x
end

/-- What the items of a query build. -/
def queryTrees (items : List Item) : List ElementTree := builtIn (derivedIn "" items) "" items

/-- The row element that the text of a rows query builds. -/
def readRows? (s : String) : Option ElementTree := (queryTrees (items s)).head?

example : readRows? "select xmlelement(name \"a\", xmlforest(e.x as \"y\")) as v from e" =
    some (.element "a" [.element "y" []]) := by cbv

/-! ## Items of parts -/

section

variable {ts us : List Token} {as bs : List Item}

theorem nest_append (ts us : List Token) (s : Nesting) :
    nest (ts ++ us) s = nest ts (nest us s) := List.foldr_append

/-- The tokens are nested as these items, whatever is behind them. -/
def Nests (ts : List Token) (items : List Item) : Prop :=
  ∀ s : Nesting, nest ts s = { s with items := items ++ s.items }

namespace Nests

theorem nil : Nests [] [] := fun _ => rfl

theorem append (h : Nests ts as) (h' : Nests us bs) : Nests (ts ++ us) (as ++ bs) := by
  intro s
  rw [nest_append, h', h, List.append_assoc]

theorem word (w : String) (h : Nests ts as) : Nests (.word w :: ts) (.word w :: as) := by
  have hword : Nests [.word w] [.word w] := fun _ => rfl
  exact hword.append h

theorem name (x : String) (h : Nests ts as) : Nests (.name x :: ts) (.name x :: as) := by
  have hname : Nests [.name x] [.name x] := fun _ => rfl
  exact hname.append h

theorem words (ws : List String) : Nests (ws.map .word) (ws.map .word) := by
  induction ws with
  | nil => exact nil
  | cons w ws ih => exact ih.word w

theorem parens (h : Nests ts as) : Nests (.opening :: ts ++ [.closing]) [.parens as] := by
  intro s
  have hclosing : nest [.closing] s = ⟨[], s.items :: s.around⟩ := rfl
  rw [nest_append, hclosing, ← List.singleton_append, nest_append, h, List.append_nil]
  rfl

end Nests

/-! ## What parts build -/

variable {rows : List ElementTree} {before : String}

/-- Words build nothing, and only the last of them can matter behind them. -/
theorem builtIn_words {items : List Item} {trees : List ElementTree} (ws : List String)
    (h : ∀ before, builtIn rows before items = trees) :
    builtIn rows before (ws.map .word ++ items) = trees := by
  induction ws generalizing before with
  | nil => exact h before
  | cons w ws ih => exact ih

theorem derivedIn_words {items : List Item} {trees : List ElementTree} (ws : List String)
    (h : ∀ before, derivedIn before items = trees) :
    derivedIn before (ws.map .word ++ items) = trees := by
  induction ws generalizing before with
  | nil => exact h before
  | cons w ws ih => exact ih

theorem labels_words (ws : List String) (x : String) (items : List Item) :
    labels before (ws.map .word ++ .word "as" :: .name x :: items) = x :: labels "" items := by
  induction ws generalizing before with
  | nil => rfl
  | cons w ws ih => exact ih

/-- Behind anything but a word, the items build these elements from those of the derived table, and
do not change what is built behind them. -/
def Builds (items : List Item) (trees : List ElementTree → List ElementTree) : Prop :=
  ∀ rows rest, builtIn rows "" (items ++ rest) = trees rows ++ builtIn rows "" rest

namespace Builds

variable {f g : List ElementTree → List ElementTree}

theorem nil : Builds [] fun _ => [] := fun _ _ => rfl

theorem append (h : Builds as f) (h' : Builds bs g) :
    Builds (as ++ bs) fun rows => f rows ++ g rows := by
  intro rows rest
  rw [List.append_assoc, h, h', List.append_assoc]

theorem builtIn_eq (h : Builds as f) (rows : List ElementTree) : builtIn rows "" as = f rows := by
  have has := h rows []
  rwa [List.append_nil, builtIn, List.append_nil] at has

/-- A query between parentheses. -/
theorem query (items : List Item) : Builds [.parens items] fun _ => queryTrees items :=
  fun _ _ => rfl

end Builds

/-- The items are a call that builds these elements from those of the derived table. -/
inductive IsCall : List Item → (List ElementTree → List ElementTree) → Prop
  | call {word : String} {args : List Item} {trees : List ElementTree → List ElementTree} :
      word ≠ "from" → (∀ rows, (Item.parens args).built rows word = trees rows) →
      IsCall [.word word, .parens args] trees

namespace IsCall

variable {f : List ElementTree → List ElementTree}

theorem element (x : String) (h : Builds as f) :
    IsCall [.word "xmlelement", .parens (.word "name" :: .name x :: as)]
      fun rows => [.element x (f rows)] := by
  refine .call (by decide) fun rows => ?_
  rw [← h.builtIn_eq rows]
  rfl

theorem forest (as : List Item) :
    IsCall [.word "xmlforest", .parens as] fun _ => (labels "" as).map (.element · []) :=
  .call (by decide) fun _ => rfl

theorem aggregate (as : List Item) : IsCall [.word "xmlagg", .parens as] fun rows => rows :=
  .call (by decide) fun _ => rfl

theorem namespaces (as : List Item) : IsCall [.word "xmlnamespaces", .parens as] fun _ => [] :=
  .call (by decide) fun _ => rfl

/-- A word before a call does not matter. -/
theorem builtIn_append (h : IsCall as f) (rows : List ElementTree) (before : String)
    (rest : List Item) :
    builtIn rows before (as ++ rest) = f rows ++ builtIn rows "" rest := by
  cases h with
  | call _ hbuilt => rw [← hbuilt]; rfl

theorem builds (h : IsCall as f) : Builds as f := fun rows rest => h.builtIn_append rows "" rest

theorem serialized (h : IsCall as f) :
    IsCall [.word "xmlserialize", .parens (.word "content" :: as ++ [.word "as", .word "clob"])]
      f := by
  refine .call (by decide) fun rows => ?_
  have hargs := h.builtIn_append rows "content" [.word "as", .word "clob"]
  rw [show builtIn rows "" [.word "as", .word "clob"] = [] from rfl, List.append_nil] at hargs
  exact hargs

theorem derivedIn_append (h : IsCall as f) (before : String) (rest : List Item) :
    derivedIn before (as ++ rest) = derivedIn "" rest := by
  cases h with
  | @call word args _ hword _ =>
    have hargs : (Item.parens args).derived word = [] := if_neg hword
    change [] ++ ((Item.parens args).derived word ++ derivedIn "" rest) = _
    rw [hargs]
    rfl

end IsCall

/-! ## What queries build -/

variable {f : List ElementTree → List ElementTree} {columns column clauses : List String}

/-- The items of a query up to its `from` clause: plain columns and one call. -/
def selectItems (columns : List String) (xml : List Item) (column : List String) : List Item :=
  .word "select" :: columns.map .word ++ (xml ++ .word "as" :: column.map .word)

theorem builtIn_selectItems (h : IsCall as f) (rows : List ElementTree) (before : String)
    (rest : List Item) :
    builtIn rows before (selectItems columns as column ++ .word "from" :: rest) =
      f rows ++ builtIn rows "from" rest := by
  have hcolumn (before : String) : builtIn rows before (column.map .word ++ .word "from" :: rest) =
      builtIn rows "from" rest := builtIn_words column fun _ => rfl
  have hcall (before : String) :
      builtIn rows before (as ++ (.word "as" :: column.map .word ++ .word "from" :: rest)) =
        f rows ++ builtIn rows "from" rest := by
    rw [h.builtIn_append]
    exact congrArg (f rows ++ ·) (hcolumn "as")
  rw [selectItems, List.append_assoc, List.append_assoc]
  change builtIn rows "select" (columns.map .word ++ _) = _
  exact builtIn_words columns hcall

theorem derivedIn_selectItems (h : IsCall as f) (before : String) (rest : List Item) :
    derivedIn before (selectItems columns as column ++ .word "from" :: rest) =
      derivedIn "from" rest := by
  have hcolumn (before : String) : derivedIn before (column.map .word ++ .word "from" :: rest) =
      derivedIn "from" rest := derivedIn_words column fun _ => rfl
  have hcall (before : String) :
      derivedIn before (as ++ (.word "as" :: column.map .word ++ .word "from" :: rest)) =
        derivedIn "from" rest := (h.derivedIn_append before _).trans (hcolumn "as")
  rw [selectItems, List.append_assoc, List.append_assoc]
  change derivedIn "select" (columns.map .word ++ _) = _
  exact derivedIn_words columns hcall

/-- A query over a relation. -/
theorem queryTrees_over_relation {trees : List ElementTree} (h : IsCall as fun _ => trees) :
    queryTrees (selectItems columns as column ++ .word "from" :: clauses.map .word) = trees := by
  have hclauses (rows : List ElementTree) : builtIn rows "from" (clauses.map .word ++ []) = [] :=
    builtIn_words clauses fun _ => rfl
  rw [List.append_nil] at hclauses
  rw [queryTrees, builtIn_selectItems h, hclauses, List.append_nil]

/-- A query over a derived table. -/
theorem queryTrees_over_query (h : IsCall as f) (bs : List Item) :
    queryTrees (selectItems columns as column ++
      .word "from" :: .parens bs :: clauses.map .word) = f (queryTrees bs) := by
  have hbuilt (rows : List ElementTree) : builtIn rows "" (clauses.map .word ++ []) = [] :=
    builtIn_words clauses fun _ => rfl
  have hderived : derivedIn "" (clauses.map .word ++ []) = [] :=
    derivedIn_words clauses fun _ => rfl
  rw [List.append_nil] at hbuilt hderived
  have htable : derivedIn "from" (.parens bs :: clauses.map .word) = queryTrees bs := by
    change queryTrees bs ++ derivedIn "" (clauses.map .word) = _
    rw [hderived, List.append_nil]
  have hrest (rows : List ElementTree) :
      builtIn rows "from" (.parens bs :: clauses.map .word) = [] := by
    change [] ++ builtIn rows "" (clauses.map .word) = _
    rw [hbuilt, List.append_nil]
  rw [queryTrees, builtIn_selectItems h, derivedIn_selectItems h, htable, hrest, List.append_nil]

/-- What stands behind the row element of a rows query is not read. -/
theorem head?_queryTrees_append {tree : ElementTree} (h : IsCall as fun _ => [tree])
    (rest : List Item) :
    (queryTrees (selectItems columns as column ++ .word "from" :: rest)).head? = some tree := by
  rw [queryTrees, builtIn_selectItems h]
  rfl

end

end XmlPublishing.SqlXml

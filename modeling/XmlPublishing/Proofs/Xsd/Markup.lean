import Mathlib.Data.List.Forall2
import XmlPublishing.Proofs.Text.Delimited
import XmlPublishing.Proofs.Text.Splitting
import XmlPublishing.Xsd.Document

/-!
Reading XML markup.

A tag begins at `<` and ends at the first `>` that is not inside an attribute value. Its text is cut
at double quotes: what stands between them in turn is markup and attribute values, in which entities
stand for characters. Tags are nested from the end of a text to its beginning, where every closing
tag opens a level that an opening tag of the same name has to close. Text between tags is not read.

`Xml.parse?` knows nothing of how a text was written. A text is read as some tags (`ReadsAs`) also
in front of any other text, and tags are nested as some trees (`Nests`) also in front of any other
tags, so both are shown part by part.
-/

namespace XmlPublishing.Xml

open Text

/-- An element with its attributes, as they are meant, and the elements in it. -/
inductive Tree where
  | element (tag : String) (attributes : List (String × String)) (content : List Tree)

inductive Tag where
  | opening (name : String) (attributes : List (String × String))
  | closing (name : String)
  | empty (name : String) (attributes : List (String × String))
  | instruction
deriving DecidableEq

/-! ## Tags -/

/-- Whether `c` stands between the names in a tag. -/
def separates (c : Char) : Bool := isBlank c || c ∈ ['=', '/', '?', '>']

/-- The names in a piece of markup. -/
def names (markup : List Char) : List String :=
  ((split separates markup).filter (!·.isEmpty)).map String.ofList

/-- The pieces of a tag, markup and values in turn, up to the end of the tag. -/
def untilEnd : List (List Char) → List (List Char)
  | markup :: value :: pieces =>
    if '>' ∈ markup then [markup.takeWhile (· ≠ '>')] else markup :: value :: untilEnd pieces
  | pieces => pieces.map (·.takeWhile (· ≠ '>'))

/-- Each value, under the last name before it. -/
def attributes : List (List Char) → List (String × String)
  | markup :: value :: pieces =>
    ((names markup).getLastD "", unescapeAttribute (String.ofList value)) :: attributes pieces
  | _ => []

/-- The tag that a text begins with, from behind its `<`. -/
def Tag.ofText (cs : List Char) : Tag :=
  let pieces := untilEnd (split (· == '"') cs)
  let name := (names (pieces.headD [])).headD ""
  if cs.head? = some '?' then .instruction
  else if cs.head? = some '/' then .closing name
  else if (pieces.getLastD []).getLast? = some '/' then .empty name (attributes pieces)
  else .opening name (attributes pieces)

/-- The tags of a text. -/
def tags (s : String) : List Tag := ((split (· == '<') s.toList).drop 1).map Tag.ofText

/-! ## Trees -/

/-- The trees behind a place in a text, and those behind each element around it, with its name. -/
structure Nesting where
  content : List Tree
  around : List (String × List Tree)

/-- What a tag makes of what is behind it. -/
def Tag.before (s : Nesting) : Tag → Option Nesting
  | .instruction => some s
  | .empty name attributes => some { s with content := .element name attributes [] :: s.content }
  | .closing name => some ⟨[], (name, s.content) :: s.around⟩
  | .opening name attributes =>
    match s.around with
    | (closed, behind) :: around =>
      if name = closed then some ⟨.element name attributes s.content :: behind, around⟩ else none
    | [] => none

def nest (ts : List Tag) (s : Nesting) : Option Nesting :=
  ts.foldr (fun t s? => s?.bind t.before) (some s)

/-- The element that a text consists of, if all its tags match. -/
def parse? (s : String) : Option Tree :=
  match nest (tags s) ⟨[], []⟩ with
  | some ⟨[tree], []⟩ => some tree
  | _ => none

example : tags "<?xml version=\"1.0\"?><a b=\"&lt;>\" c=\"\"><d/> e</a>" =
    [.instruction, .opening "a" [("b", "<>"), ("c", "")], .empty "d" [], .closing "a"] := by
  decide +kernel

/-! ## Written tags -/

section

variable {c : Char} {a b markup ending rest : List Char} {name n v : String}
  {as : List (String × String)}

/-- A text that is read as one name. -/
structure IsName (name : String) : Prop where
  ne_empty : name ≠ ""
  joined : ∀ c ∈ name.toList, separates c = false ∧ c ∉ ['"', '<']

instance (name : String) : Decidable (IsName name) :=
  haveI : Decidable (∀ c ∈ name.toList, separates c = false ∧ c ∉ ['"', '<']) :=
    List.decidableBAll _ name.toList
  decidable_of_iff (name ≠ "" ∧ ∀ c ∈ name.toList, separates c = false ∧ c ∉ ['"', '<'])
    ⟨fun h => ⟨h.1, h.2⟩, fun h => ⟨h.ne_empty, h.joined⟩⟩

theorem names_append_cons (h : separates c) (a b : List Char) :
    names (a ++ c :: b) = names a ++ names b := by
  rw [names, split_append_cons h, List.filter_append, List.map_append]
  rfl

theorem names_nil : names [] = [] := rfl

theorem IsName.names_eq (h : IsName name) : names name.toList = [name] := by
  have hne : name.toList ≠ [] := fun hnil => h.ne_empty (String.toList_eq_nil_iff.1 hnil)
  rw [names, split_of_unseparated fun c hc => (h.joined c hc).1,
    List.filter_cons_of_pos (by simp [hne])]
  simp

theorem IsName.notMem (h : IsName name) (hc : c ∈ ['"', '<', '>', '/']) : c ∉ name.toList := by
  intro hmem
  obtain ⟨hjoined, hquote⟩ := h.joined c hmem
  rcases List.mem_append.1 (show c ∈ ['"', '<'] ++ ['>', '/'] from hc) with hc | hc
  · exact hquote hc
  · have hsep : separates c = true := List.all_eq_true.1 (rfl : ['>', '/'].all separates) c hc
    rw [hsep] at hjoined
    cases hjoined

/-- The text of some attributes. -/
def written (as : List (String × String)) : List Char :=
  as.flatMap fun (n, v) => (Xsd.attributeText n v).toList

theorem toList_attributeText (n v : String) : (Xsd.attributeText n v).toList =
    ' ' :: (n.toList ++ ['=']) ++ '"' :: ((escapeAttribute v).toList ++ ['"']) := by
  simp [Xsd.attributeText]

theorem written_nil : written [] = [] := rfl

theorem written_cons (n v : String) (as : List (String × String)) :
    written ((n, v) :: as) = (Xsd.attributeText n v).toList ++ written as := List.flatMap_cons

theorem written_append (as bs : List (String × String)) :
    written (as ++ bs) = written as ++ written bs := List.flatMap_append

theorem notMem_written (has : ∀ a ∈ as, IsName a.1) : '<' ∉ written as := by
  intro h
  obtain ⟨⟨n, v⟩, ha, hmem⟩ := List.mem_flatMap.1 h
  have hname : '<' ∉ n.toList := (has _ ha).notMem (by decide)
  have hvalue := (isAttributeText_escapeAttribute v).no_tag
  simp [toList_attributeText, hname, hvalue] at hmem

/-- The pieces of a tag with some attributes. -/
def pieces (markup : List Char) : List (String × String) → List Char → List (List Char)
  | [], ending => [markup ++ ending]
  | (n, v) :: as, ending =>
    (markup ++ ' ' :: (n.toList ++ ['='])) :: (escapeAttribute v).toList :: pieces [] as ending

theorem untilEnd_of_mem {piece : List Char} (h : '>' ∈ piece) (rest : List (List Char)) :
    untilEnd (piece :: rest) = [piece.takeWhile (· ≠ '>')] := by
  cases rest with
  | nil => rfl
  | cons value rest => rw [untilEnd, if_pos h]

theorem untilEnd_written (hmarkup : '"' ∉ markup ∧ '>' ∉ markup)
    (hending : '"' ∉ ending ∧ '>' ∉ ending) (has : ∀ a ∈ as, IsName a.1) (rest : List Char) :
    untilEnd (split (· == '"') (markup ++ written as ++ ending ++ '>' :: rest)) =
      pieces markup as ending := by
  induction as generalizing markup with
  | nil =>
    have hquote : '"' ∉ markup ++ ending := by simp [hmarkup.1, hending.1]
    have hend : ∀ c ∈ markup ++ ending, decide (c ≠ '>') = true := by
      intro c hc
      refine decide_eq_true fun heq => ?_
      rw [heq, List.mem_append] at hc
      exact hc.elim hmarkup.2 hending.2
    obtain ⟨piece, rest', hrest⟩ := List.exists_cons_of_ne_nil (split_ne_nil (· == '"') rest)
    have hbehind : split (· == '"') ('>' :: rest) = ('>' :: piece) :: rest' :=
      @split_cons_of_not_sep (· == '"') '>' rfl _ _ _ hrest
    rw [written, List.flatMap_nil, List.append_nil, split_append_of_notMem hquote hbehind,
      untilEnd_of_mem (by simp), List.takeWhile_append_of_pos hend]
    simp [pieces]
  | cons a as ih =>
    obtain ⟨n, v⟩ := a
    obtain ⟨hn, has⟩ := List.forall_mem_cons.1 has
    let head := markup ++ ' ' :: (n.toList ++ ['='])
    have hhead : '"' ∉ head ∧ '>' ∉ head := by
      simp [head, hmarkup, hn.notMem (c := '"') (by decide), hn.notMem (c := '>') (by decide)]
    have hvalue := (isAttributeText_escapeAttribute v).no_quote
    have htext : markup ++ written ((n, v) :: as) ++ ending ++ '>' :: rest =
        head ++ '"' :: ((escapeAttribute v).toList ++ '"' ::
          ([] ++ written as ++ ending ++ '>' :: rest)) := by
      simp [head, written_cons, toList_attributeText]
    rw [htext, split_append_cons_of_notMem hhead.1, split_append_cons_of_notMem hvalue, untilEnd,
      if_neg hhead.2, ih ⟨List.not_mem_nil, List.not_mem_nil⟩ has, pieces]

theorem attributes_pieces (has : ∀ a ∈ as, IsName a.1) (markup ending : List Char) :
    attributes (pieces markup as ending) = as := by
  induction as generalizing markup with
  | nil => rfl
  | cons a as ih =>
    obtain ⟨n, v⟩ := a
    obtain ⟨hn, has⟩ := List.forall_mem_cons.1 has
    have hnames : names (markup ++ ' ' :: (n.toList ++ ['='])) = names markup ++ [n] := by
      rw [names_append_cons (by decide), names_append_cons (by decide), hn.names_eq, names_nil,
        List.append_nil]
    rw [pieces, attributes, ih has, hnames, List.getLastD_concat, String.ofList_toList,
      unescapeAttribute_escapeAttribute]

theorem names_head_pieces (hname : IsName name) (hending : ending = [] ∨ ending = ['/'])
    (as : List (String × String)) :
    (names ((pieces name.toList as ending).headD [])).headD "" = name := by
  cases as with
  | nil =>
    rw [pieces, List.headD_cons]
    rcases hending with rfl | rfl
    · rw [List.append_nil, hname.names_eq]
      rfl
    · rw [names_append_cons (by decide), hname.names_eq]
      rfl
  | cons a as =>
    rw [pieces, List.headD_cons, names_append_cons (by decide), hname.names_eq]
    rfl

theorem getLastD_pieces (markup : List Char) (as : List (String × String))
    (ending default : List Char) :
    (pieces markup as ending).getLastD default = (if as = [] then markup else []) ++ ending := by
  induction as generalizing markup default with
  | nil => rfl
  | cons a as ih =>
    rw [pieces, List.getLastD_cons, List.getLastD_cons, ih, if_neg (List.cons_ne_nil a as),
      ite_self]

/-- What a written tag is read from. -/
theorem untilEnd_name (hname : IsName name) (has : ∀ a ∈ as, IsName a.1)
    (hending : ending = [] ∨ ending = ['/']) (rest : List Char) :
    untilEnd (split (· == '"') (name.toList ++ written as ++ ending ++ '>' :: rest)) =
      pieces name.toList as ending := by
  have hmarkup : '"' ∉ name.toList ∧ '>' ∉ name.toList :=
    ⟨hname.notMem (by decide), hname.notMem (by decide)⟩
  have hending : '"' ∉ ending ∧ '>' ∉ ending := by
    rcases hending with rfl | rfl <;> decide
  exact untilEnd_written hmarkup hending has rest

theorem IsName.exists_cons (h : IsName name) :
    ∃ c cs, name.toList = c :: cs ∧ c ≠ '?' ∧ c ≠ '/' := by
  have hne : name.toList ≠ [] := fun hnil => h.ne_empty (String.toList_eq_nil_iff.1 hnil)
  obtain ⟨c, cs, hcs⟩ := List.exists_cons_of_ne_nil hne
  have hc := h.joined c (by rw [hcs]; exact List.mem_cons_self)
  refine ⟨c, cs, hcs, ?_, ?_⟩
  · rintro rfl
    cases hc.1
  · rintro rfl
    cases hc.1

theorem Tag.ofText_empty (hname : IsName name) (has : ∀ a ∈ as, IsName a.1) (rest : List Char) :
    Tag.ofText (name.toList ++ written as ++ ['/'] ++ '>' :: rest) = .empty name as := by
  obtain ⟨c, cs, hcs, hinstruction, hclosing⟩ := hname.exists_cons
  have hhead : (name.toList ++ written as ++ ['/'] ++ '>' :: rest).head? = some c := by
    rw [hcs]
    rfl
  rw [ofText, untilEnd_name hname has (.inr rfl), names_head_pieces hname (.inr rfl),
    attributes_pieces has, getLastD_pieces, hhead]
  simp [hinstruction, hclosing]

theorem Tag.ofText_opening (hname : IsName name) (has : ∀ a ∈ as, IsName a.1) (rest : List Char) :
    Tag.ofText (name.toList ++ written as ++ '>' :: rest) = .opening name as := by
  obtain ⟨c, cs, hcs, hinstruction, hclosing⟩ := hname.exists_cons
  have hhead : (name.toList ++ written as ++ [] ++ '>' :: rest).head? = some c := by
    rw [hcs]
    rfl
  have hlast : (if as = [] then name.toList else []).getLast? ≠ some '/' := by
    split
    · exact fun h => hname.notMem (by decide) (List.mem_of_getLast? h)
    · nofun
  rw [← List.append_nil (name.toList ++ written as), ofText, untilEnd_name hname has (.inl rfl),
    names_head_pieces hname (.inl rfl), attributes_pieces has, getLastD_pieces, hhead,
    List.append_nil, if_neg hlast]
  simp [hinstruction, hclosing]

theorem Tag.ofText_closing (hname : IsName name) (rest : List Char) :
    Tag.ofText ('/' :: name.toList ++ '>' :: rest) = .closing name := by
  have hmarkup : '"' ∉ '/' :: name.toList ∧ '>' ∉ '/' :: name.toList := by
    simp [hname.notMem (c := '"') (by decide), hname.notMem (c := '>') (by decide)]
  have hempty : '"' ∉ [] ∧ '>' ∉ [] := ⟨List.not_mem_nil, List.not_mem_nil⟩
  have hpieces := @untilEnd_written _ _ [] hmarkup hempty nofun rest
  have hnames : names ('/' :: name.toList) = [name] := by
    rw [← List.nil_append ('/' :: name.toList), names_append_cons (by decide), hname.names_eq]
    rfl
  rw [written, List.flatMap_nil, List.append_nil, List.append_nil] at hpieces
  rw [ofText, hpieces, pieces, List.append_nil, List.headD_cons, hnames]
  rfl

end

/-! ## Texts of tags -/

/-- The text is read as these tags, whatever follows it. -/
def ReadsAs (s : String) (ts : List Tag) : Prop := ∀ rest, tags (s ++ rest) = ts ++ tags rest

namespace ReadsAs

variable {s s' : String} {ts ts' : List Tag} {t : Tag}

theorem nil : ReadsAs "" [] := fun rest => by rw [String.empty_append, List.nil_append]

theorem append (h : ReadsAs s ts) (h' : ReadsAs s' ts') : ReadsAs (s ++ s') (ts ++ ts') := by
  intro rest
  rw [String.append_assoc, h, h', List.append_assoc]

theorem join {ss : List String} {tss : List (List Tag)} (h : List.Forall₂ ReadsAs ss tss) :
    ReadsAs (String.join ss) tss.flatten := by
  induction h with
  | nil => exact nil
  | cons h _ ih =>
    rw [String.join_cons, List.flatten_cons]
    exact h.append ih

theorem tags_eq (h : ReadsAs s ts) : tags s = ts := by
  have hs := h ""
  rwa [String.append_empty, show tags "" = [] from rfl, List.append_nil] at hs

/-- A tag that is read in front of any text, with text before and behind it. -/
theorem tag {before body after : List Char}
    (hs : s.toList = before ++ '<' :: (body ++ '>' :: after)) (hbefore : '<' ∉ before)
    (hbody : '<' ∉ body) (hafter : '<' ∉ after)
    (h : ∀ rest, Tag.ofText (body ++ '>' :: rest) = t) : ReadsAs s [t] := by
  intro rest
  have htext : (s ++ rest).toList = before ++ '<' :: ((body ++ '>' :: after) ++ rest.toList) := by
    rw [String.toList_append, hs, List.append_assoc, List.cons_append]
  have hinside : '<' ∉ body ++ '>' :: after := by simp [hbody, hafter]
  obtain ⟨piece, pieces, hrest⟩ := List.exists_cons_of_ne_nil (split_ne_nil (· == '<') rest.toList)
  rw [tags, tags, htext, split_append_cons_of_notMem hbefore, List.drop_one, List.tail_cons,
    split_append_of_notMem hinside hrest, hrest, List.map_cons, List.append_assoc, List.cons_append,
    h]
  rfl

section

variable {name : String} {as : List (String × String)} {before after : List Char}

theorem opening (hname : IsName name) (has : ∀ a ∈ as, IsName a.1) (hbefore : '<' ∉ before)
    (hafter : '<' ∉ after)
    (hs : s.toList = before ++ '<' :: (name.toList ++ written as ++ '>' :: after)) :
    ReadsAs s [.opening name as] := by
  have hbody : '<' ∉ name.toList ++ written as := by
    simp [hname.notMem (c := '<') (by decide), notMem_written has]
  exact tag hs hbefore hbody hafter (Tag.ofText_opening hname has)

theorem closing (hname : IsName name) (hbefore : '<' ∉ before) (hafter : '<' ∉ after)
    (hs : s.toList = before ++ '<' :: '/' :: (name.toList ++ '>' :: after)) :
    ReadsAs s [.closing name] := by
  have hbody : '<' ∉ '/' :: name.toList := by simp [hname.notMem (c := '<') (by decide)]
  exact tag hs hbefore hbody hafter (Tag.ofText_closing hname)

theorem empty (hname : IsName name) (has : ∀ a ∈ as, IsName a.1) (hbefore : '<' ∉ before)
    (hafter : '<' ∉ after)
    (hs : s.toList = before ++ '<' :: (name.toList ++ written as ++ ['/'] ++ '>' :: after)) :
    ReadsAs s [.empty name as] := by
  have hbody : '<' ∉ name.toList ++ written as ++ ['/'] := by
    simp [hname.notMem (c := '<') (by decide), notMem_written has]
  exact tag hs hbefore hbody hafter (Tag.ofText_empty hname has)

end

end ReadsAs

/-! ## Nested tags -/

theorem nest_append (ts ts' : List Tag) (s : Nesting) :
    nest (ts ++ ts') s = (nest ts' s).bind (nest ts) := by
  induction ts with
  | nil => exact (Option.bind_fun_some _).symm
  | cons t ts ih =>
    have hcons (s : Nesting) : nest (t :: ts) s = (nest ts s).bind t.before := rfl
    rw [List.cons_append, nest, List.foldr_cons, ← nest, ih, Option.bind_assoc]
    rfl

/-- The tags are nested as these trees, whatever is behind them. -/
def Nests (ts : List Tag) (trees : List Tree) : Prop :=
  ∀ s : Nesting, nest ts s = some { s with content := trees ++ s.content }

namespace Nests

variable {ts ts' : List Tag} {trees trees' : List Tree} {name : String}

theorem nil : Nests [] [] := fun _ => rfl

theorem append (h : Nests ts trees) (h' : Nests ts' trees') :
    Nests (ts ++ ts') (trees ++ trees') := by
  intro s
  rw [nest_append, h', Option.bind_some, h, List.append_assoc]

theorem flatten {α : Type} {f : α → List Tag} {g : α → Tree} (h : ∀ a, Nests (f a) [g a])
    (l : List α) : Nests (l.map f).flatten (l.map g) := by
  induction l with
  | nil => exact nil
  | cons a l ih => exact (h a).append ih

theorem empty (name : String) (as : List (String × String)) :
    Nests [.empty name as] [.element name as []] := fun _ => rfl

theorem instruction (h : Nests ts trees) : Nests (.instruction :: ts) trees := by
  have hnone : Nests [.instruction] [] := fun _ => rfl
  exact hnone.append h

theorem element (h : Nests ts trees) (name : String) (as : List (String × String)) :
    Nests (.opening name as :: ts ++ [.closing name]) [.element name as trees] := by
  intro s
  have hclosing : nest [.closing name] s = some ⟨[], (name, s.content) :: s.around⟩ := rfl
  have hopening : nest [.opening name as] ⟨trees ++ [], (name, s.content) :: s.around⟩ =
      some { s with content := .element name as trees :: s.content } := by
    rw [List.append_nil]
    exact if_pos rfl
  rw [nest_append, hclosing, Option.bind_some, ← List.singleton_append, nest_append, h,
    Option.bind_some, hopening]
  rfl

end Nests

theorem parse?_eq_some {s : String} {ts : List Tag} {tree : Tree} (hread : ReadsAs s ts)
    (hnest : Nests ts [tree]) : parse? s = some tree := by
  rw [parse?, hread.tags_eq, hnest]
  rfl

end XmlPublishing.Xml

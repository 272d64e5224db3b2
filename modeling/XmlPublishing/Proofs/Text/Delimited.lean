import Mathlib.Logic.Function.Basic
import XmlPublishing.Query.SqlXml

/-!
Text inside delimiters is read back, and cannot end them.

SQL ends a quoted identifier or literal at the first quote that is not doubled
(`readQuoted?`). What is read there is exactly what was written, whatever the text: reading gives
`x` and `rest` just for the quoted `x` followed by `rest`, if `rest` does not go on with the quote
(`readQuoted?_eq_some`). In an attribute value each entity stands for one character, and one pass
that replaces entities from left to right gives back what was escaped
(`unescapeAttribute_escapeAttribute`).
-/

namespace XmlPublishing.Text

/-! ## Quotes -/

section

variable {q c : Char} {cs x rest : List Char}

/-- The text up to the first `q` that is not doubled, and what follows that `q`. Of a doubled `q`
one belongs to the text. -/
def unquote (q : Char) : List Char → Option (List Char × List Char)
  | [] => none
  | c :: cs =>
    if c = q then
      match cs with
      | [] => some ([], [])
      | d :: ds =>
        if d = q then (unquote q ds).map fun (x, rest) => (q :: x, rest) else some ([], d :: ds)
    else (unquote q cs).map fun (x, rest) => (c :: x, rest)

theorem double_cons_self (q : Char) (cs : List Char) :
    double q (q :: cs) = q :: q :: double q cs := by
  rw [double, List.flatMap_cons, if_pos rfl]
  rfl

theorem double_cons_of_ne (h : c ≠ q) (cs : List Char) : double q (c :: cs) = c :: double q cs := by
  rw [double, List.flatMap_cons, if_neg h]
  rfl

theorem unquote_doubled (q : Char) (ds : List Char) :
    unquote q (q :: q :: ds) = (unquote q ds).map fun (x, rest) => (q :: x, rest) := by
  simp only [unquote, if_true]

theorem unquote_cons_of_ne (h : c ≠ q) (cs : List Char) :
    unquote q (c :: cs) = (unquote q cs).map fun (x, rest) => (c :: x, rest) := by
  rw [unquote.eq_def]
  exact if_neg h

theorem unquote_closed (h : rest.head? ≠ some q) : unquote q (q :: rest) = some ([], rest) := by
  cases rest with
  | nil => simp only [unquote, if_true]
  | cons d ds =>
    have hd : d ≠ q := fun hd => h (by rw [hd, List.head?_cons])
    simp only [unquote, if_true, if_neg hd]

theorem unquote_double (h : rest.head? ≠ some q) (x : List Char) :
    unquote q (double q x ++ q :: rest) = some (x, rest) := by
  induction x with
  | nil => exact unquote_closed h
  | cons c x ih =>
    by_cases hc : c = q
    · rw [hc, double_cons_self, List.cons_append, List.cons_append, unquote_doubled, ih]
      rfl
    · rw [double_cons_of_ne hc, List.cons_append, unquote_cons_of_ne hc, ih]
      rfl

theorem eq_double_of_unquote (h : unquote q cs = some (x, rest)) :
    cs = double q x ++ q :: rest ∧ rest.head? ≠ some q := by
  fun_induction unquote q cs generalizing x with
  | case1 => cases h
  | case2 =>
    cases h
    exact ⟨rfl, nofun⟩
  | case3 ds ih =>
    obtain ⟨⟨x', rest'⟩, hread, heq⟩ := Option.map_eq_some_iff.1 h
    cases heq
    obtain ⟨hds, hrest⟩ := ih hread
    exact ⟨by rw [double_cons_self, hds]; rfl, hrest⟩
  | case4 d ds hd =>
    cases h
    exact ⟨rfl, fun hhead => hd (Option.some.inj hhead)⟩
  | case5 c cs hc ih =>
    obtain ⟨⟨x', rest'⟩, hread, heq⟩ := Option.map_eq_some_iff.1 h
    cases heq
    obtain ⟨hcs, hrest⟩ := ih hread
    exact ⟨by rw [double_cons_of_ne hc, hcs]; rfl, hrest⟩

end

section

variable {q : Char} {s x rest : String}

/-- Reads a text in quotes `q` off the beginning of `s`: the text as it is meant, and the rest. -/
def readQuoted? (q : Char) (s : String) : Option (String × String) :=
  match s.toList with
  | [] => none
  | c :: cs =>
    if c = q then (unquote q cs).map fun (x, rest) => (String.ofList x, String.ofList rest)
    else none

theorem toList_quoted_append (q : Char) (x rest : String) :
    (quoted q x ++ rest).toList = q :: (double q x.toList ++ q :: rest.toList) := by
  simp [quoted]

/-- The reader ends just where the writer did. -/
theorem readQuoted?_eq_some : readQuoted? q s = some (x, rest) ↔
    s = quoted q x ++ rest ∧ rest.toList.head? ≠ some q := by
  rw [← String.toList_inj, toList_quoted_append, readQuoted?]
  cases s.toList with
  | nil => exact ⟨nofun, fun h => nomatch h.1⟩
  | cons c cs =>
    dsimp only
    constructor
    · intro h
      obtain ⟨hc, h⟩ := Option.ite_none_right_eq_some.1 h
      obtain ⟨⟨x', rest'⟩, hread, heq⟩ := Option.map_eq_some_iff.1 h
      cases heq
      obtain ⟨hcs, hrest⟩ := eq_double_of_unquote hread
      rw [hc, hcs, String.toList_ofList, String.toList_ofList]
      exact ⟨rfl, hrest⟩
    · rintro ⟨heq, hrest⟩
      obtain ⟨rfl, rfl⟩ := List.cons.inj heq
      rw [if_pos rfl, unquote_double hrest, Option.map_some, String.ofList_toList,
        String.ofList_toList]

theorem readQuoted?_quoted (q : Char) (x : String) : readQuoted? q (quoted q x) = some (x, "") :=
  readQuoted?_eq_some.2 ⟨String.append_empty.symm, nofun⟩

example : readQuoted? '"' "\"a\"\"\" b\"" = some ("a\"", " b\"") := by cbv

theorem quoted_injective (q : Char) : Function.Injective (quoted q) := by
  intro x y h
  have hx := readQuoted?_quoted q x
  rw [h, readQuoted?_quoted q y] at hx
  exact (congrArg Prod.fst (Option.some.inj hx)).symm

end

/-! ## Entities -/

section

variable {c : Char} {cs : List Char}

/-- The text with each of the three entities replaced by its character, in one pass. -/
def replaceEntities : List Char → List Char
  | '&' :: 'a' :: 'm' :: 'p' :: ';' :: cs => '&' :: replaceEntities cs
  | '&' :: 'l' :: 't' :: ';' :: cs => '<' :: replaceEntities cs
  | '&' :: 'q' :: 'u' :: 'o' :: 't' :: ';' :: cs => '"' :: replaceEntities cs
  | c :: cs => c :: replaceEntities cs
  | [] => []

def unescapeAttribute (s : String) : String := String.ofList (replaceEntities s.toList)

/-- What follows the ampersand of an entity. -/
def entityTails : List String := ["amp;", "lt;", "quot;"]

/-- A character is written as it is, or as an entity. -/
theorem escapeAttributeChar_cases (c : Char) :
    (c ∉ ['&', '<', '"'] ∧ escapeAttributeChar c = [c]) ∨
      ∃ tail ∈ entityTails, escapeAttributeChar c = '&' :: tail.toList := by
  unfold escapeAttributeChar
  split
  · exact .inr ⟨"amp;", by decide, rfl⟩
  · split
    · exact .inr ⟨"lt;", by decide, rfl⟩
    · split
      · exact .inr ⟨"quot;", by decide, rfl⟩
      · exact .inl ⟨by simp [*], rfl⟩

theorem replaceEntities_cons_of_ne (h : c ≠ '&') (cs : List Char) :
    replaceEntities (c :: cs) = c :: replaceEntities cs := by
  rw [replaceEntities] <;> simp [h]

theorem replaceEntities_escaped (c : Char) (cs : List Char) :
    replaceEntities (escapeAttributeChar c ++ cs) = c :: replaceEntities cs := by
  unfold escapeAttributeChar
  split
  · next h => rw [h]; rfl
  · next hamp =>
    split
    · next h => rw [h]; rfl
    · split
      · next h => rw [h]; rfl
      · exact replaceEntities_cons_of_ne hamp cs

theorem replaceEntities_flatMap (cs : List Char) :
    replaceEntities (cs.flatMap escapeAttributeChar) = cs := by
  induction cs with
  | nil => rfl
  | cons c cs ih => rw [List.flatMap_cons, replaceEntities_escaped, ih]

theorem unescapeAttribute_escapeAttribute (s : String) :
    unescapeAttribute (escapeAttribute s) = s := by
  rw [unescapeAttribute, escapeAttribute, String.toList_ofList, replaceEntities_flatMap,
    String.ofList_toList]

theorem notMem_of_mem_escapeAttributeChar {d : Char} (h : d ∈ escapeAttributeChar c) :
    d ∉ ['<', '"'] := by
  have htails : ∀ tail ∈ entityTails, '<' ∉ '&' :: tail.toList ∧ '"' ∉ '&' :: tail.toList := by
    decide
  rcases escapeAttributeChar_cases c with ⟨hc, hplain⟩ | ⟨tail, htail, hentity⟩
  · rw [hplain, List.mem_singleton] at h
    rw [h]
    exact fun hmem => hc (List.mem_cons_of_mem _ hmem)
  · rw [hentity] at h
    rw [List.mem_cons, List.mem_singleton]
    rintro (rfl | rfl)
    · exact (htails tail htail).1 h
    · exact (htails tail htail).2 h

/-- An ampersand within what is written for one character begins it. -/
theorem eq_entityTail_of_ampersand {before after : List Char}
    (h : escapeAttributeChar c = before ++ '&' :: after) :
    ∃ tail ∈ entityTails, after = tail.toList := by
  have htails : ∀ tail ∈ entityTails, '&' ∉ tail.toList := by decide
  rcases escapeAttributeChar_cases c with ⟨hc, hplain⟩ | ⟨tail, htail, hentity⟩
  · have hmem : '&' ∈ [c] := by
      rw [← hplain, h]
      exact List.mem_append_right _ List.mem_cons_self
    exact absurd (List.mem_singleton.1 hmem ▸ List.mem_cons_self) hc
  · rw [hentity] at h
    cases before with
    | nil => exact ⟨tail, htail, (List.cons.inj h).2.symm⟩
    | cons b before =>
      have hmem : '&' ∈ tail.toList := by
        rw [(List.cons.inj h).2]
        exact List.mem_append_right _ List.mem_cons_self
      exact absurd hmem (htails tail htail)

theorem prefix_of_ampersand {before after : List Char}
    (h : cs.flatMap escapeAttributeChar = before ++ '&' :: after) :
    ∃ tail ∈ entityTails, tail.toList <+: after := by
  induction cs generalizing before with
  | nil => exact absurd h.symm (List.append_ne_nil_of_right_ne_nil _ (List.cons_ne_nil _ _))
  | cons c cs ih =>
    rw [List.flatMap_cons] at h
    -- The ampersand is behind what is written for `c`, or within it.
    rcases List.append_eq_append_iff.1 h with ⟨before', -, hcs⟩ | ⟨within, hc, hafter⟩
    · exact ih hcs
    · cases within with
      | nil => exact @ih [] hafter.symm
      | cons d within =>
        obtain ⟨rfl, hrest⟩ := List.cons.inj hafter
        obtain ⟨tail, htail, rfl⟩ := eq_entityTail_of_ampersand hc
        exact ⟨tail, htail, hrest ▸ List.prefix_append _ _⟩

end

/-- A text that can stand between the double quotes of an attribute: it begins no tag and does not
end the value, and each of its ampersands begins an entity. -/
structure IsAttributeText (s : String) : Prop where
  no_tag : '<' ∉ s.toList
  no_quote : '"' ∉ s.toList
  entity : ∀ before after, s = before ++ "&" ++ after → ∃ tail ∈ entityTails, ∃ rest,
    after = tail ++ rest

theorem isAttributeText_escapeAttribute (s : String) : IsAttributeText (escapeAttribute s) := by
  have hmem : ∀ d ∈ (escapeAttribute s).toList, d ∉ ['<', '"'] := by
    rw [escapeAttribute, String.toList_ofList]
    intro d hd
    obtain ⟨c, -, hd⟩ := List.mem_flatMap.1 hd
    exact notMem_of_mem_escapeAttributeChar hd
  refine ⟨fun h => hmem _ h (by decide), fun h => hmem _ h (by decide), fun before after h => ?_⟩
  have hlist : s.toList.flatMap escapeAttributeChar = before.toList ++ '&' :: after.toList := by
    rw [← String.toList_ofList (l := s.toList.flatMap escapeAttributeChar), ← escapeAttribute, h]
    simp
  obtain ⟨tail, htail, rest, hrest⟩ := prefix_of_ampersand hlist
  refine ⟨tail, htail, String.ofList rest, ?_⟩
  rw [← String.toList_inj, String.toList_append, String.toList_ofList, hrest]

theorem escapeAttribute_injective : Function.Injective escapeAttribute :=
  Function.LeftInverse.injective unescapeAttribute_escapeAttribute

/-! ## Whole texts -/

/-- The text with `new` in place of every `c`. -/
def replaceAll (c : Char) (new s : String) : String :=
  String.ofList (s.toList.flatMap fun d => if d = c then new.toList else [d])

/-- Entities may be written one kind after the other, if ampersands come first. -/
theorem escapeAttribute_eq_replaceAll (s : String) : escapeAttribute s =
    replaceAll '"' "&quot;" (replaceAll '<' "&lt;" (replaceAll '&' "&amp;" s)) := by
  simp only [replaceAll, String.toList_ofList, List.flatMap_assoc, escapeAttribute]
  congr 2
  funext c
  by_cases hamp : c = '&'
  · rw [hamp]
    rfl
  · by_cases hlt : c = '<'
    · rw [hlt]
      rfl
    · unfold escapeAttributeChar
      simp only [if_neg hamp, if_neg hlt, List.flatMap_singleton]

theorem namespaceItem_eq (ns : String) :
    SqlXml.namespaceItem ns = "xmlnamespaces(default " ++ quoted '\'' ns ++ ")" := rfl

theorem namespaceItem_injective : Function.Injective SqlXml.namespaceItem := by
  intro x y h
  rw [namespaceItem_eq, namespaceItem_eq, String.append_left_inj, String.append_right_inj] at h
  exact quoted_injective '\'' h

/-- What is read off the beginning of a text as `x` is exactly what was written for `x`, up to its
end. -/
def IsReadAs (q : Char) (written x : String) : Prop :=
  ∀ s rest, readQuoted? q s = some (x, rest) ↔
    s = written ++ rest ∧ rest.toList.head? ≠ some q

/-- Names of elements and namespaces in a query, and values of attributes in a schema document, are
read back as they were given, and no text can end the delimiters around it. So different texts are
written differently. -/
theorem delimited_read_back :
    (∀ x, IsReadAs '"' (SqlXml.identifier x) x) ∧
    (∀ x, ∃ literal, SqlXml.namespaceItem x = "xmlnamespaces(default " ++ literal ++ ")" ∧
      IsReadAs '\'' literal x) ∧
    (∀ x, escapeAttribute x =
        replaceAll '"' "&quot;" (replaceAll '<' "&lt;" (replaceAll '&' "&amp;" x)) ∧
      IsAttributeText (escapeAttribute x) ∧ unescapeAttribute (escapeAttribute x) = x) ∧
    Function.Injective SqlXml.identifier ∧ Function.Injective SqlXml.namespaceItem ∧
    Function.Injective escapeAttribute := by
  have hread (q : Char) (x : String) : IsReadAs q (quoted q x) x := fun _ _ => readQuoted?_eq_some
  refine ⟨hread '"', fun x => ⟨_, namespaceItem_eq x, hread '\'' x⟩, fun x => ⟨?_, ?_, ?_⟩,
    quoted_injective '"', namespaceItem_injective, escapeAttribute_injective⟩
  · exact escapeAttribute_eq_replaceAll x
  · exact isAttributeText_escapeAttribute x
  · exact unescapeAttribute_escapeAttribute x

end XmlPublishing.Text

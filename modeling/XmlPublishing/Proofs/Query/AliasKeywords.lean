import XmlPublishing.Proofs.Query.AliasSpelling

/-!
Fresh aliases and the keywords that stand around them in queries.

A number makes an alias differ from every keyword, so only the bare initials of a relation can
spell one; it gets them unless they are in use or reserved. Four of the keywords are reserved. The
initials of a name can be any letters (`Text.initials_underscored`), so each of the others is the
alias of some relation wherever it is not in use (`Aliases.introduce_mem_queryKeywords_iff`).
-/

namespace XmlPublishing

namespace Text

theorem foldAscii_initials (name : String) : foldAscii (initials name) = initials name := by
  rw [foldAscii_eq_self_iff]
  intro c hc
  obtain ⟨letter, -, rfl⟩ := mem_initials hc
  exact toLower_toLower letter

theorem toLower_of_isLower (c : Char) : c.isLower → c.toLower = c :=
  toLower_cases (by decide +kernel) (fun _ hself _ => hself) c

theorem initial?_of_isLower {c : Char} (h : c.isLower) : initial? [c] = some c := by
  have halpha : c.isAlpha := Bool.or_eq_true_iff.2 (.inr h)
  rw [initial?, List.find?_cons_of_pos halpha, Option.map_some, toLower_of_isLower c h]

theorem isNameSeparator_of_isLower {c : Char} (h : c.isLower) : isNameSeparator c = false := by
  have hne (separator : Char) (hlower : separator.isLower = false) : c ≠ separator := by
    rintro rfl
    exact absurd h (Bool.eq_false_iff.1 hlower)
  simp [isNameSeparator, hne '_' rfl, hne '-' rfl, hne '.' rfl, hne ' ' rfl]

/-- The letters of a word with underscores between them. -/
def underscored (word : String) : String := String.ofList (word.toList.intersperse '_')

theorem split_intersperse {cs : List Char} (hne : cs ≠ [])
    (h : ∀ c ∈ cs, isNameSeparator c = false) :
    split isNameSeparator (cs.intersperse '_') = cs.map ([·]) := by
  induction cs with
  | nil => exact absurd rfl hne
  | cons c cs ih =>
    have hc : isNameSeparator c = false := h c List.mem_cons_self
    cases cs with
    | nil => exact split_cons_of_not_sep hc (split_nil _)
    | cons d ds =>
      have hrest := ih (List.cons_ne_nil d ds) fun x hx => h x (List.mem_cons_of_mem c hx)
      have hunderscore : split isNameSeparator ('_' :: (d :: ds).intersperse '_') =
          [] :: (d :: ds).map ([·]) := by
        rw [split_cons_of_sep rfl, hrest]
      rw [List.intersperse_cons_cons, split_cons_of_not_sep hc hunderscore]
      rfl

/-- The initials of a name can be any word in small letters. -/
theorem initials_underscored {word : String} (hne : word ≠ "") (h : word.toList.all Char.isLower) :
    initials (underscored word) = word := by
  have hlower := List.all_eq_true.1 h
  have hnil : word.toList ≠ [] := fun hnil => hne (String.toList_eq_nil_iff.1 hnil)
  have hinitial : ∀ c ∈ word.toList, initial? [c] = some c :=
    fun c hc => initial?_of_isLower (hlower c hc)
  have hletters : (word.toList.map ([·])).filterMap initial? = word.toList := by
    rw [List.filterMap_map]
    exact (List.filterMap_congr hinitial).trans List.filterMap_some
  rw [initials, underscored, String.toList_ofList,
    split_intersperse hnil fun c hc => isNameSeparator_of_isLower (hlower c hc), hletters]
  split
  · next hempty => exact absurd hempty hnil
  · exact String.ofList_toList

end Text

namespace Aliases

variable {s : Aliases} {r : RelationId}

/-- Keywords that queries have next to aliases. -/
def queryKeywords : List String :=
  ["select", "from", "where", "order", "by", "as", "and", "asc", "desc", "name", "default",
   "content"]

/-- Those of them that are not reserved. -/
def unreservedKeywords : List String := queryKeywords.filter (· ∉ reservedWords)

example : unreservedKeywords =
    ["select", "from", "where", "order", "desc", "name", "default", "content"] := by decide

theorem mem_unreservedKeywords {word : String} :
    word ∈ unreservedKeywords ↔ word ∈ queryKeywords ∧ word ∉ reservedWords := by
  simp [unreservedKeywords]

private theorem queryKeywords_withoutDigits :
    ∀ word ∈ queryKeywords, ¬ word.toList.any Char.isDigit := by
  decide

private theorem queryKeywords_spellable :
    ∀ word ∈ queryKeywords, word ≠ "" ∧ word.toList.all Char.isLower := by
  decide

theorem fresh_of_isFree (h : s.isFree (Text.initials r.name)) :
    s.fresh r = Text.initials r.name := by
  rw [fresh, freshName, if_pos h]

theorem isFree_initials_iff : s.isFree (Text.initials r.name) ↔
    Text.initials r.name ∉ s.inUse ∧ Text.initials r.name ∉ reservedWords := by
  rw [isFree_iff, Text.foldAscii_initials]

/-- A fresh alias without digits is the initials, which are then free. -/
theorem fresh_eq_initials (h : ¬ (s.fresh r).toList.any Char.isDigit) :
    s.fresh r = Text.initials r.name := by
  obtain ⟨digits, hname, hdigits⟩ := s.numbered_fresh r
  have hnone : digits.toList = [] := List.eq_nil_iff_forall_not_mem.2 fun c hc => by
    refine h (List.any_eq_true.2 ⟨c, ?_, hdigits c hc⟩)
    rw [hname, String.toList_append]
    exact List.mem_append_right _ hc
  rw [hname, String.toList_eq_nil_iff.1 hnone, String.append_empty]

theorem fresh_eq_initials_of_keyword (h : s.fresh r ∈ queryKeywords) :
    s.fresh r = Text.initials r.name :=
  fresh_eq_initials (queryKeywords_withoutDigits _ h)

theorem fresh_mem_queryKeywords_iff : s.fresh r ∈ queryKeywords ↔
    Text.initials r.name ∈ unreservedKeywords ∧ Text.initials r.name ∉ s.inUse := by
  rw [mem_unreservedKeywords]
  constructor
  · intro h
    have hinitials := fresh_eq_initials_of_keyword h
    obtain ⟨hinUse, hreserved⟩ := isFree_initials_iff.1 (hinitials ▸ isFree_fresh s r)
    exact ⟨⟨hinitials ▸ h, hreserved⟩, hinUse⟩
  · rintro ⟨⟨hkeyword, hreserved⟩, hinUse⟩
    rwa [fresh_of_isFree (isFree_initials_iff.2 ⟨hinUse, hreserved⟩)]

/-- Some relation has the keyword as its initials, and gets it as its alias. -/
theorem exists_fresh_eq {word : String} (hword : word ∈ unreservedKeywords)
    (hinUse : word ∉ s.inUse) : ∃ r, s.fresh r = word := by
  obtain ⟨hkeyword, hreserved⟩ := mem_unreservedKeywords.1 hword
  obtain ⟨hne, hletters⟩ := queryKeywords_spellable word hkeyword
  have hinitials := Text.initials_underscored hne hletters
  let r : RelationId := ⟨none, Text.underscored word⟩
  have hfree : s.isFree (Text.initials r.name) := by
    rw [isFree_initials_iff, hinitials]
    exact ⟨hinUse, hreserved⟩
  exact ⟨r, (fresh_of_isFree hfree).trans hinitials⟩

/-- A fresh alias is no reserved word. It is a keyword of queries exactly when the initials of its
relation are one that is neither reserved nor in use, and every such keyword is the alias of some
relation. -/
theorem introduce_mem_queryKeywords_iff (s : Aliases) :
    (∀ r, Text.foldAscii (s.introduce r).1 ∉ reservedWords ∧
      (Text.foldAscii (s.introduce r).1 ∈ queryKeywords ↔
        Text.initials r.name ∈ unreservedKeywords ∧ Text.initials r.name ∉ s.inUse)) ∧
    ∀ word, (word ∈ queryKeywords ∧ ∃ r, (s.introduce r).1 = word) ↔
      word ∈ unreservedKeywords ∧ word ∉ s.inUse := by
  constructor
  · intro r
    refine ⟨(isFree_iff.1 (isFree_fresh s r)).2, ?_⟩
    rw [show Text.foldAscii (s.introduce r).1 = s.fresh r from foldAscii_fresh s r]
    exact fresh_mem_queryKeywords_iff
  · intro word
    constructor
    · rintro ⟨hword, r, rfl⟩
      have hfresh := fresh_mem_queryKeywords_iff.1 hword
      rwa [← fresh_eq_initials_of_keyword hword] at hfresh
    · rintro ⟨hword, hinUse⟩
      exact ⟨(mem_unreservedKeywords.1 hword).1, exists_fresh_eq hword hinUse⟩

/-- The alias of `first_row_of_month` is `from`. -/
theorem introduce_eq_keyword :
    (empty.introduce ⟨none, "first_row_of_month"⟩).1 = "from" ∧ "from" ∈ queryKeywords :=
  ⟨by decide +kernel, by decide⟩

end Aliases

end XmlPublishing

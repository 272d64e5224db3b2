import XmlPublishing.Proofs.FreshName
import XmlPublishing.Proofs.Schema.Lookup
import XmlPublishing.Proofs.Text.Case
import XmlPublishing.Query.Aliases

/-!
Fresh aliases are free: not in use, and no keyword (`Aliases.isFree_fresh`).

A keyword has no digits, so numbering always leads away from the keywords, and the search only has
to get past the aliases in use. What it finds is written in small ASCII letters and digits
(`Aliases.mem_fresh`), and is the same for ids that are equal up to the case of ASCII letters
(`Aliases.fresh_congr`).
-/

namespace XmlPublishing

namespace Text

theorem toLower_of_isDigit {c : Char} (h : c.isDigit) : c.toLower = c := by
  have hc : ¬ (c.val ≥ 65 ∧ c.val ≤ 90) := by
    intro hc
    have hle : c.val ≤ 57 := by
      have := (Bool.and_eq_true_iff.1 h).2
      exact of_decide_eq_true this
    have h65 := UInt32.le_iff_toNat_le.1 hc.1
    have h57 := UInt32.le_iff_toNat_le.1 hle
    simp at h65 h57
    omega
  exact dif_neg hc

theorem mem_initials {name : String} {c : Char} (h : c ∈ (initials name).toList) :
    ∃ letter : Char, letter.isAlpha ∧ c = letter.toLower := by
  unfold initials at h
  split at h
  · obtain rfl := List.mem_singleton.1 h
    exact ⟨'t', rfl, rfl⟩
  · rw [String.toList_ofList] at h
    obtain ⟨word, -, hword⟩ := List.mem_filterMap.1 h
    obtain ⟨letter, hletter, rfl⟩ := Option.map_eq_some_iff.1 hword
    exact ⟨letter, List.find?_some hletter, rfl⟩

theorem isNameSeparator_toLower (c : Char) : isNameSeparator c.toLower = isNameSeparator c :=
  toLower_cases (by decide +kernel) (fun c h => by rw [h]) c

theorem isAlpha_toLower (c : Char) : c.toLower.isAlpha = c.isAlpha :=
  toLower_cases (by decide +kernel) (fun c h => by rw [h]) c

/-- Characters may be replaced before the text is cut if separators stay what they are. -/
theorem split_map {sep : Char → Bool} {f : Char → Char} (h : ∀ c, sep (f c) = sep c)
    (cs : List Char) : split sep (cs.map f) = (split sep cs).map (List.map f) := by
  induction cs with
  | nil => rfl
  | cons c cs ih =>
    obtain ⟨piece, pieces, hcs⟩ := List.exists_cons_of_ne_nil (split_ne_nil sep cs)
    cases hc : sep c with
    | true =>
      rw [List.map_cons, split_cons_of_sep ((h c).trans hc), split_cons_of_sep hc, ih]
      rfl
    | false =>
      rw [hcs] at ih
      rw [List.map_cons, split_cons_of_not_sep ((h c).trans hc) ih, split_cons_of_not_sep hc hcs]
      rfl

theorem initial?_map_toLower (word : List Char) :
    initial? (word.map Char.toLower) = initial? word := by
  have halpha : Char.isAlpha ∘ Char.toLower = Char.isAlpha := funext isAlpha_toLower
  have hsmall : Char.toLower ∘ Char.toLower = Char.toLower := funext toLower_toLower
  rw [initial?, List.find?_map, halpha, Option.map_map, hsmall, initial?]

theorem initials_foldAscii (name : String) : initials (foldAscii name) = initials name := by
  have hinitial : initial? ∘ List.map Char.toLower = initial? := funext initial?_map_toLower
  rw [initials, foldAscii, String.toList_ofList, split_map isNameSeparator_toLower,
    List.filterMap_map, hinitial, initials]

theorem Alike.initials_eq {a b : String} (h : Alike a b) : initials a = initials b := by
  rw [← initials_foldAscii a, ← initials_foldAscii b, h]

/-- Case folding keeps digits where they are. -/
theorem mem_foldAscii_of_isDigit {s : String} {c : Char} (h : c.isDigit) (hc : c ∈ s.toList) :
    c ∈ (foldAscii s).toList := by
  rw [foldAscii, String.toList_ofList]
  exact List.mem_map.2 ⟨c, hc, toLower_of_isDigit h⟩

/-- A name with a digit is no spelling of a word without digits. -/
theorem foldAscii_notMem_of_isDigit {words : List String}
    (hwords : ∀ word ∈ words, ¬ word.toList.any Char.isDigit) {name : String} {c : Char}
    (h : c.isDigit) (hc : c ∈ name.toList) : foldAscii name ∉ words :=
  fun hword => hwords _ hword (List.any_eq_true.2 ⟨c, mem_foldAscii_of_isDigit h hc, h⟩)

end Text

theorem exists_digit_toString (k : Nat) : ∃ c ∈ (toString k).toList, c.isDigit := by
  have hne : (toString k).toList ≠ [] := by
    rw [Nat.toString_eq_ofList_toDigits, String.toList_ofList]
    exact Nat.toDigits_ne_nil
  obtain ⟨c, cs, hcs⟩ := List.exists_cons_of_ne_nil hne
  have hc : c ∈ (toString k).toList := hcs ▸ List.mem_cons_self
  exact ⟨c, hc, isDigit_of_mem_toString hc⟩

namespace Aliases

variable {s : Aliases} {r : RelationId}

theorem isFree_iff {name : String} :
    s.isFree name ↔ name ∉ s.inUse ∧ Text.foldAscii name ∉ reservedWords := by
  simp [isFree]

private theorem reservedWords_withoutDigits :
    ∀ word ∈ reservedWords, ¬ word.toList.any Char.isDigit := by
  decide

theorem numbered_notMem_reservedWords (base : String) (k : Nat) :
    Text.foldAscii (base ++ toString k) ∉ reservedWords := by
  obtain ⟨c, hc, hdigit⟩ := exists_digit_toString k
  refine Text.foldAscii_notMem_of_isDigit reservedWords_withoutDigits hdigit ?_
  rw [String.toList_append]
  exact List.mem_append_right _ hc

theorem isFree_fresh (s : Aliases) (r : RelationId) : s.isFree (s.fresh r) := by
  refine isFree_freshName s.inUse.toList (fun k hk => ?_) (Nat.le_add_right _ _)
  rw [Bool.eq_false_iff, ne_eq, isFree_iff, not_and_or, not_not] at hk
  exact hk.resolve_right fun h => h (numbered_notMem_reservedWords _ k)

theorem fresh_notMem (s : Aliases) (r : RelationId) : s.fresh r ∉ s.inUse :=
  (isFree_iff.1 (isFree_fresh s r)).1

theorem numbered_fresh (s : Aliases) (r : RelationId) :
    Numbered (Text.initials r.name) (s.fresh r) :=
  numbered_freshName ..

/-- Fresh aliases are written in small ASCII letters and digits. -/
theorem mem_fresh {c : Char} (h : c ∈ (s.fresh r).toList) :
    c.isDigit ∨ ∃ letter : Char, letter.isAlpha ∧ c = letter.toLower := by
  obtain ⟨digits, hname, hdigits⟩ := s.numbered_fresh r
  rw [hname, String.toList_append, List.mem_append] at h
  rcases h with h | h
  · exact .inr (Text.mem_initials h)
  · exact .inl (hdigits c h)

theorem fresh_congr {r r' : RelationId} (s : Aliases) (h : r == r') : s.fresh r = s.fresh r' := by
  rw [fresh, fresh, (RelationId.name_alike h).initials_eq]

theorem introduceAs_congr {r r' : RelationId} (s : Aliases) (name? : Option String)
    (h : r == r') : s.introduceAs name? r = s.introduceAs name? r' := by
  cases name? with
  | some name => rfl
  | none => rw [introduceAs, introduceAs, introduce, introduce, s.fresh_congr h]

theorem notMem_empty (name : String) : name ∉ empty.inUse := List.not_mem_nil

theorem introduce_snd (s : Aliases) (r : RelationId) :
    (s.introduce r).2 = s.add (s.fresh r) := rfl

theorem introduceAs_snd (s : Aliases) (name? : Option String) (r : RelationId) :
    (s.introduceAs name? r).2 = s.add (s.introduceAs name? r).1 := by
  cases name? <;> rfl

theorem mem_add {name a : String} : a ∈ (s.add name).inUse ↔ a = name ∨ a ∈ s.inUse :=
  NameSet.mem_insert

theorem mem_add_self (s : Aliases) (name : String) : name ∈ (s.add name).inUse :=
  mem_add.2 (.inl rfl)

theorem mem_add_of_mem {name a : String} (h : a ∈ s.inUse) : a ∈ (s.add name).inUse :=
  mem_add.2 (.inr h)

end Aliases

end XmlPublishing

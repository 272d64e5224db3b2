import XmlPublishing.Text.Split

/-!
Cutting text at separators.

Joined pieces are cut where they were joined (`split_append_cons`, `split_intercalate`). A piece is
a part of the text without separators (`mem_split`), and there is one more of them than there are
separators (`length_split`). Behind the last occurrence of a character there is none
(`splitLast?_eq_some`). The words on both sides of a space are the words of the text
(`words_append_space`).
-/

namespace XmlPublishing.Text

variable {sep : Char → Bool} {d : Char} {cs piece before after : List Char}
  {pieces : List (List Char)} {s w : String}

theorem split_eq_splitOnP (sep : Char → Bool) (cs : List Char) :
    split sep cs = cs.splitOnP sep := by
  induction cs with
  | nil => rfl
  | cons c cs ih =>
    rw [List.splitOnP_cons_eq_if_modifyHead]
    cases hc : sep c with
    | true => rw [split_cons_of_sep hc, ih, if_pos rfl]
    | false =>
      obtain ⟨piece, pieces, h⟩ := List.exists_cons_of_ne_nil (split_ne_nil sep cs)
      rw [split_cons_of_not_sep hc h, ← ih, h]
      rfl

theorem split_of_unseparated (h : ∀ c ∈ cs, sep c = false) : split sep cs = [cs] := by
  rw [split_eq_splitOnP, List.splitOnP_eq_singleton h]

theorem split_append_cons {c : Char} (h : sep c = true) (before after : List Char) :
    split sep (before ++ c :: after) = split sep before ++ split sep after := by
  rw [split_eq_splitOnP, split_eq_splitOnP, split_eq_splitOnP,
    List.splitOnP_append_cons before after h]

/-- A text without `d` in front only makes the first piece longer. -/
theorem split_append_of_notMem (h : d ∉ before) (hcs : split (· == d) cs = piece :: pieces) :
    split (· == d) (before ++ cs) = (before ++ piece) :: pieces := by
  induction before with
  | nil => exact hcs
  | cons c before ih =>
    obtain ⟨hc, hbefore⟩ := not_or.1 (mt List.mem_cons.2 h)
    have hsep : (c == d) = false := beq_eq_false_iff_ne.2 (Ne.symm hc)
    exact @split_cons_of_not_sep (· == d) c hsep _ _ _ (ih hbefore)

theorem split_append_cons_of_notMem (h : d ∉ before) (after : List Char) :
    split (· == d) (before ++ d :: after) = before :: split (· == d) after := by
  have hafter : split (· == d) (d :: after) = [] :: split (· == d) after :=
    @split_cons_of_sep (· == d) d (beq_self_eq_true d) after
  rw [split_append_of_notMem h hafter, List.append_nil]

theorem mem_split (h : piece ∈ split sep cs) : ∀ c ∈ piece, c ∈ cs ∧ sep c = false := by
  induction cs generalizing piece with
  | nil =>
    rw [split_nil, List.mem_singleton] at h
    simp [h]
  | cons c cs ih =>
    have hrest {p : List Char} (hp : p ∈ split sep cs) :
        ∀ d ∈ p, d ∈ c :: cs ∧ sep d = false := fun d hd =>
      (ih hp d hd).imp (List.mem_cons_of_mem c) id
    cases hc : sep c with
    | true =>
      rw [split_cons_of_sep hc] at h
      rcases List.mem_cons.1 h with rfl | h
      · simp
      · exact hrest h
    | false =>
      obtain ⟨first, pieces, hcs⟩ := List.exists_cons_of_ne_nil (split_ne_nil sep cs)
      rw [split_cons_of_not_sep hc hcs] at h
      rw [hcs] at hrest
      rcases List.mem_cons.1 h with rfl | h
      · exact List.forall_mem_cons.2 ⟨⟨List.mem_cons_self, hc⟩, hrest List.mem_cons_self⟩
      · exact hrest (List.mem_cons_of_mem first h)

theorem length_split (sep : Char → Bool) (cs : List Char) :
    (split sep cs).length = cs.countP sep + 1 := by
  induction cs with
  | nil => rfl
  | cons c cs ih =>
    cases hc : sep c with
    | true => rw [split_cons_of_sep hc, List.length_cons, ih, List.countP_cons_of_pos hc]
    | false =>
      obtain ⟨piece, pieces, hcs⟩ := List.exists_cons_of_ne_nil (split_ne_nil sep cs)
      rw [split_cons_of_not_sep hc hcs, List.countP_cons_of_neg (by simp [hc]), ← ih, hcs]
      rfl

theorem split_intercalate {pieces : List (List Char)} (h : ∀ p ∈ pieces, d ∉ p)
    (hne : pieces ≠ []) : split (· == d) ([d].intercalate pieces) = pieces := by
  rw [split_eq_splitOnP]
  exact List.splitOn_intercalate d h hne

theorem splitOn_intercalate {pieces : List String} (h : ∀ p ∈ pieces, d ∉ p.toList)
    (hne : pieces ≠ []) : splitOn d ((String.ofList [d]).intercalate pieces) = pieces := by
  have hpieces : ∀ p ∈ pieces.map String.toList, d ∉ p := List.forall_mem_map.2 h
  rw [splitOn, String.toList_intercalate, String.toList_ofList,
    split_intercalate hpieces (by simpa using hne)]
  simp [Function.comp_def]

theorem notMem_of_mem_splitOn (h : w ∈ splitOn d s) : d ∉ w.toList := by
  obtain ⟨piece, hpiece, rfl⟩ := List.mem_map.1 h
  rw [String.toList_ofList]
  intro hd
  simpa using (mem_split hpiece d hd).2

theorem length_splitOn (d : Char) (s : String) :
    (splitOn d s).length = s.toList.count d + 1 := by
  rw [splitOn, List.length_map, length_split]
  rfl

/-! ## The last occurrence -/

theorem splitLast?_eq_none : splitLast? d cs = none ↔ d ∉ cs := by
  induction cs with
  | nil => simp [splitLast?]
  | cons c cs ih =>
    rw [splitLast?, List.mem_cons, not_or, ← ih]
    cases splitLast? d cs with
    | none => simp [eq_comm]
    | some parts => simp

theorem splitLast?_append_cons (before : List Char) (h : d ∉ after) :
    splitLast? d (before ++ d :: after) = some (before, after) := by
  induction before with
  | nil => rw [List.nil_append, splitLast?, splitLast?_eq_none.2 h, if_pos rfl]
  | cons c before ih => rw [List.cons_append, splitLast?, ih]

theorem splitLast?_eq_some :
    splitLast? d cs = some (before, after) ↔ cs = before ++ d :: after ∧ d ∉ after := by
  constructor
  · intro h
    induction cs generalizing before with
    | nil => cases h
    | cons c cs ih =>
      rw [splitLast?] at h
      cases hcs : splitLast? d cs with
      | none =>
        rw [hcs] at h
        obtain ⟨hc, h⟩ := Option.ite_none_right_eq_some.1 h
        cases h
        exact ⟨by rw [hc, List.nil_append], splitLast?_eq_none.1 hcs⟩
      | some parts =>
        rw [hcs] at h
        cases h
        obtain ⟨rfl, hafter⟩ := ih hcs
        exact ⟨rfl, hafter⟩
  · rintro ⟨rfl, h⟩
    exact splitLast?_append_cons before h

/-! ## Words -/

/-- A text that is a single word as a whole. -/
structure IsWord (s : String) : Prop where
  ne_empty : s ≠ ""
  unspaced : ∀ c ∈ s.toList, isBlank c = false

theorem isWord_iff : IsWord s ↔ s ≠ "" ∧ s.toList.all (!isBlank ·) := by
  simp only [List.all_eq_true, Bool.not_eq_true']
  exact ⟨fun h => ⟨h.ne_empty, h.unspaced⟩, fun h => ⟨h.1, h.2⟩⟩

instance (s : String) : Decidable (IsWord s) := decidable_of_iff _ isWord_iff.symm

theorem IsWord.words_eq (h : IsWord s) : words s = [s] := by
  have hne : s.toList ≠ [] := fun hnil => h.ne_empty (String.toList_eq_nil_iff.1 hnil)
  rw [words, split_of_unseparated h.unspaced, List.filter_cons_of_pos (by simp [hne])]
  simp

theorem isWord_of_mem_words (h : w ∈ words s) : IsWord w ∧ ∀ c ∈ w.toList, c ∈ s.toList := by
  obtain ⟨piece, hpiece, rfl⟩ := List.mem_map.1 h
  obtain ⟨hpiece, hne⟩ := List.mem_filter.1 hpiece
  have hmem := mem_split hpiece
  rw [String.toList_ofList]
  refine ⟨⟨?_, ?_⟩, fun c hc => (hmem c hc).1⟩
  · simpa using hne
  · rw [String.toList_ofList]
    exact fun c hc => (hmem c hc).2

theorem words_append_space (s s' : String) : words (s ++ " " ++ s') = words s ++ words s' := by
  have hspace : (s ++ " " ++ s').toList = s.toList ++ ' ' :: s'.toList := by simp
  rw [words, hspace, split_append_cons (by decide), List.filter_append, List.map_append]
  rfl

theorem words_space_append (s : String) : words (" " ++ s) = words s := words_append_space "" s

end XmlPublishing.Text

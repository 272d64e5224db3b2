import XmlPublishing.Layout.SortOrder
import XmlPublishing.Proofs.Sequence
import XmlPublishing.Proofs.Text.Splitting

/-!
Sort orders and the texts they are read from.

A text is an order exactly when the words between any two of its commas are those of a term
(`SortOrder.parse_eq_ok`). The field of such a term is a word without commas, and an order of such
fields is read back from its text. So these orders are those that are read at all, and those that
their texts do not change (`SortOrder.text_read_back`).
-/

namespace XmlPublishing

namespace SortDirection

theorem isWord_keyword (direction : SortDirection) : Text.IsWord direction.keyword := by
  cases direction <;> decide

theorem ofWord?_keyword (direction : SortDirection) :
    ofWord? direction.keyword = some direction := by
  cases direction <;> decide

end SortDirection

namespace SortTerm

variable {t : SortTerm} {whole : String} {words : List String}

/-- The words of a term: its field, and its direction unless that is ascending. -/
inductive Reads : List String → SortTerm → Prop
  | field (field : String) : Reads [field] ⟨field, .asc⟩
  | directed (field : String) {word : String} {direction : SortDirection} :
      SortDirection.ofWord? word = some direction → Reads [field, word] ⟨field, direction⟩

theorem ofWords_eq_ok : ofWords whole words = .ok t ↔ Reads words t := by
  constructor
  · intro h
    unfold ofWords at h
    split at h
    · cases h
    · cases h
      exact .field _
    · split at h
      · cases h
      · next hword =>
        cases h
        exact .directed _ hword
      · cases h
  · intro h
    cases h with
    | field field => rfl
    | directed field hword =>
      unfold ofWords
      simp only [hword]

theorem Reads.field_mem (h : Reads words t) : t.field ∈ words := by
  cases h <;> exact List.mem_cons_self

/-- The field is a word without commas. -/
structure IsPlain (t : SortTerm) : Prop where
  word : Text.IsWord t.field
  commaless : ',' ∉ t.field.toList

instance (t : SortTerm) : Decidable t.IsPlain :=
  decidable_of_iff (Text.IsWord t.field ∧ ',' ∉ t.field.toList)
    ⟨fun h => ⟨h.1, h.2⟩, fun h => ⟨h.word, h.commaless⟩⟩

theorem IsPlain.reads_words_text (h : t.IsPlain) : Reads (Text.words t.text) t := by
  rw [text, Text.words_append_space, h.word.words_eq, t.direction.isWord_keyword.words_eq]
  exact .directed t.field t.direction.ofWord?_keyword

theorem IsPlain.comma_notMem_text (h : t.IsPlain) : ',' ∉ t.text.toList := by
  have hkeyword : ',' ∉ t.direction.keyword.toList := by cases t.direction <;> decide
  simp [text, h.commaless, hkeyword]

end SortTerm

namespace SortOrder

variable {o : SortOrder} {whole : String}

/-- An order made of terms that are added one after another. -/
inductive Chained : SortOrder → Prop
  | single (field : String) (direction : SortDirection) : Chained (single field direction)
  | andThen {o : SortOrder} (field : String) (direction : SortDirection) :
      Chained o → Chained (o.andThen field direction)

theorem Chained.terms_ne_nil (h : o.Chained) : o.terms ≠ [] := by
  cases h with
  | single field direction => exact List.cons_ne_nil _ _
  | andThen field direction _ => exact List.append_ne_nil_of_right_ne_nil _ (List.cons_ne_nil _ _)

theorem parse_eq_ok : parse whole = .ok o ↔
    List.Forall₂ (fun piece t => SortTerm.Reads (Text.words piece) t)
      (Text.splitOn ',' whole) o.terms := by
  rw [parse, map_eq_ok]
  simp only [mapM_eq_ok, SortTerm.ofWords_eq_ok]
  constructor
  · rintro ⟨terms, h, rfl⟩
    exact h
  · intro h
    exact ⟨o.terms, h, rfl⟩

theorem isPlain_of_parse (h : parse whole = .ok o) : ∀ t ∈ o.terms, t.IsPlain := by
  intro t ht
  obtain ⟨piece, hpiece, hreads⟩ := forall₂_exists_left (parse_eq_ok.1 h) ht
  obtain ⟨hword, hmem⟩ := Text.isWord_of_mem_words hreads.field_mem
  exact ⟨hword, fun hcomma => Text.notMem_of_mem_splitOn hpiece (hmem ',' hcomma)⟩

theorem length_terms_of_parse (h : parse whole = .ok o) :
    o.terms.length = whole.toList.count ',' + 1 := by
  rw [← (parse_eq_ok.1 h).length_eq, Text.length_splitOn]

/-- The space behind a comma can be taken for the beginning of the next term. -/
theorem intercalate_comma (first : String) (rest : List String) :
    ", ".intercalate (first :: rest) = ",".intercalate (first :: rest.map (" " ++ ·)) := by
  induction rest generalizing first with
  | nil => rw [List.map_nil, String.intercalate_singleton, String.intercalate_singleton]
  | cons second rest ih =>
    have hcomma : ", " = "," ++ " " := rfl
    rw [String.intercalate_cons_cons, ih, List.map_cons, String.intercalate_cons_cons,
      String.intercalate_cons_append, hcomma]
    simp only [String.append_assoc]

theorem parse_text (hne : o.terms ≠ []) (h : ∀ t ∈ o.terms, t.IsPlain) :
    parse o.text = .ok o := by
  obtain ⟨terms⟩ := o
  obtain ⟨t, ts, rfl⟩ := List.exists_cons_of_ne_nil hne
  obtain ⟨ht, hts⟩ := List.forall_mem_cons.1 h
  have hpieces : Text.splitOn ',' (text ⟨t :: ts⟩) =
      t.text :: (ts.map SortTerm.text).map (" " ++ ·) := by
    rw [text, List.map_cons, intercalate_comma]
    refine Text.splitOn_intercalate (List.forall_mem_cons.2 ⟨ht.comma_notMem_text, ?_⟩)
      (List.cons_ne_nil _ _)
    simp only [List.forall_mem_map, String.toList_append, List.mem_append, not_or]
    exact fun t' ht' => ⟨by decide, (hts t' ht').comma_notMem_text⟩
  rw [parse_eq_ok, hpieces, List.map_map]
  refine .cons ht.reads_words_text (List.forall₂_map_left_iff.2 (List.forall₂_same.2 ?_))
  intro t' ht'
  rw [Function.comp_apply, Text.words_space_append]
  exact (hts t' ht').reads_words_text

/-- An order is read back from its text exactly when each of its fields is a word without commas.
An order that is read from any text has one term more than the text has commas, and is read back
from its own. -/
theorem text_read_back :
    (∀ o : SortOrder, o.Chained → (parse o.text = .ok o ↔ ∀ t ∈ o.terms, t.IsPlain)) ∧
    ∀ whole o, parse whole = .ok o →
      o.terms.length = whole.toList.count ',' + 1 ∧ parse o.text = .ok o := by
  refine ⟨fun o ho => ⟨isPlain_of_parse, parse_text ho.terms_ne_nil⟩, fun whole o h => ?_⟩
  have hlength := length_terms_of_parse h
  refine ⟨hlength, parse_text (fun hnil => ?_) (isPlain_of_parse h)⟩
  rw [hnil] at hlength
  cases hlength

end SortOrder

namespace Staff

/-- Fields that are called like directions. -/
def askew : SortOrder := (SortOrder.single "desc" .asc).andThen "ASC" .desc

theorem askew_read_back :
    askew.Chained ∧ (∀ t ∈ askew.terms, t.IsPlain) ∧
      SortOrder.parse "desc asc, ASC desc" = .ok askew := by
  have hchained : askew.Chained := .andThen _ _ (.single _ _)
  have hplain : ∀ t ∈ askew.terms, t.IsPlain := by decide
  exact ⟨hchained, hplain, (SortOrder.text_read_back.1 askew hchained).2 hplain⟩

end Staff

end XmlPublishing

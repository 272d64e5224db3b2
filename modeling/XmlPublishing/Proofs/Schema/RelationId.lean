import XmlPublishing.Proofs.Text.Splitting
import XmlPublishing.Schema.Basic

/-!
Relation ids and the texts they are read from.

The text of an id forgets where its schema ends: only the last full stop is taken for the one that
separates. So every text is the text of the id that it is read as, and an id is read back from its
text exactly when its name has no full stop (`RelationId.text_faithful`). The full stop is looked
for before the quotes are, so a quoted identifier is taken literally under the same condition
(`Schema.idOf_inQuotes_iff`).
-/

namespace XmlPublishing

namespace RelationId

variable {r r' : RelationId}

theorem text_parse (text : String) : (parse text).text = text := by
  rw [parse]
  cases h : Text.splitLast? '.' text.toList with
  | none => rfl
  | some parts =>
    obtain ⟨before, after⟩ := parts
    obtain ⟨htext, -⟩ := Text.splitLast?_eq_some.1 h
    rw [RelationId.text, ← String.toList_inj, htext]
    simp

theorem dot_notMem_name_parse (text : String) : '.' ∉ (parse text).name.toList := by
  rw [parse]
  cases h : Text.splitLast? '.' text.toList with
  | none => exact Text.splitLast?_eq_none.1 h
  | some parts =>
    rw [String.toList_ofList]
    exact (Text.splitLast?_eq_some.1 h).2

theorem parse_text (h : '.' ∉ r.name.toList) : parse r.text = r := by
  obtain ⟨schema, name⟩ := r
  cases schema with
  | none => simp [RelationId.text, parse, Text.splitLast?_eq_none.2 h]
  | some schema =>
    have htext : (RelationId.text ⟨some schema, name⟩).toList =
        schema.toList ++ '.' :: name.toList := by simp [RelationId.text]
    rw [parse, htext, Text.splitLast?_append_cons _ h]
    simp

/-- A text is read as an id that is written as this text. The ids that are read back from their
texts are those whose names have no full stop, whatever their schemas, and no two of these are
written alike. -/
theorem text_faithful :
    (∀ text, (parse text).text = text) ∧
    (∀ r, parse r.text = r ↔ '.' ∉ r.name.toList) ∧
    ∀ r r' : RelationId, '.' ∉ r.name.toList → '.' ∉ r'.name.toList →
      (r.text = r'.text ↔ r = r') := by
  refine ⟨text_parse, fun r => ⟨fun h => ?_, parse_text⟩, fun r r' hr hr' => ⟨fun h => ?_, ?_⟩⟩
  · rw [← h]
    exact dot_notMem_name_parse r.text
  · rw [← parse_text hr, h, parse_text hr']
  · rintro rfl
    rfl

end RelationId

namespace Staff

/-- An empty schema part is not a missing one, also in writing. -/
theorem text_emptySchema_ne :
    '.' ∉ "e".toList ∧ RelationId.text ⟨some "", "e"⟩ ≠ RelationId.text ⟨none, "e"⟩ := by
  have hdot : '.' ∉ "e".toList := by decide
  refine ⟨hdot, fun h => ?_⟩
  obtain ⟨-, -, hinj⟩ := RelationId.text_faithful
  exact absurd ((hinj ⟨some "", "e"⟩ ⟨none, "e"⟩ hdot hdot).1 h) (by decide)

end Staff

/-! ## Quoted identifiers -/

/-- The text between double quotes. -/
def inQuotes (s : String) : String := "\"" ++ s ++ "\""

theorem toList_inQuotes (s : String) : (inQuotes s).toList = '"' :: (s.toList ++ ['"']) := by
  simp [inQuotes]

theorem unquoted?_eq_some {ident literal : String} :
    unquoted? ident = some literal ↔ ident = inQuotes literal := by
  constructor
  · intro h
    unfold unquoted? at h
    split at h
    · next rest hident =>
      obtain ⟨hlast, h⟩ := Option.ite_none_right_eq_some.1 h
      obtain ⟨inside, rfl⟩ := List.getLast?_eq_some_iff.1 hlast
      cases h
      rw [← String.toList_inj, hident, toList_inQuotes, List.dropLast_concat, String.toList_ofList]
    · cases h
  · rintro rfl
    simp [unquoted?, toList_inQuotes]

namespace CaseSensitivity

variable {c : CaseSensitivity} {s : String}

theorem stored_inQuotes (c : CaseSensitivity) (s : String) : c.stored (inQuotes s) = s := by
  simp only [stored, unquoted?_eq_some.2 rfl]

theorem quote_mem_lowerAfter (cased : Bool) (cs : List Char) :
    '"' ∈ Text.lowerAfter cased (cs ++ ['"']) := by
  induction cs generalizing cased with
  | nil => simp [Text.lowerAfter, Text.lowerChar]
  | cons c cs ih =>
    rw [List.cons_append, Text.lowerAfter]
    exact List.mem_append_right _ (ih _)

/-- A closing quote without an opening one is kept as a character of the name. -/
theorem quote_mem_stored (h : '"' ∉ s.toList) : '"' ∈ (c.stored (s ++ "\"")).toList := by
  have hopen : unquoted? (s ++ "\"") = none := by
    refine Option.eq_none_iff_forall_ne_some.2 fun literal hliteral => h ?_
    have hs : s = "\"" ++ literal :=
      (String.append_left_inj "\"").1 (unquoted?_eq_some.1 hliteral)
    simp [hs]
  simp only [stored, hopen]
  cases c with
  | upper => simp [Text.upper, Text.upperChar]
  | lower => simpa [Text.lower] using quote_mem_lowerAfter false s.toList
  | preserve => simp

end CaseSensitivity

namespace Schema

variable {s : Schema} {schema name : String}

theorem idOf_text (r : RelationId) (h : '.' ∉ r.name.toList) :
    s.idOf r.text = r.stored s.caseSensitivity := by
  rw [idOf, RelationId.parse_text h]

/-- A full stop inside the quotes leaves only the closing quote in the name. -/
theorem idOf_append_inQuotes_name_ne (before : String) (hname : '"' ∉ name.toList)
    (hdot : '.' ∈ name.toList) : (s.idOf (before ++ inQuotes name)).name ≠ name := by
  obtain ⟨⟨start, rest⟩, hsplit⟩ := Option.ne_none_iff_exists'.1
    (mt Text.splitLast?_eq_none.1 (not_not_intro hdot))
  obtain ⟨hparts, hrest⟩ := Text.splitLast?_eq_some.1 hsplit
  let r : RelationId :=
    ⟨some (before ++ "\"" ++ String.ofList start), String.ofList rest ++ "\""⟩
  have htext : before ++ inQuotes name = r.text := by
    rw [← String.toList_inj]
    simp [r, RelationId.text, inQuotes, hparts]
  have hquote : '"' ∉ (String.ofList rest).toList := by
    rw [String.toList_ofList]
    exact fun h => hname (by rw [hparts]; simp [h])
  have hr : '.' ∉ r.name.toList := by simpa [r] using hrest
  rw [htext, idOf_text r hr]
  intro h
  exact hname (h ▸ CaseSensitivity.quote_mem_stored hquote)

theorem idOf_inQuotes (schema : Option String) (h : '.' ∉ name.toList) :
    s.idOf (RelationId.text ⟨schema.map inQuotes, inQuotes name⟩) = ⟨schema, name⟩ := by
  have hundotted : '.' ∉ (inQuotes name).toList := by simp [toList_inQuotes, h]
  rw [idOf_text ⟨schema.map inQuotes, inQuotes name⟩ hundotted]
  cases schema <;> simp [RelationId.stored, CaseSensitivity.stored_inQuotes]

/-- A quoted name is taken literally, with a quoted schema before it or without one, exactly when it
has no full stop. A quoted schema may have one. -/
theorem idOf_inQuotes_iff (s : Schema) (schema : String) (hname : '"' ∉ name.toList) :
    (s.idOf (inQuotes schema ++ "." ++ inQuotes name) = ⟨some schema, name⟩ ↔
      '.' ∉ name.toList) ∧
    (s.idOf (inQuotes name) = ⟨none, name⟩ ↔ '.' ∉ name.toList) := by
  refine ⟨⟨fun h hdot => ?_, idOf_inQuotes (some schema)⟩, fun h hdot => ?_, idOf_inQuotes none⟩
  · exact idOf_append_inQuotes_name_ne _ hname hdot (by rw [h])
  · exact idOf_append_inQuotes_name_ne "" hname hdot (by rw [String.empty_append, h])

end Schema

namespace Staff

/-- A schema without relations whose database makes identifiers small. -/
def unlisted : Schema := ⟨.lower, [], [], .nil, nofun⟩

theorem quotedItems_literal :
    '"' ∉ "Items".toList ∧
      unlisted.idOf "\"Old.Orders\".\"Items\"" = ⟨some "Old.Orders", "Items"⟩ :=
  have hquote : '"' ∉ "Items".toList := by decide
  ⟨hquote, ((Schema.idOf_inQuotes_iff unlisted "Old.Orders" hquote).1).2 (by decide)⟩

/-- With a full stop in it a quoted name is cut, and loses its case and not its quotes. -/
theorem quotedOrderItems_cut :
    '"' ∉ "Order.Items".toList ∧
      unlisted.idOf (inQuotes "Order.Items") = ⟨some "\"order", "items\""⟩ ∧
      unlisted.idOf (inQuotes "Order.Items") ≠ ⟨none, "Order.Items"⟩ := by
  decide +kernel

end Staff

end XmlPublishing

import XmlPublishing.Proofs.Layout.Built

/-!
Which fields a node includes after fields were selected, and after some of them were dropped.

A selection looks names up in the schema, and what is dropped is looked up among the fields of the
node, both without regard to the case of ASCII letters. A field is alike to the name that selects
it, so a name drops a field exactly when it is alike to the name that the field was selected by
(`isDropped_congr`): to drop names from a selection is to select without them. Which fields the node
had before a selection is of no matter (`selectFields_withFields`).
-/

namespace XmlPublishing

/-- How the schema spells `name`: as the first of the known fields that are alike to it. -/
inductive Spells (known : List Field) (name : String) : String → Prop
  | first {f : Field} {before after : List Field} : known = before ++ f :: after →
      Text.Alike f.name name → (∀ g ∈ before, ¬ Text.Alike g.name name) → Spells known name f.name

/-- Whether `name` is alike to one of the names to drop. -/
def isDropped (dropped : List String) (name : String) : Bool :=
  dropped.any fun other => Text.Alike name other

/-- The names that are left of `names`. -/
def leave (dropped names : List String) : List String :=
  names.filter fun name => !isDropped dropped name

theorem isDropped_congr {a b : String} (h : Text.Alike a b) (dropped : List String) :
    isDropped dropped a = isDropped dropped b := by
  have hother (other : String) : Text.Alike a other ↔ Text.Alike b other :=
    ⟨h.symm.trans, h.trans⟩
  simp only [isDropped, hother]

namespace Spells

variable {known : List Field} {name field : String}

theorem alike (h : Spells known name field) : Text.Alike field name := by
  cases h with
  | first _ halike _ => exact halike

theorem iff_findField? :
    Spells known name field ↔ (findField? known name).map (·.name) = some field := by
  rw [Option.map_eq_some_iff]
  constructor
  · intro h
    cases h with
    | @first f before after hknown halike hbefore =>
      refine ⟨f, List.find?_eq_some_iff_append.2 ⟨decide_eq_true halike, before, after, hknown, ?_⟩,
        rfl⟩
      intro g hg
      simpa using hbefore g hg
  · intro h
    obtain ⟨f, hf, rfl⟩ := h
    obtain ⟨halike, before, after, hknown, hbefore⟩ := List.find?_eq_some_iff_append.1 hf
    refine .first hknown (of_decide_eq_true halike) fun g hg => ?_
    simpa using hbefore g hg

/-- Names can be dropped before they are looked up, or afterwards. -/
theorem forall₂_leave {names fields : List String} (h : List.Forall₂ (Spells known) names fields)
    (dropped : List String) :
    List.Forall₂ (Spells known) (leave dropped names) (leave dropped fields) := by
  apply List.rel_filter _ h
  intro name field hspells
  beta_reduce
  rw [isDropped_congr hspells.alike]

end Spells

namespace Layout

variable {m n : Layout} {d : Defaults} {names dropped fields : List String}

/-- The node with other fields included. -/
def withFields (n : Layout) (fields : List String) : Layout := n.withInfo { n.info with fields }

theorem selectFields_withFields (n : Layout) (d : Defaults) (fields names : List String) :
    (n.withFields fields).selectFields d names = n.selectFields d names := rfl

theorem selectFields_iff : n.selectFields d names = .ok m ↔ ∃ known fields,
    d.schema.fields? n.relation = some known ∧ List.Forall₂ (Spells known) names fields ∧
      m = n.withFields fields ∧ (n.withFields fields).NamesApart := by
  have hspells (known : List Field) : Spells known =
      fun name field => (findField? known name).map (·.name) = some field := by
    funext name field
    exact propext Spells.iff_findField?
  simp only [hspells, selectFields_eq_ok, withFields]

theorem NamesApart.leave (h : (n.withFields fields).NamesApart) (dropped : List String) :
    (n.withFields (leave dropped fields)).NamesApart :=
  h.of_sublist List.filter_sublist (.refl _)

theorem dropFields_withFields (h : ∀ name ∈ dropped, ∃ field ∈ fields, Text.Alike field name) :
    (n.withFields fields).dropFields dropped = .ok (n.withFields (leave dropped fields)) :=
  dropFields_eq_ok.2 ⟨h, rfl⟩

/-- Of a selection, every name can be dropped that is alike to one of the selected names. This gives
what selecting the other names gives, and that can be selected too. The selection gives the same
for every node that differs in its fields only, and the fields that are included are those that the
schema has for the names, in their order and in the spelling of the schema. -/
theorem selectFields_dropFields (h : n.selectFields d names = .ok m)
    (hdropped : ∀ name ∈ dropped, ∃ name' ∈ names, Text.Alike name name') :
    (∃ left, m.dropFields dropped = .ok left ∧
      n.selectFields d (leave dropped names) = .ok left) ∧
    (∀ fields, (n.withFields fields).selectFields d names = .ok m) ∧
    ∃ known, d.schema.fields? n.relation = some known ∧
      List.Forall₂ (Spells known) names m.fields := by
  obtain ⟨known, fields, hknown, hspells, rfl, hapart⟩ := selectFields_iff.1 h
  have hfields : ∀ name ∈ dropped, ∃ field ∈ fields, Text.Alike field name := by
    intro name hname
    obtain ⟨name', hname', halike⟩ := hdropped name hname
    obtain ⟨field, hfield, hspell⟩ := forall₂_exists_right hspells hname'
    exact ⟨field, hfield, hspell.alike.trans halike.symm⟩
  refine ⟨⟨n.withFields (leave dropped fields), ?_, ?_⟩, ?_, known, hknown, hspells⟩
  · apply dropFields_withFields hfields
  · apply selectFields_iff.2
    exact ⟨known, leave dropped fields, hknown, Spells.forall₂_leave hspells dropped, rfl,
      hapart.leave dropped⟩
  · intro fields'
    rw [selectFields_withFields, h]

end Layout

namespace Staff

/-- The boss of an employee in a team, selected twice and dropped by a third spelling. -/
theorem team_selects :
    let chosen := team.withFields ["boss", "id", "boss"]
    let left := team.withFields ["id"]
    team.selectFields defaults ["BOSS", "Id", "boss"] = .ok chosen ∧
      (∀ name ∈ ["Boss"], ∃ name' ∈ ["BOSS", "Id", "boss"], Text.Alike name name') ∧
      chosen.dropFields ["Boss"] = .ok left ∧ team.selectFields defaults ["Id"] = .ok left := by
  intro chosen left
  have h : team.selectFields defaults ["BOSS", "Id", "boss"] = .ok chosen := rfl
  have hdropped : ∀ name ∈ ["Boss"], ∃ name' ∈ ["BOSS", "Id", "boss"], Text.Alike name name' := by
    decide
  obtain ⟨⟨left', hdrop, hselect⟩, -, -⟩ := Layout.selectFields_dropFields h hdropped
  have hleft : chosen.dropFields ["Boss"] = .ok left := rfl
  obtain rfl : left = left' := Except.ok.inj (hleft.symm.trans hdrop)
  exact ⟨h, hdropped, hdrop, hselect⟩

end Staff

end XmlPublishing

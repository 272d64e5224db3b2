import XmlPublishing.Proofs.Layout.Built
import XmlPublishing.Proofs.Query.Aliases
import XmlPublishing.Proofs.Text.Case

/-!
Aliases as SQL reads them: without regard to the case of ASCII letters.

A fresh alias has no capital letters, but the search for it compares literally. So fresh aliases
are never alike to each other, and one of them is alike to an alias in use exactly when it is the
small form of an alias that a caller has written with capital letters
(`Aliases.Reached.exists_alike_iff`).
-/

namespace XmlPublishing

namespace Text

theorem foldAscii_eq_self_iff {s : String} :
    foldAscii s = s ↔ ∀ c ∈ s.toList, c.toLower = c := by
  rw [foldAscii, ← String.toList_inj, String.toList_ofList]
  conv_lhs => rhs; rw [← List.map_id s.toList]
  exact List.map_inj_left

end Text

namespace Aliases

theorem foldAscii_fresh (s : Aliases) (r : RelationId) :
    Text.foldAscii (s.fresh r) = s.fresh r := by
  rw [Text.foldAscii_eq_self_iff]
  intro c hc
  rcases mem_fresh hc with hdigit | ⟨letter, -, rfl⟩
  · exact Text.toLower_of_isDigit hdigit
  · exact Text.toLower_toLower letter

/-- The aliases that some requests lead to, one after the other, from none. `given` are those that
callers chose themselves. A set of aliases can be gone on from more than once, as its clones are. -/
inductive Reached : List String → Aliases → Prop
  | empty : Reached [] empty
  | introduce {given : List String} {s : Aliases} (r : RelationId) :
      Reached given s → Reached given (s.introduce r).2
  | introduceAs {given : List String} {s : Aliases} (name? : Option String) (r : RelationId) :
      Reached given s → Reached (name?.toList ++ given) (s.introduceAs name? r).2

/-- The aliases in use are those given by callers, and others without capital letters. -/
structure GivenOrFolded (given : List String) (s : Aliases) : Prop where
  inUse : ∀ name ∈ given, name ∈ s.inUse
  folded : ∀ name ∈ s.inUse, name ∈ given ∨ Text.foldAscii name = name

namespace GivenOrFolded

variable {given : List String} {s : Aliases}

theorem empty : GivenOrFolded [] empty := ⟨nofun, fun name h => absurd h (notMem_empty name)⟩

theorem addFolded (h : s.GivenOrFolded given) {name : String} (hname : Text.foldAscii name = name) :
    (s.add name).GivenOrFolded given := by
  constructor
  · intro a ha
    exact mem_add_of_mem (h.inUse a ha)
  · intro a ha
    rcases mem_add.1 ha with rfl | ha
    · exact .inr hname
    · exact h.folded a ha

theorem addGiven (h : s.GivenOrFolded given) (name : String) :
    (s.add name).GivenOrFolded (name :: given) := by
  constructor
  · intro a ha
    rcases List.mem_cons.1 ha with rfl | ha
    · exact mem_add_self _ _
    · exact mem_add_of_mem (h.inUse a ha)
  · intro a ha
    rcases mem_add.1 ha with rfl | ha
    · exact .inl List.mem_cons_self
    · exact (h.folded a ha).imp_left (List.mem_cons_of_mem name)

end GivenOrFolded

namespace Reached

variable {given : List String} {s : Aliases}

theorem givenOrFolded (h : s.Reached given) : s.GivenOrFolded given := by
  induction h with
  | empty => exact .empty
  | introduce r _ ih => exact ih.addFolded (foldAscii_fresh _ r)
  | introduceAs name? r _ ih =>
    cases name? with
    | none => exact ih.addFolded (foldAscii_fresh _ r)
    | some name => exact ih.addGiven name

/-- A fresh alias is none of those in use. It is alike to one of them exactly when it is another
spelling, in small letters, of one that a caller gave. -/
theorem exists_alike_iff (h : s.Reached given) (r : RelationId) :
    (s.introduce r).1 ∉ s.inUse ∧
      ((∃ name ∈ s.inUse, Text.Alike name (s.introduce r).1) ↔
        ∃ name ∈ given, name ≠ (s.introduce r).1 ∧
          Text.foldAscii name = (s.introduce r).1) := by
  have hinv := h.givenOrFolded
  have hfresh : s.fresh r ∉ s.inUse := fresh_notMem s r
  refine ⟨hfresh, ?_, ?_⟩
  · rintro ⟨name, hname, halike⟩
    have hfold : Text.foldAscii name = s.fresh r := Eq.trans halike (foldAscii_fresh s r)
    have hne : name ≠ s.fresh r := fun heq => hfresh (heq ▸ hname)
    have hgiven : name ∈ given :=
      (hinv.folded name hname).resolve_right fun hfolded => hne (hfolded ▸ hfold)
    exact ⟨name, hgiven, hne, hfold⟩
  · rintro ⟨name, hname, -, hfold⟩
    exact ⟨name, hinv.inUse name hname, hfold.trans (foldAscii_fresh s r).symm⟩

end Reached

end Aliases

namespace Staff

theorem fresh_not_alike :
    let s := (Aliases.empty.introduceAs (some "x") employee).2
    s.Reached ["x"] ∧ ¬ ∃ name ∈ s.inUse, Text.Alike name (s.introduce employee).1 := by
  intro s
  have h : s.Reached ["x"] := .introduceAs (some "x") employee .empty
  have hfresh : (s.introduce employee).1 = "e" := rfl
  refine ⟨h, ?_⟩
  rw [(h.exists_alike_iff employee).2, hfresh]
  decide

/-- The alias after a caller's `E` is `e`, which SQL takes for the same. -/
theorem fresh_alike_capital :
    let s := (Aliases.empty.introduceAs (some "E") employee).2
    s.Reached ["E"] ∧ "E" ∈ s.inUse ∧ (s.introduce employee).1 = "e" ∧ Text.Alike "E" "e" := by
  exact ⟨.introduceAs (some "E") employee .empty, Aliases.mem_add_self _ _, rfl, by decide⟩

end Staff

end XmlPublishing

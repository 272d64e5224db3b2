import XmlPublishing.Proofs.Text.Case
import XmlPublishing.Text.Initials

/-!
What names joined by hyphens still tell.

Making names small loses the case of all letters, and joining them loses where one name ends when
they have hyphens themselves. Of names for which neither matters (`Text.IsPlain`), the joined text
gives back all names in order, up to the case of ASCII letters (`hyphenated_injective`).
-/

namespace XmlPublishing.Text

/-- A name that is not empty and has only ASCII characters, none of them a hyphen. -/
structure IsPlain (name : String) : Prop where
  ne_empty : name ≠ ""
  ascii : ∀ c ∈ name.toList, c.toNat < 128
  unhyphened : '-' ∉ name.toList

theorem isPlain_iff {name : String} : IsPlain name ↔
    name ≠ "" ∧ name.toList.all (fun c => c.toNat < 128) ∧ '-' ∉ name.toList := by
  simp only [List.all_eq_true, decide_eq_true_eq]
  exact ⟨fun h => ⟨h.ne_empty, h.ascii, h.unhyphened⟩, fun h => ⟨h.1, h.2.1, h.2.2⟩⟩

instance (name : String) : Decidable (IsPlain name) := decidable_of_iff _ isPlain_iff.symm

theorem lowerAfter_of_ascii (cased : Bool) {cs : List Char} (h : ∀ c ∈ cs, c.toNat < 128) :
    lowerAfter cased cs = cs.map Char.toLower := by
  induction cs generalizing cased with
  | nil => rfl
  | cons c cs ih =>
    have hc : c.toNat < 128 := h c List.mem_cons_self
    have hsigma : c ≠ 'Σ' := by
      rintro rfl
      exact absurd hc (by decide)
    rw [lowerAfter, ih _ fun d hd => h d (List.mem_cons_of_mem c hd), if_neg hsigma, lowerChar,
      if_pos hc]
    rfl

theorem lower_of_ascii {s : String} (h : ∀ c ∈ s.toList, c.toNat < 128) :
    lower s = foldAscii s := by
  rw [lower, lowerAfter_of_ascii false h, foldAscii]

namespace IsPlain

variable {name : String}

theorem foldAscii_ne_nil (h : IsPlain name) : (foldAscii name).toList ≠ [] := by
  rw [foldAscii, String.toList_ofList, ne_eq, List.map_eq_nil_iff, String.toList_eq_nil_iff]
  exact h.ne_empty

theorem hyphen_notMem_foldAscii (h : IsPlain name) : '-' ∉ (foldAscii name).toList :=
  notMem_foldAscii (by decide) h.unhyphened

end IsPlain

theorem intercalate_ne_nil {x : Char} {piece : List Char} {pieces : List (List Char)}
    (h : piece ≠ []) : [x].intercalate (piece :: pieces) ≠ [] := by
  cases pieces with
  | nil => rwa [List.intercalate_singleton]
  | cons p ps =>
    rw [List.intercalate_cons_cons, List.append_assoc]
    exact List.append_ne_nil_of_left_ne_nil h _

/-- Pieces that are not empty and do not have the separator can be read back. -/
theorem intercalate_injective {x : Char} {ps qs : List (List Char)}
    (hps : ∀ p ∈ ps, p ≠ [] ∧ x ∉ p) (hqs : ∀ q ∈ qs, q ≠ [] ∧ x ∉ q)
    (h : [x].intercalate ps = [x].intercalate qs) : ps = qs := by
  cases ps with
  | nil =>
    cases qs with
    | nil => rfl
    | cons q qs => exact absurd h.symm (intercalate_ne_nil (hqs q List.mem_cons_self).1)
  | cons p ps =>
    cases qs with
    | nil => exact absurd h (intercalate_ne_nil (hps p List.mem_cons_self).1)
    | cons q qs =>
      calc p :: ps = ([x].intercalate (p :: ps)).splitOn x :=
          (List.splitOn_intercalate x (fun l hl => (hps l hl).2) (List.cons_ne_nil p ps)).symm
        _ = ([x].intercalate (q :: qs)).splitOn x := by rw [h]
        _ = q :: qs := List.splitOn_intercalate x (fun l hl => (hqs l hl).2) (List.cons_ne_nil q qs)

variable {names names' : List String}

theorem hyphenated_of_isPlain (h : ∀ name ∈ names, IsPlain name) :
    hyphenated names = "-".intercalate (names.map foldAscii) := by
  rw [hyphenated, List.map_congr_left fun name hname => lower_of_ascii (h name hname).ascii]

/-- Plain names joined by hyphens can be told apart up to the case of their letters. -/
theorem hyphenated_injective (h : ∀ name ∈ names, IsPlain name) (h' : ∀ name ∈ names', IsPlain name)
    (heq : hyphenated names = hyphenated names') : names.map foldAscii = names'.map foldAscii := by
  have hpieces {names : List String} (h : ∀ name ∈ names, IsPlain name) :
      ∀ p ∈ (names.map foldAscii).map String.toList, p ≠ [] ∧ '-' ∉ p := by
    simp only [List.map_map, List.forall_mem_map, Function.comp_apply]
    intro name hname
    exact ⟨(h name hname).foldAscii_ne_nil, (h name hname).hyphen_notMem_foldAscii⟩
  rw [hyphenated_of_isPlain h, hyphenated_of_isPlain h', ← String.toList_inj,
    String.toList_intercalate, String.toList_intercalate] at heq
  exact (List.map_inj_right fun _ _ => String.toList_inj.1).1
    (intercalate_injective (hpieces h) (hpieces h') heq)

end XmlPublishing.Text

import XmlPublishing.Text.Case

/-!
Small forms do not depend on the case of ASCII letters.

A capital ASCII letter and its small form are in the same character classes, so neither can be told
from the other by what surrounds a sigma (`startsCased_map_toLower`). Texts that are alike therefore
have one small form (`Alike.lower_eq`), although `lower` is the full Unicode mapping.
-/

namespace XmlPublishing.Text

theorem toLower_eq_self_or (c : Char) : c.toLower = c ∨ c.toNat < 128 := by
  unfold Char.toLower
  split
  · next h =>
    have hle : c.val.toNat ≤ 90 := by simpa [UInt32.le_iff_toNat_le] using h.2
    have hlt : c.toNat < 128 := by
      rw [Char.toNat]
      omega
    exact .inr hlt
  · exact .inl rfl

/-- What holds of all ASCII characters, and of those that are their own small form, holds of all
characters. -/
@[elab_as_elim]
theorem toLower_cases {motive : Char → Prop} (ascii : ∀ n < 128, motive (Char.ofNat n))
    (self : ∀ c : Char, c.toLower = c → motive c) (c : Char) : motive c := by
  rcases toLower_eq_self_or c with h | h
  · exact self c h
  · have hc := ascii c.toNat h
    rwa [Char.ofNat_toNat] at hc

theorem toLower_toLower (c : Char) : c.toLower.toLower = c.toLower :=
  toLower_cases (by decide +kernel) (fun c h => by rw [h, h]) c

/-- The code points of ASCII letters. -/
def IsLetter (n : Nat) : Prop := (65 ≤ n ∧ n ≤ 90) ∨ (97 ≤ n ∧ n ≤ 122)

instance (n : Nat) : Decidable (IsLetter n) := inferInstanceAs (Decidable (_ ∨ _))

theorem isCased_of_isLetter {c : Char} (h : IsLetter c.toNat) : isCased c := by
  have hranges : (65, 90) ∈ casedRanges ∧ (97, 122) ∈ casedRanges := by decide
  rcases h with h | h
  · exact List.any_eq_true.2 ⟨_, hranges.1, by simp [h]⟩
  · exact List.any_eq_true.2 ⟨_, hranges.2, by simp [h]⟩

theorem isCaseIgnorable_of_isLetter {c : Char} (h : IsLetter c.toNat) :
    isCaseIgnorable c = false := by
  have hranges : ∀ r ∈ caseIgnorableRanges, r.2 < 65 ∨ (90 < r.1 ∧ r.2 < 97) ∨ 122 < r.1 := by
    decide +kernel
  refine List.any_eq_false.2 fun r hr hc => ?_
  have hr := hranges r hr
  simp only [Bool.and_eq_true, decide_eq_true_eq] at hc
  rcases h with h | h <;> omega

theorem toLower_ofNat : ∀ n < 128, let c := Char.ofNat n
    c.toLower = c ∨ IsLetter c.toNat ∧ IsLetter c.toLower.toNat ∧
      lowerChar c.toLower = lowerChar c ∧ c ≠ 'Σ' ∧ c.toLower ≠ 'Σ' := by
  decide +kernel

/-- An ASCII letter and its small form cannot be told apart by what `lower` looks at. -/
theorem classes_toLower (c : Char) :
    isCased c.toLower = isCased c ∧ isCaseIgnorable c.toLower = isCaseIgnorable c ∧
      lowerChar c.toLower = lowerChar c ∧ (c.toLower = 'Σ' ↔ c = 'Σ') := by
  have hcases : c.toLower = c ∨ IsLetter c.toNat ∧ IsLetter c.toLower.toNat ∧
      lowerChar c.toLower = lowerChar c ∧ c ≠ 'Σ' ∧ c.toLower ≠ 'Σ' :=
    toLower_cases toLower_ofNat (fun c h => .inl h) c
  rcases hcases with h | ⟨hc, hsmall, hlower, hne, hne'⟩
  · simp only [h, and_self]
  · rw [isCased_of_isLetter hc, isCased_of_isLetter hsmall, isCaseIgnorable_of_isLetter hc,
      isCaseIgnorable_of_isLetter hsmall]
    exact ⟨rfl, rfl, hlower, iff_of_false hne' hne⟩

/-- Nothing but a letter changes, and then to a letter. -/
theorem eq_of_toLower_eq {c x : Char} (hx : ¬ IsLetter x.toNat) (h : c.toLower = x) : c = x := by
  have hcases : c.toLower = c ∨ IsLetter c.toLower.toNat :=
    toLower_cases (fun n hn => (toLower_ofNat n hn).imp_right fun h => h.2.1) (fun c h => .inl h) c
  rcases hcases with hself | hletter
  · exact hself.symm.trans h
  · exact absurd (h ▸ hletter) hx

theorem notMem_foldAscii {x : Char} (hx : ¬ IsLetter x.toNat) {s : String} (h : x ∉ s.toList) :
    x ∉ (foldAscii s).toList := by
  rw [foldAscii, String.toList_ofList]
  intro hmem
  obtain ⟨c, hc, hlower⟩ := List.mem_map.1 hmem
  exact h (eq_of_toLower_eq hx hlower ▸ hc)

theorem startsCased_map_toLower (cs : List Char) :
    startsCased (cs.map Char.toLower) = startsCased cs := by
  induction cs with
  | nil => rfl
  | cons c cs ih =>
    obtain ⟨hcased, hignorable, -⟩ := classes_toLower c
    unfold startsCased at ih ⊢
    rw [List.map_cons, List.dropWhile_cons, List.dropWhile_cons, hignorable]
    cases isCaseIgnorable c with
    | true => exact ih
    | false => exact hcased

theorem lowerAfter_map_toLower (cased : Bool) (cs : List Char) :
    lowerAfter cased (cs.map Char.toLower) = lowerAfter cased cs := by
  induction cs generalizing cased with
  | nil => rfl
  | cons c cs ih =>
    obtain ⟨hcased, hignorable, hlower, hsigma⟩ := classes_toLower c
    rw [List.map_cons, lowerAfter, lowerAfter, ih, startsCased_map_toLower, hcased, hignorable,
      hlower]
    simp only [hsigma]

theorem lower_foldAscii (s : String) : lower (foldAscii s) = lower s := by
  rw [lower, foldAscii, String.toList_ofList, lowerAfter_map_toLower, lower]

theorem Alike.lower_eq {a b : String} (h : Alike a b) : lower a = lower b := by
  rw [← lower_foldAscii a, ← lower_foldAscii b, h]

theorem foldAscii_append (a b : String) : foldAscii (a ++ b) = foldAscii a ++ foldAscii b := by
  rw [foldAscii, String.toList_append, List.map_append, String.ofList_append, foldAscii, foldAscii]

end XmlPublishing.Text

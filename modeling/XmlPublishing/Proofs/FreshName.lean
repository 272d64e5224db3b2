import Mathlib.Data.List.Nodup
import Mathlib.Data.List.Perm.Subperm
import XmlPublishing.FreshName

/-!
The search for a free name finds one (`isFree_freshName`): numbered names are all different, and
at most as many names are taken as the search tries.
-/

namespace XmlPublishing

theorem isDigit_of_mem_toString {k : Nat} {c : Char} (h : c ∈ (toString k).toList) :
    c.isDigit := by
  rw [Nat.toString_eq_ofList_toDigits, String.toList_ofList] at h
  exact Nat.isDigit_of_mem_toDigits (by decide) (by decide) h

theorem toString_injective {a b : Nat} (h : toString a = toString b) : a = b := by
  have h := congrArg (fun s => Nat.ofDigitChars 10 s.toList 0) h
  simpa only [Nat.toString_eq_ofList_toDigits, String.toList_ofList,
    Nat.ofDigitChars_ten_toDigits] using h

theorem numbered_injective (base : String) {a b : Nat}
    (h : base ++ toString a = base ++ toString b) : a = b :=
  toString_injective ((String.append_right_inj base).1 h)

variable {isFree : String → Bool} {base : String} {start taken : Nat}

/-- The first number whose name is free, if there is one among the first `taken + 1`. -/
theorem freshName_eq_or (isFree : String → Bool) (base : String) (start taken : Nat) :
    isFree (freshName isFree base start taken) ∨
      ∀ k ∈ List.range' start (taken + 1), isFree (base ++ toString k) = false := by
  unfold freshName
  split
  · next h => exact .inl h
  split
  · next k hk =>
    have hfree := List.find?_some hk
    exact .inl hfree
  · next hnone =>
    cases hlast : isFree (base ++ toString (start + taken)) with
    | true => exact .inl rfl
    | false =>
      refine .inr fun k hk => ?_
      rw [List.range'_1_concat, List.mem_append, List.mem_singleton] at hk
      rcases hk with hk | rfl
      · exact Bool.eq_false_iff.2 (List.find?_eq_none.1 hnone k hk)
      · exact hlast

/-- The name is the given one, perhaps with a number after it. -/
def Numbered (base name : String) : Prop :=
  ∃ digits : String, name = base ++ digits ∧ ∀ c ∈ digits.toList, c.isDigit

theorem numbered_toString (base : String) (k : Nat) : Numbered base (base ++ toString k) :=
  ⟨toString k, rfl, fun _ hc => isDigit_of_mem_toString hc⟩

theorem numbered_freshName (isFree : String → Bool) (base : String) (start taken : Nat) :
    Numbered base (freshName isFree base start taken) := by
  unfold freshName
  split
  · exact ⟨"", by simp, by simp⟩
  split
  · exact numbered_toString base _
  · exact numbered_toString base _

theorem isFree_freshName (used : List String)
    (hused : ∀ k : Nat, isFree (base ++ toString k) = false → base ++ toString k ∈ used)
    (hlen : used.length ≤ taken) : isFree (freshName isFree base start taken) := by
  refine (freshName_eq_or isFree base start taken).resolve_right fun hall => ?_
  -- the tried names are all different, and too many to be in use all of them
  let numbered := (List.range' start (taken + 1)).map fun k => base ++ toString k
  have hnodup : numbered.Nodup :=
    List.Nodup.map (fun _ _ h => numbered_injective base h) List.nodup_range'
  have hsub : numbered ⊆ used := fun name hname => by
    obtain ⟨k, hk, rfl⟩ := List.mem_map.1 hname
    exact hused k (hall k hk)
  have hle := (List.subperm_of_subset hnodup hsub).length_le
  simp only [numbered, List.length_map, List.length_range'] at hle
  omega

end XmlPublishing

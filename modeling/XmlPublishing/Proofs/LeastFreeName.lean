import XmlPublishing.Proofs.Query.Aliases
import XmlPublishing.Proofs.Xsd.Registry

/-!
The search for a free name as a loop, and the name that it ends with.

The loop tries the base name, and then the base name with one number after the other (`Search`). It
does not bound the numbers, but it ends: the names in use are finitely many, so that the bounded
search of `freshName` comes to a free one, and the loop comes to the same (`search_iff`). All that
the loop has passed over is taken (`TakenBefore`), and so no smaller number would do
(`Search.leastFree`). Aliases and the names of types are both found in this way
(`freshNames_least`).
-/

namespace XmlPublishing

variable {isFree : String → Bool} {base name name' candidate : String} {start taken next k : Nat}

/-! ## The loop -/

/-- The search, with a candidate at hand and the number of the next one, ends with a name. A free
candidate ends it. After one that is taken, it goes on with the next number behind the base name. -/
inductive Search (isFree : String → Bool) (base : String) : String → Nat → String → Prop
  | found {candidate : String} {next : Nat} :
      isFree candidate → Search isFree base candidate next candidate
  | taken {candidate name : String} {next : Nat} :
      isFree candidate = false → Search isFree base (base ++ toString next) (next + 1) name →
      Search isFree base candidate next name

/-- The base name is taken, and so is every numbered one from `start` up to `k`. -/
structure TakenBefore (isFree : String → Bool) (base : String) (start k : Nat) : Prop where
  plain : isFree base = false
  numbered : ∀ j, start ≤ j → j < k → isFree (base ++ toString j) = false

/-- The base name if it is free, and otherwise the base name with the least number from `start` on
that makes it free. -/
inductive LeastFree (isFree : String → Bool) (base : String) (start : Nat) : String → Prop
  | plain : isFree base → LeastFree isFree base start base
  | numbered {k : Nat} : TakenBefore isFree base start k → start ≤ k →
      isFree (base ++ toString k) → LeastFree isFree base start (base ++ toString k)

namespace TakenBefore

theorem first (h : isFree base = false) : TakenBefore isFree base start start :=
  ⟨h, fun _ hj hlt => absurd hj (Nat.not_le_of_lt hlt)⟩

/-- One step of the loop passes over one more name. -/
theorem succ (h : TakenBefore isFree base start k) (hk : isFree (base ++ toString k) = false) :
    TakenBefore isFree base start (k + 1) := by
  refine ⟨h.plain, fun j hj hlt => ?_⟩
  rcases Nat.lt_or_eq_of_le (Nat.le_of_lt_succ hlt) with hlt | rfl
  · exact h.numbered j hj hlt
  · exact hk

/-- From a number before `k` on, the loop gets to `k`. -/
theorem search_from (h : TakenBefore isFree base start k) (hfree : isFree (base ++ toString k))
    {j : Nat} (hj : start ≤ j) (hle : j ≤ k) :
    Search isFree base (base ++ toString j) (j + 1) (base ++ toString k) := by
  induction hd : k - j generalizing j with
  | zero =>
    obtain rfl : j = k := by omega
    exact .found hfree
  | succ d ih =>
    apply Search.taken
    · apply h.numbered j hj
      omega
    · apply ih <;> omega

theorem search (h : TakenBefore isFree base start k) (hle : start ≤ k)
    (hfree : isFree (base ++ toString k)) :
    Search isFree base base start (base ++ toString k) :=
  .taken h.plain (h.search_from hfree (Nat.le_refl start) hle)

end TakenBefore

namespace Search

theorem unique (h : Search isFree base candidate next name)
    (h' : Search isFree base candidate next name') : name = name' := by
  induction h with
  | found hfree =>
    cases h' with
    | found _ => rfl
    | taken htaken _ => rw [hfree] at htaken; cases htaken
  | taken htaken _ ih =>
    cases h' with
    | found hfree => rw [hfree] at htaken; cases htaken
    | taken _ hrest => exact ih hrest

/-- What the loop ends with, once it has come to a number `k`. -/
theorem leastFree_of_numbered (h : Search isFree base candidate next name)
    (hcandidate : candidate = base ++ toString k) (hnext : next = k + 1)
    (hk : TakenBefore isFree base start k) (hle : start ≤ k) :
    LeastFree isFree base start name := by
  induction h generalizing k with
  | found hfree =>
    subst hcandidate
    exact .numbered hk hle hfree
  | taken htaken _ ih =>
    subst hcandidate hnext
    exact ih rfl rfl (hk.succ htaken) (Nat.le_succ_of_le hle)

theorem leastFree (h : Search isFree base base start name) : LeastFree isFree base start name := by
  cases h with
  | found hfree => exact .plain hfree
  | taken htaken hrest =>
    exact hrest.leastFree_of_numbered rfl rfl (.first htaken) (Nat.le_refl start)

end Search

/-! ## The bounded search -/

/-- A bounded search that gets to a free name gets to where the loop ends. -/
theorem search_freshName (hfree : isFree (freshName isFree base start taken)) :
    Search isFree base base start (freshName isFree base start taken) := by
  cases hbase : isFree base with
  | true =>
    rw [freshName, if_pos hbase]
    exact .found hbase
  | false =>
    have hnot : ¬ isFree base = true := Bool.eq_false_iff.1 hbase
    rw [freshName, if_neg hnot] at hfree ⊢
    cases hfind : (List.range' start taken).find? fun k => isFree (base ++ toString k) with
    | some k =>
      obtain ⟨hk, hmem, hbefore⟩ := List.find?_range'_eq_some.1 hfind
      have htaken : TakenBefore isFree base start k :=
        ⟨hbase, fun j hj hlt => Bool.not_eq_eq_eq_not.1 (hbefore j hj hlt)⟩
      exact htaken.search (List.mem_range'_1.1 hmem).1 hk
    | none =>
      rw [hfind] at hfree
      have htaken : TakenBefore isFree base start (start + taken) := by
        refine ⟨hbase, fun j hj hlt => Bool.eq_false_iff.2 ?_⟩
        exact List.find?_eq_none.1 hfind j (List.mem_range'_1.2 ⟨hj, hlt⟩)
      exact htaken.search (Nat.le_add_right start taken) hfree

theorem search_iff (hfree : isFree (freshName isFree base start taken)) :
    Search isFree base base start name ↔ name = freshName isFree base start taken := by
  constructor
  · intro h
    exact h.unique (search_freshName hfree)
  · rintro rfl
    exact search_freshName hfree

/-! ## Aliases and names of types -/

namespace Text

theorem isLower_toLower {c : Char} (h : c.isAlpha) : c.toLower.isLower := by
  have hascii : ∀ n < 128, (Char.ofNat n).isAlpha → (Char.ofNat n).toLower.isLower := by
    decide +kernel
  have hle : c.val ≤ 122 := by
    rcases Bool.or_eq_true_iff.1 h with hupper | hlower
    · have hle : c.val ≤ 90 := (of_decide_eq_true hupper).2
      exact UInt32.le_trans hle (by decide)
    · exact of_decide_eq_true (Bool.and_eq_true_iff.1 hlower).2
  have hlt : c.toNat < 128 := Nat.lt_of_le_of_lt (UInt32.le_iff_toNat_le.1 hle) (by decide)
  simpa only [Char.ofNat_toNat] using hascii c.toNat hlt (by rwa [Char.ofNat_toNat])

theorem isLower_of_mem_initials {name : String} {c : Char} (h : c ∈ (initials name).toList) :
    c.isLower := by
  obtain ⟨letter, hletter, rfl⟩ := mem_initials h
  exact isLower_toLower hletter

theorem toList_initials_ne_nil (name : String) : (initials name).toList ≠ [] := by
  unfold initials
  split
  · exact List.cons_ne_nil _ _
  · next hcs =>
    rw [String.toList_ofList]
    exact hcs

end Text

namespace Aliases

theorem search_iff_eq_introduce {s : Aliases} {r : RelationId} {name : String} :
    Search s.isFree (Text.initials r.name) (Text.initials r.name) 1 name ↔
      name = (s.introduce r).1 :=
  search_iff (isFree_fresh s r)

/-- Fresh aliases are small letters, at least one, with digits behind them. -/
theorem exists_letters_digits (s : Aliases) (r : RelationId) : ∃ letters digits : List Char,
    (s.introduce r).1.toList = letters ++ digits ∧ letters ≠ [] ∧ (∀ c ∈ letters, c.isLower) ∧
      ∀ c ∈ digits, c.isDigit := by
  obtain ⟨digits, hname, hdigits⟩ := s.numbered_fresh r
  refine ⟨(Text.initials r.name).toList, digits.toList, ?_, Text.toList_initials_ne_nil _,
    fun c hc => Text.isLower_of_mem_initials hc, hdigits⟩
  rw [introduce, hname, String.toList_append]

end Aliases

theorem Xsd.TypeRegistry.search_iff_eq_freshName {r : TypeRegistry} {base name : String} :
    Search (· ∉ r.usedNames) base base 2 name ↔ name = r.freshName base := by
  apply search_iff
  exact decide_eq_true (freshName_notMem r base)

/-- The searches for aliases and for names of types have no bound, but end with one name: the
initials of the relation, or the given base name, if that is free, and otherwise the same with the
least number that makes it free, from one on for aliases and from two on for types. An alias is not
in use, is no reserved word in letters of any case, and is made of small letters and digits behind
them. What is in use afterwards is what was before and this name. -/
theorem freshNames_least :
    (∀ (s : Aliases) (r : RelationId),
      let base := Text.initials r.name
      let name := (s.introduce r).1
      (∀ result, Search s.isFree base base 1 result ↔ result = name) ∧
      LeastFree s.isFree base 1 name ∧
      (name ∉ s.inUse ∧ Text.foldAscii name ∉ Aliases.reservedWords) ∧
      (∃ letters digits : List Char, name.toList = letters ++ digits ∧ letters ≠ [] ∧
        (∀ c ∈ letters, c.isLower) ∧ ∀ c ∈ digits, c.isDigit) ∧
      ∀ a, a ∈ (s.introduce r).2.inUse ↔ a = name ∨ a ∈ s.inUse) ∧
    ∀ (r : Xsd.TypeRegistry) (base : String),
      let name := r.freshName base
      (∀ result, Search (· ∉ r.usedNames) base base 2 result ↔ result = name) ∧
      LeastFree (· ∉ r.usedNames) base 2 name ∧
      (∀ n a, a ∈ (r.addRowsType n name).usedNames ↔ a = name ∨ a ∈ r.usedNames) ∧
      ∀ rowsType a,
        a ∈ (r.addListingType rowsType name).usedNames ↔ a = name ∨ a ∈ r.usedNames := by
  constructor
  · intro s r base name
    have hsearch (result : String) : Search s.isFree base base 1 result ↔ result = name :=
      Aliases.search_iff_eq_introduce
    have hfree : name ∉ s.inUse ∧ Text.foldAscii name ∉ Aliases.reservedWords :=
      Aliases.isFree_iff.1 (s.isFree_fresh r)
    exact ⟨hsearch, ((hsearch name).2 rfl).leastFree, hfree, s.exists_letters_digits r,
      fun a => Aliases.mem_add⟩
  · intro r base name
    have hsearch (result : String) : Search (· ∉ r.usedNames) base base 2 result ↔ result = name :=
      Xsd.TypeRegistry.search_iff_eq_freshName
    exact ⟨hsearch, ((hsearch name).2 rfl).leastFree, fun n a => NameSet.mem_insert,
      fun rowsType a => NameSet.mem_insert⟩

example : (((Aliases.empty.add "d").add "d2").introduce ⟨none, "drug"⟩).1 = "d1" := by
  decide +kernel

end XmlPublishing

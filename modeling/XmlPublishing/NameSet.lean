/-!
Finite sets of names, kept as strictly ascending lists. Names are compared by code points. Two
sets with the same members are equal (`NameSet.ext`), so `=` on sets is the comparison meant
everywhere.
-/

namespace XmlPublishing

/-- A finite set of names in ascending order. -/
structure NameSet where
  toList : List String
  ascending : toList.Pairwise (· < ·)
deriving DecidableEq

namespace NameSet

/-- Puts `x` at its place in an ascending list, unless it is there. -/
def insertAscending (x : String) : List String → List String
  | [] => [x]
  | y :: ys => if x < y then x :: y :: ys else if x = y then y :: ys else y :: insertAscending x ys

theorem mem_insertAscending {x a : String} {ys : List String} :
    a ∈ insertAscending x ys ↔ a = x ∨ a ∈ ys := by
  induction ys with
  | nil => simp [insertAscending]
  | cons y ys ih =>
    unfold insertAscending
    split
    · simp
    · split
      · subst x; simp
      · simp [ih, or_left_comm]

theorem pairwise_insertAscending {x : String} {ys : List String} (h : ys.Pairwise (· < ·)) :
    (insertAscending x ys).Pairwise (· < ·) := by
  induction ys with
  | nil => simp [insertAscending]
  | cons y ys ih =>
    unfold insertAscending
    obtain ⟨hy, hys⟩ := List.pairwise_cons.1 h
    split
    · next hxy =>
      refine List.pairwise_cons.2 ⟨fun a ha => ?_, h⟩
      rcases List.mem_cons.1 ha with rfl | ha
      · exact hxy
      · exact String.lt_trans hxy (hy a ha)
    · next hxy =>
      split
      · exact h
      · next hne =>
        refine List.pairwise_cons.2 ⟨fun a ha => ?_, ih hys⟩
        rcases mem_insertAscending.1 ha with rfl | ha
        · exact Decidable.byContradiction fun h' =>
            hne (String.le_antisymm (String.not_lt.1 h') (String.not_lt.1 hxy))
        · exact hy a ha

def empty : NameSet := ⟨[], .nil⟩

/-- The set with `x` as a further member. -/
def insert (s : NameSet) (x : String) : NameSet :=
  ⟨insertAscending x s.toList, pairwise_insertAscending s.ascending⟩

def ofList (names : List String) : NameSet := names.foldl insert empty

instance : EmptyCollection NameSet := ⟨empty⟩

instance : Membership String NameSet := ⟨fun s x => x ∈ s.toList⟩

instance (s : NameSet) (x : String) : Decidable (x ∈ s) :=
  inferInstanceAs (Decidable (x ∈ s.toList))

def size (s : NameSet) : Nat := s.toList.length

theorem nodup_toList (s : NameSet) : s.toList.Nodup := by
  refine s.ascending.imp ?_
  intro a b h heq
  exact String.lt_irrefl b (heq ▸ h)

/-- Sets with the same members are equal: their order leaves nothing to choose. -/
@[ext]
theorem ext {s t : NameSet} (h : ∀ a, a ∈ s ↔ a ∈ t) : s = t := by
  have hperm : s.toList.Perm t.toList :=
    (List.perm_ext_iff_of_nodup s.nodup_toList t.nodup_toList).2 h
  have hlist : s.toList = t.toList :=
    hperm.eq_of_pairwise (fun a b _ _ hab hba => absurd hba (String.lt_asymm hab))
      s.ascending t.ascending
  cases s
  cases t
  cases hlist
  rfl

theorem mem_insert {s : NameSet} {x a : String} : a ∈ s.insert x ↔ a = x ∨ a ∈ s :=
  mem_insertAscending

theorem mem_foldl_insert {names : List String} {s : NameSet} {a : String} :
    a ∈ names.foldl insert s ↔ a ∈ s ∨ a ∈ names := by
  induction names generalizing s with
  | nil => simp
  | cons name names ih =>
    rw [List.foldl_cons, ih, mem_insert, List.mem_cons, or_right_comm, or_comm]

theorem mem_ofList {names : List String} {a : String} : a ∈ ofList names ↔ a ∈ names := by
  rw [ofList, mem_foldl_insert]
  exact or_iff_right List.not_mem_nil

end NameSet

end XmlPublishing

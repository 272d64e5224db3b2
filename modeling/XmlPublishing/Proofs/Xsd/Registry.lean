import Mathlib.Data.List.Pairwise
import XmlPublishing.Proofs.FreshName
import XmlPublishing.Proofs.Xsd.Runs

/-!
The registry of type names.

In a well-formed registry (`TypeRegistry.WF`) every name is given once, to the rows of a node or to
a listing, and equal nodes have one type. Names are only ever added, and a new name is one that is
not in use (`TypeRegistry.freshName_notMem`).
-/

namespace XmlPublishing.Xsd

namespace TypeRegistry

variable {r r' : TypeRegistry} {m n : Layout} {rowsType listing : String}

/-- The rows of nodes equal to `n` have the given type. -/
def Names (r : TypeRegistry) (n : Layout) (rowsType : String) : Prop :=
  ∃ m, (m, rowsType) ∈ r.rowsTypes ∧ m == n

def names (r : TypeRegistry) : List String := r.rowsTypes.map (·.2) ++ r.listingTypes.map (·.2)

/-- No node has two types, no name is given twice, and the names in use are those that are given. -/
structure WF (r : TypeRegistry) : Prop where
  rows : r.rowsTypes.Pairwise fun a b => ¬ a.1 == b.1
  listings : (r.listingTypes.map (·.1)).Nodup
  distinct : r.names.Nodup
  used : ∀ name, name ∈ r.usedNames ↔ name ∈ r.names

theorem wf_empty : WF empty := ⟨.nil, .nil, .nil, fun _ => Iff.rfl⟩

theorem freshName_notMem (r : TypeRegistry) (base : String) :
    r.freshName base ∉ r.usedNames := by
  let isFree : String → Bool := fun name => name ∉ r.usedNames
  have hused (k : Nat) (hk : isFree (base ++ toString k) = false) :
      base ++ toString k ∈ r.usedNames.toList :=
    Decidable.not_not.1 (of_decide_eq_false hk)
  have hfree : isFree (r.freshName base) := isFree_freshName _ hused (Nat.le_refl _)
  exact of_decide_eq_true hfree

theorem numbered_freshName (r : TypeRegistry) (base : String) : Numbered base (r.freshName base) :=
  XmlPublishing.numbered_freshName ..

theorem names_of_rowsType? (h : r.rowsType? n = some rowsType) : r.Names n rowsType := by
  obtain ⟨⟨m, name⟩, hfind, hname⟩ := Option.map_eq_some_iff.1 h
  have heq := List.find?_some hfind
  obtain rfl : name = rowsType := hname
  exact ⟨m, List.mem_of_find?_eq_some hfind, heq⟩

theorem not_names_of_rowsType?_eq_none (h : r.rowsType? n = none) : ¬ r.Names n rowsType := by
  intro h'
  obtain ⟨m, hm, heq⟩ := h'
  exact List.find?_eq_none.1 (Option.map_eq_none_iff.1 h) _ hm heq

theorem listingType?_eq_none_iff :
    r.listingType? rowsType = none ↔ rowsType ∉ r.listingTypes.map (·.1) := by
  rw [listingType?, List.lookup_eq_none_iff, List.mem_map]
  constructor
  · intro h hmem
    obtain ⟨e, he, rfl⟩ := hmem
    exact bne_iff_ne.1 (h e he) rfl
  · intro h e he
    exact bne_iff_ne.2 fun heq => h ⟨e, he, heq.symm⟩

theorem mem_of_listingType? (h : r.listingType? rowsType = some listing) :
    (rowsType, listing) ∈ r.listingTypes := by
  obtain ⟨before, after, heq, -⟩ := List.lookup_eq_some_iff.1 h
  rw [heq]
  exact List.mem_append_right _ List.mem_cons_self

theorem Names.congr (h : r.Names m rowsType) (hmn : m == n) : r.Names n rowsType := by
  obtain ⟨m', hm', heq⟩ := h
  exact ⟨m', hm', BEq.trans heq hmn⟩

theorem Names.mono (h : r.Names n rowsType) (hsub : r.rowsTypes ⊆ r'.rowsTypes) :
    r'.Names n rowsType := by
  obtain ⟨m, hm, heq⟩ := h
  exact ⟨m, hsub hm, heq⟩

theorem names_addListingType (r : TypeRegistry) (rowsType name : String) :
    (r.addListingType rowsType name).names.Perm (name :: r.names) := List.perm_middle

namespace WF

theorem freshName_notMem_names (h : r.WF) (base : String) : r.freshName base ∉ r.names :=
  fun hmem => freshName_notMem r base ((h.used _).2 hmem)

theorem beq_of_names (h : r.WF) (hm : r.Names m rowsType) (hn : r.Names n rowsType) : m == n := by
  obtain ⟨m', hm', hmeq⟩ := hm
  obtain ⟨n', hn', hneq⟩ := hn
  have hinj := List.inj_on_of_nodup_map (List.nodup_append.1 h.distinct).1
  obtain rfl := congrArg Prod.fst (hinj hm' hn' rfl)
  exact BEq.trans (BEq.symm hmeq) hneq

theorem names_unique (h : r.WF) {rowsType' : String} (hn : r.Names n rowsType)
    (hn' : r.Names n rowsType') : rowsType = rowsType' := by
  obtain ⟨m, hm, heq⟩ := hn
  obtain ⟨m', hm', heq'⟩ := hn'
  have : Std.Symm fun a b : Layout × String => ¬ a.1 == b.1 := ⟨fun _ _ h h' => h (BEq.symm h')⟩
  by_contra hne
  exact h.rows.forall hm hm' (fun h => hne (congrArg Prod.snd h)) (BEq.trans heq (BEq.symm heq'))

theorem addRowsType (h : r.WF) (hn : r.rowsType? n = none) {name : String}
    (hname : name ∉ r.names) : (r.addRowsType n name).WF where
  rows := by
    refine List.pairwise_cons.2 ⟨fun e he heq => ?_, h.rows⟩
    exact not_names_of_rowsType?_eq_none hn ⟨e.1, he, BEq.symm heq⟩
  listings := h.listings
  distinct := List.nodup_cons.2 ⟨hname, h.distinct⟩
  used a := by
    rw [TypeRegistry.addRowsType, NameSet.mem_insert, h.used]
    exact List.mem_cons.symm

theorem addListingType (h : r.WF) (hn : r.listingType? rowsType = none) {name : String}
    (hname : name ∉ r.names) : (r.addListingType rowsType name).WF := by
  have hperm := names_addListingType r rowsType name
  constructor
  · exact h.rows
  · exact List.nodup_cons.2 ⟨listingType?_eq_none_iff.1 hn, h.listings⟩
  · exact hperm.nodup_iff.2 (List.nodup_cons.2 ⟨hname, h.distinct⟩)
  · intro a
    rw [hperm.mem_iff, List.mem_cons, ← h.used]
    exact NameSet.mem_insert

end WF

end TypeRegistry

end XmlPublishing.Xsd

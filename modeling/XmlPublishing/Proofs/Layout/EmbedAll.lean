import XmlPublishing.Proofs.Layout.Requests

/-!
Embedding all children, or all parents, at once and one by one.

With the standard names the two agree (`BuiltOver.embedAll_eq_embedEach`): one succeeds exactly when
the other does, with the same layout. A key for which a default layout can be made is told apart by
its source fields, so that a request that picks it by them adds what is made for the key itself
(`adds_childOf_iff`, `adds_parentOf_iff`). Names that are apart in the end were apart after every
request before, and, when there is nothing to embed, in the layout as it was built.
-/

namespace XmlPublishing.Layout

variable {s : Schema} {d : Defaults} {n n' : Layout} {k : ForeignKey}

/-- Embeds a default child for each key in turn, picked by its source fields. -/
def embedEachChild (n : Layout) (d : Defaults) (keys : List ForeignKey) :
    Except PublishError Layout :=
  keys.foldlM (fun m k => m.embedChild d k.source (some k.sourceSet) none) n

/-- Embeds a default parent for each key in turn, picked by its source fields. -/
def embedEachParent (n : Layout) (d : Defaults) (keys : List ForeignKey) :
    Except PublishError Layout :=
  keys.foldlM (fun m k => m.embedParent d k.target (some k.sourceSet) none) n

/-! ## One key -/

/-- Picking a key by its source fields and making the default layout for it is making the default
layout for the key itself, if that can only be made for keys that are told apart. -/
theorem selectKey_and_default_iff {default : ForeignKey → Except PublishError Layout}
    (hk : k ∈ s.foreignKeys) (hdefault : ∀ layout, default k = .ok layout → k.UniqueIn s)
    {child parent : RelationId} {e : Joined Layout} :
    selectKey (s.keysBetween k.source k.target) (some k.sourceSet) child parent = .ok e.key ∧
        default e.key = .ok e.layout ↔ MadeBy default k e := by
  constructor
  · intro h
    obtain ⟨hkey, hlayout⟩ := h
    have heq := eq_of_matchingKeys_eq (Schema.mem_keysBetween_self hk) (selectKey_eq_ok.1 hkey)
    exact ⟨heq, heq ▸ hlayout⟩
  · intro h
    obtain ⟨rfl, hlayout⟩ := h
    exact ⟨selectKey_eq_ok.2 (hdefault e.layout hlayout), hlayout⟩

/-- The request for the default child of a key, picked by its source fields. -/
def childOf (k : ForeignKey) : EmbedRequest := ⟨.child, k.source, some k.sourceSet, none⟩

/-- The request for the default parent of a key, picked by its source fields. -/
def parentOf (k : ForeignKey) : EmbedRequest := ⟨.parent, k.target, some k.sourceSet, none⟩

theorem adds_childOf_iff {i : NodeInfo} {e : Joined Layout} (hd : d.naming = .standard)
    (hk : k ∈ (d.schema.keysTo i.relation).filter fun k => d.schema.contains k.source) :
    Adds d i (childOf k) e ↔ MadeBy (d.child · i.style) k e := by
  obtain ⟨hk, hreg⟩ := List.mem_filter.1 hk
  have hjoins := ForeignKey.joins_of_mem_keysTo hk
  have hbetween : d.schema.keysBetween k.source i.relation =
      d.schema.keysBetween k.source k.target :=
    Schema.keysBetween_congr BEq.rfl (BEq.symm hjoins.target)
  rw [← selectKey_and_default_iff hjoins.mem (fun _ => Defaults.uniqueIn_of_child hd hjoins.mem),
    ← hbetween]
  constructor
  · intro h
    cases h with
    | child _ hkey hlayout => exact ⟨hkey, hlayout⟩
  · intro h
    exact .child hreg h.1 h.2

theorem adds_parentOf_iff {i : NodeInfo} {e : Joined Layout} (hd : d.naming = .standard)
    (hk : k ∈ (d.schema.keysFrom i.relation).filter fun k => d.schema.contains k.target) :
    Adds d i (parentOf k) e ↔ MadeBy (d.parent · i.style) k e := by
  obtain ⟨hk, hreg⟩ := List.mem_filter.1 hk
  have hjoins := ForeignKey.joins_of_mem_keysFrom hk
  have hbetween : d.schema.keysBetween i.relation k.target =
      d.schema.keysBetween k.source k.target :=
    Schema.keysBetween_congr (BEq.symm hjoins.source) BEq.rfl
  rw [← selectKey_and_default_iff hjoins.mem (fun _ => Defaults.uniqueIn_of_parent hd hjoins.mem),
    ← hbetween]
  constructor
  · intro h
    cases h with
    | parent _ hkey hlayout => exact ⟨hkey, hlayout⟩
  · intro h
    exact .parent hreg h.1 h.2

/-! ## All keys -/

theorem addsEach_childOf_iff {i : NodeInfo} {ps cs : List (Joined Layout)}
    (hd : d.naming = .standard) :
    let keys := (d.schema.keysTo i.relation).filter fun k => d.schema.contains k.source
    AddsEach d i (keys.map childOf) ps cs ↔
      ps = [] ∧ List.Forall₂ (MadeBy (d.child · i.style)) keys cs := by
  intro keys
  have hparents : EmbedRequest.on .parent (keys.map childOf) = [] := by
    simp [EmbedRequest.on, List.filter_map, childOf]
  have hchildren : EmbedRequest.on .child (keys.map childOf) = keys.map childOf := by
    simp [EmbedRequest.on, List.filter_map, childOf, Function.comp_def]
  rw [AddsEach, hparents, hchildren, List.forall₂_nil_left_iff, List.forall₂_map_left_iff]
  refine and_congr_right fun _ => ⟨fun h => ?_, fun h => ?_⟩
  · exact forall₂_imp_of_mem h fun k hk e _ => (adds_childOf_iff hd hk).1
  · exact forall₂_imp_of_mem h fun k hk e _ => (adds_childOf_iff hd hk).2

theorem addsEach_parentOf_iff {i : NodeInfo} {ps cs : List (Joined Layout)}
    (hd : d.naming = .standard) :
    let keys := (d.schema.keysFrom i.relation).filter fun k => d.schema.contains k.target
    AddsEach d i (keys.map parentOf) ps cs ↔
      cs = [] ∧ List.Forall₂ (MadeBy (d.parent · i.style)) keys ps := by
  intro keys
  have hparents : EmbedRequest.on .parent (keys.map parentOf) = keys.map parentOf := by
    simp [EmbedRequest.on, List.filter_map, parentOf, Function.comp_def]
  have hchildren : EmbedRequest.on .child (keys.map parentOf) = [] := by
    simp [EmbedRequest.on, List.filter_map, parentOf]
  rw [AddsEach, hparents, hchildren, List.forall₂_nil_left_iff, List.forall₂_map_left_iff,
    and_comm]
  refine and_congr_right fun _ => ⟨fun h => ?_, fun h => ?_⟩
  · exact forall₂_imp_of_mem h fun k hk e _ => (adds_parentOf_iff hd hk).1
  · exact forall₂_imp_of_mem h fun k hk e _ => (adds_parentOf_iff hd hk).2

theorem embedEachChild_eq (n : Layout) (d : Defaults) (keys : List ForeignKey) :
    n.embedEachChild d keys = n.embedEach d (keys.map childOf) := by
  rw [embedEach, List.foldlM_map]
  rfl

theorem embedEachParent_eq (n : Layout) (d : Defaults) (keys : List ForeignKey) :
    n.embedEachParent d keys = n.embedEach d (keys.map parentOf) := by
  rw [embedEach, List.foldlM_map]
  rfl

/-- Embedding all children checks names once. Embedding them one by one checks the same names after
every step. -/
theorem embedChildren_eq_ok_iff (hd : d.naming = .standard) (hapart : n.NamesApart)
    (hchildren : n.children = []) :
    n.embedChildren d = .ok n' ↔ n.embedEachChild d
      ((d.schema.keysTo n.relation).filter fun k => d.schema.contains k.source) = .ok n' := by
  have hadding (cs : List (Joined Layout)) :
      n.adding [] cs = .node n.info n.parents cs := by
    rw [adding, hchildren, List.append_nil, List.nil_append]
  rw [embedChildren_eq_ok, embedEachChild_eq, embedEach_eq_ok_iff (.inl hapart), exists_comm]
  refine exists_congr fun cs => ?_
  simp only [relation, addsEach_childOf_iff hd, and_assoc, exists_eq_left, hadding, style]

theorem embedParents_eq_ok_iff (hd : d.naming = .standard) (hapart : n.NamesApart)
    (hparents : n.parents = []) :
    n.embedParents d = .ok n' ↔ n.embedEachParent d
      ((d.schema.keysFrom n.relation).filter fun k => d.schema.contains k.target) = .ok n' := by
  have hadding (ps : List (Joined Layout)) :
      n.adding ps [] = .node n.info ps n.children := by
    rw [adding, hparents, List.append_nil, List.nil_append]
  rw [embedParents_eq_ok, embedEachParent_eq, embedEach_eq_ok_iff (.inl hapart)]
  refine exists_congr fun ps => ?_
  simp only [relation, addsEach_parentOf_iff hd, and_assoc, exists_eq_left, hadding, style]

/-- With the standard names, embedding all children of a node without children at once gives a
layout exactly when embedding them one by one does, and then the same one; likewise for parents. -/
theorem BuiltOver.embedAll_eq_embedEach (hn : n.BuiltOver s) (style : CollectionStyle)
    (ns : Option String) :
    let d : Defaults := ⟨s, .standard, style, ns⟩
    (n.children = [] → ∀ n', n.embedChildren d = .ok n' ↔
      n.embedEachChild d ((s.keysTo n.relation).filter fun k => s.contains k.source) = .ok n') ∧
    (n.parents = [] → ∀ n', n.embedParents d = .ok n' ↔
      n.embedEachParent d ((s.keysFrom n.relation).filter fun k => s.contains k.target) = .ok n') :=
  ⟨fun hchildren _ => embedChildren_eq_ok_iff rfl hn.allApart.root hchildren,
    fun hparents _ => embedParents_eq_ok_iff rfl hn.allApart.root hparents⟩

end XmlPublishing.Layout

namespace XmlPublishing.Staff

def deputyKey : ForeignKey := ⟨employee, employee, [("deputy", "id")]⟩

def teamKey : ForeignKey := ⟨employee, ⟨none, "t"⟩, [("team", "id")]⟩

/-- Employees with a boss, a deputy, and a team that is not registered. -/
def wideSchema : Schema where
  caseSensitivity := .preserve
  relations := [⟨employee, .table,
    [{ name := "id" }, { name := "boss" }, { name := "deputy" }, { name := "team" }]⟩]
  foreignKeys := [bossKey, teamKey, deputyKey]
  distinct := List.pairwise_singleton _ _
  fits := fun k hk => Schema.fitsIn_of_firstMissing? (List.findSome?_eq_none_iff.1 rfl k hk)

def wideAlone : Layout :=
  .leaf ⟨employee, ["id", "boss", "deputy", "team"], "e", "e-listing", .inline, none, none⟩

theorem wideAlone_embedAll :
    wideAlone.BuiltOver wideSchema ∧ wideAlone.children = [] ∧ wideAlone.parents = [] ∧
      let d : Defaults := ⟨wideSchema, .standard, .inline, none⟩
      (∃ n, wideAlone.embedChildren d = .ok n ∧
        wideAlone.embedEachChild d [bossKey, deputyKey] = .ok n) ∧
      ∃ n, wideAlone.embedParents d = .ok n ∧
        wideAlone.embedEachParent d [bossKey, deputyKey] = .ok n := by
  let d : Defaults := ⟨wideSchema, .standard, .inline, none⟩
  have hbuilt : wideAlone.BuiltOver wideSchema := .root (d := d) (r := employee) rfl rfl
  obtain ⟨hchildren, hparents⟩ := hbuilt.embedAll_eq_embedEach .inline none
  have hto : ((wideSchema.keysTo wideAlone.relation).filter fun k =>
      wideSchema.contains k.source) = [bossKey, deputyKey] := rfl
  have hfrom : ((wideSchema.keysFrom wideAlone.relation).filter fun k =>
      wideSchema.contains k.target) = [bossKey, deputyKey] := rfl
  rw [hto] at hchildren
  rw [hfrom] at hparents
  obtain ⟨n, hn⟩ : ∃ n, wideAlone.embedChildren d = .ok n :=
    exists_eq_ok_of_isOk (by decide +kernel)
  obtain ⟨m, hm⟩ : ∃ m, wideAlone.embedParents d = .ok m :=
    exists_eq_ok_of_isOk (by decide +kernel)
  exact ⟨hbuilt, rfl, rfl, ⟨n, hn, (hchildren rfl n).1 hn⟩, m, hm, (hparents rfl m).1 hm⟩

end XmlPublishing.Staff

import XmlPublishing.Proofs.Layout.Edits
import XmlPublishing.Proofs.Layout.Tree

/-!
Layouts built over a schema.

`Layout.BuiltOver` is what edits can reach from the default layout of a relation. Every layout
built over a schema fits it (`BuiltOver.fitsIn`): at each node the relation is registered and the
fields and sort terms exist, and each key in the tree is one of the schema's and leads from the
child to the parent. Each edit has one lemma that says that it keeps this. So at every depth a key
coheres with the two relations that it joins (`BuiltOver.keys_cohere`).
-/

namespace XmlPublishing

/-- The relation is registered, with the included fields and those that rows are sorted by. -/
structure NodeInfo.FitsIn (s : Schema) (i : NodeInfo) : Prop where
  registered : s.contains i.relation
  fields : ∀ name ∈ i.fields, s.HasField i.relation name
  order : ∀ order ∈ i.order, ∀ t ∈ order.terms, s.HasField i.relation t.field

namespace Layout

/-- The root fits the schema, and so do the keys that lead to what is embedded in it. -/
structure RootFitsIn (s : Schema) (n : Layout) : Prop where
  info : n.info.FitsIn s
  parents : ∀ e ∈ n.parents, e.key.Joins s n.relation e.layout.relation
  children : ∀ e ∈ n.children, e.key.Joins s e.layout.relation n.relation

/-- All nodes fit the schema. -/
def FitsIn (s : Schema) (n : Layout) : Prop := ∀ m ∈ n.nodes, m.RootFitsIn s

variable {s : Schema} {n n' : Layout} {d : Defaults}

theorem fitsIn_iff :
    n.FitsIn s ↔ n.info.FitsIn s ∧
      (∀ e ∈ n.parents, e.key.Joins s n.relation e.layout.relation ∧ e.layout.FitsIn s) ∧
      ∀ e ∈ n.children, e.key.Joins s e.layout.relation n.relation ∧ e.layout.FitsIn s := by
  rw [FitsIn, forall_mem_nodes]
  constructor
  · rintro ⟨hn, hparents, hchildren⟩
    exact ⟨hn.info, fun e he => ⟨hn.parents e he, hparents e he⟩,
      fun e he => ⟨hn.children e he, hchildren e he⟩⟩
  · rintro ⟨hi, hparents, hchildren⟩
    exact ⟨⟨hi, fun e he => (hparents e he).1, fun e he => (hchildren e he).1⟩,
      fun e he => (hparents e he).2, fun e he => (hchildren e he).2⟩

namespace FitsIn

theorem info (h : n.FitsIn s) : n.info.FitsIn s := (fitsIn_iff.1 h).1

theorem parents (h : n.FitsIn s) :
    ∀ e ∈ n.parents, e.key.Joins s n.relation e.layout.relation ∧ e.layout.FitsIn s :=
  (fitsIn_iff.1 h).2.1

theorem children (h : n.FitsIn s) :
    ∀ e ∈ n.children, e.key.Joins s e.layout.relation n.relation ∧ e.layout.FitsIn s :=
  (fitsIn_iff.1 h).2.2

theorem withInfo (h : n.FitsIn s) {i : NodeInfo} (hi : i.FitsIn s)
    (hr : i.relation = n.relation) : (n.withInfo i).FitsIn s := by
  refine fitsIn_iff.2 ⟨hi, ?_, ?_⟩
  · intro e he
    obtain ⟨hk, he⟩ := h.parents e he
    exact ⟨show e.key.Joins s i.relation _ from hr ▸ hk, he⟩
  · intro e he
    obtain ⟨hk, he⟩ := h.children e he
    exact ⟨show e.key.Joins s _ i.relation from hr ▸ hk, he⟩

theorem addChild (h : n.FitsIn s) {e : Joined Layout}
    (hk : e.key.Joins s e.layout.relation n.relation) (he : e.layout.FitsIn s) :
    (n.addChild e).FitsIn s := by
  refine fitsIn_iff.2 ⟨h.info, h.parents, fun e' he' => ?_⟩
  rcases List.mem_append.1 he' with he' | he'
  · exact h.children e' he'
  · obtain rfl := List.mem_singleton.1 he'
    exact ⟨hk, he⟩

theorem addParent (h : n.FitsIn s) {e : Joined Layout}
    (hk : e.key.Joins s n.relation e.layout.relation) (he : e.layout.FitsIn s) :
    (n.addParent e).FitsIn s := by
  refine fitsIn_iff.2 ⟨h.info, fun e' he' => ?_, h.children⟩
  rcases List.mem_append.1 he' with he' | he'
  · exact h.parents e' he'
  · obtain rfl := List.mem_singleton.1 he'
    exact ⟨hk, he⟩

end FitsIn

end Layout

/-! ## Default layouts fit -/

namespace Defaults

open Layout

variable {d : Defaults} {r : RelationId} {n : Layout} {k : ForeignKey} {style : CollectionStyle}

theorem fitsIn_leaf {fields : List String} (h : d.fieldNames r = .ok fields)
    (rowName collectionName : String) :
    (d.leaf r fields rowName collectionName).FitsIn d.schema := by
  obtain ⟨known, hknown, rfl⟩ := map_eq_ok.1 h
  replace hknown := Schema.knownFields_eq_ok.1 hknown
  refine fitsIn_iff.2 ⟨⟨Schema.contains_iff.2 ⟨known, hknown⟩, ?_, ?_⟩, ?_, ?_⟩
  · intro name hname
    obtain ⟨f, hf, rfl⟩ := List.mem_map.1 hname
    exact (Schema.hasField_iff hknown).2 (findField?_isSome_of_mem hf)
  · intro order horder
    cases horder
  · intro e he
    cases he
  · intro e he
    cases he

theorem root_eq_ok (h : d.root r = .ok n) : n.relation = r ∧ n.FitsIn d.schema := by
  obtain ⟨fields, hfields, rfl⟩ := root_eq_ok_iff.1 h
  exact ⟨rfl, fitsIn_leaf hfields _ _⟩

theorem child_eq_ok (h : d.child k style = .ok n) : n.relation = k.source ∧ n.FitsIn d.schema := by
  obtain ⟨fields, rowName, collectionName, hfields, -, -, rfl⟩ := child_eq_ok_iff.1 h
  exact ⟨rfl, fitsIn_leaf hfields _ _⟩

theorem parent_eq_ok (h : d.parent k style = .ok n) :
    n.relation = k.target ∧ n.FitsIn d.schema := by
  obtain ⟨fields, rowName, hfields, -, rfl⟩ := parent_eq_ok_iff.1 h
  exact ⟨rfl, fitsIn_leaf hfields _ _⟩

end Defaults

namespace Layout

variable {d : Defaults} {n n' : Layout}

/-! ## Edits keep the fit -/

namespace FitsIn

theorem embedChild {child : RelationId} {fields : Option FieldSet} {subtree : Option Layout}
    (h : n.FitsIn d.schema) (hsub : ∀ t ∈ subtree, t.FitsIn d.schema)
    (hn' : n.embedChild d child fields subtree = .ok n') : n'.FitsIn d.schema := by
  obtain ⟨-, key, layout, hkey, hlayout, rfl, -⟩ := embedChild_eq_ok.1 hn'
  have hjoins := ForeignKey.joins_of_mem_keysBetween (mem_of_selectKey_eq_ok hkey)
  rcases subtreeFor_eq_ok hlayout with ⟨rfl, hrel⟩ | ⟨-, hdefault⟩
  · exact h.addChild ⟨hjoins.mem, BEq.trans hjoins.source (BEq.symm hrel), hjoins.target⟩
      (hsub layout rfl)
  · obtain ⟨hrel, hfits⟩ := Defaults.child_eq_ok hdefault
    exact h.addChild ⟨hjoins.mem, hrel ▸ BEq.rfl, hjoins.target⟩ hfits

theorem embedParent {parent : RelationId} {fields : Option FieldSet} {subtree : Option Layout}
    (h : n.FitsIn d.schema) (hsub : ∀ t ∈ subtree, t.FitsIn d.schema)
    (hn' : n.embedParent d parent fields subtree = .ok n') : n'.FitsIn d.schema := by
  obtain ⟨-, key, layout, hkey, hlayout, rfl, -⟩ := embedParent_eq_ok.1 hn'
  have hjoins := ForeignKey.joins_of_mem_keysBetween (mem_of_selectKey_eq_ok hkey)
  rcases subtreeFor_eq_ok hlayout with ⟨rfl, hrel⟩ | ⟨-, hdefault⟩
  · exact h.addParent ⟨hjoins.mem, hjoins.source, BEq.trans hjoins.target (BEq.symm hrel)⟩
      (hsub layout rfl)
  · obtain ⟨hrel, hfits⟩ := Defaults.parent_eq_ok hdefault
    exact h.addParent ⟨hjoins.mem, hjoins.source, hrel ▸ BEq.rfl⟩ hfits

theorem embedChildren (h : n.FitsIn d.schema) (hn' : n.embedChildren d = .ok n') :
    n'.FitsIn d.schema := by
  obtain ⟨children, hchildren, rfl, -⟩ := embedChildren_eq_ok.1 hn'
  refine fitsIn_iff.2 ⟨h.info, h.parents, fun e he => ?_⟩
  obtain ⟨key, hkey, rfl, hlayout⟩ := forall₂_exists_left hchildren he
  obtain ⟨hrel, hfits⟩ := Defaults.child_eq_ok hlayout
  have hjoins := ForeignKey.joins_of_mem_keysTo (List.mem_of_mem_filter hkey)
  exact ⟨⟨hjoins.mem, hrel ▸ hjoins.source, hjoins.target⟩, hfits⟩

theorem embedParents (h : n.FitsIn d.schema) (hn' : n.embedParents d = .ok n') :
    n'.FitsIn d.schema := by
  obtain ⟨parents, hparents, rfl, -⟩ := embedParents_eq_ok.1 hn'
  refine fitsIn_iff.2 ⟨h.info, fun e he => ?_, h.children⟩
  obtain ⟨key, hkey, rfl, hlayout⟩ := forall₂_exists_left hparents he
  obtain ⟨hrel, hfits⟩ := Defaults.parent_eq_ok hlayout
  have hjoins := ForeignKey.joins_of_mem_keysFrom (List.mem_of_mem_filter hkey)
  exact ⟨⟨hjoins.mem, hjoins.source, hrel ▸ hjoins.target⟩, hfits⟩

theorem sortBy {order : SortOrder} (h : n.FitsIn d.schema) (hn' : n.sortBy d order = .ok n') :
    n'.FitsIn d.schema := by
  obtain ⟨known, hknown, hterms, rfl⟩ := sortBy_eq_ok.1 hn'
  refine h.withInfo ⟨h.info.registered, h.info.fields, ?_⟩ rfl
  intro order' horder' t ht
  cases horder'
  exact (Schema.hasField_iff hknown).2 (hterms t ht)

theorem selectFields {names : List String} (h : n.FitsIn d.schema)
    (hn' : n.selectFields d names = .ok n') : n'.FitsIn d.schema := by
  obtain ⟨known, fields, hknown, hfields, rfl, -⟩ := selectFields_eq_ok.1 hn'
  refine h.withInfo ⟨h.info.registered, fun name hname => ?_, h.info.order⟩ rfl
  obtain ⟨asked, -, hasked⟩ := forall₂_exists_left hfields hname
  obtain ⟨field, hfield, rfl⟩ := Option.map_eq_some_iff.1 hasked
  exact (Schema.hasField_iff hknown).2
    (findField?_isSome_of_mem (List.mem_of_find?_eq_some hfield))

theorem dropFields {s : Schema} {names : List String} (h : n.FitsIn s)
    (hn' : n.dropFields names = .ok n') : n'.FitsIn s := by
  obtain ⟨-, rfl⟩ := dropFields_eq_ok.1 hn'
  refine h.withInfo ⟨h.info.registered, fun name hname => ?_, h.info.order⟩ rfl
  exact h.info.fields name (List.mem_of_mem_filter hname)

end FitsIn

/-! ## Layouts built by edits -/

/-- The layouts that edits can make over `s`. Each edit may use other defaults over `s`: another
naming policy, style and namespace. -/
inductive BuiltOver (s : Schema) : Layout → Prop
  | root {d : Defaults} {r : RelationId} {n : Layout} :
      d.schema = s → d.root r = .ok n → BuiltOver s n
  | embedChild {d : Defaults} {n n' : Layout} {child : RelationId} {fields : Option FieldSet}
      {subtree : Option Layout} :
      d.schema = s → BuiltOver s n → (∀ t ∈ subtree, BuiltOver s t) →
      n.embedChild d child fields subtree = .ok n' → BuiltOver s n'
  | embedParent {d : Defaults} {n n' : Layout} {parent : RelationId} {fields : Option FieldSet}
      {subtree : Option Layout} :
      d.schema = s → BuiltOver s n → (∀ t ∈ subtree, BuiltOver s t) →
      n.embedParent d parent fields subtree = .ok n' → BuiltOver s n'
  | embedChildren {d : Defaults} {n n' : Layout} :
      d.schema = s → BuiltOver s n → n.embedChildren d = .ok n' → BuiltOver s n'
  | embedParents {d : Defaults} {n n' : Layout} :
      d.schema = s → BuiltOver s n → n.embedParents d = .ok n' → BuiltOver s n'
  | sortBy {d : Defaults} {n n' : Layout} {order : SortOrder} :
      d.schema = s → BuiltOver s n → n.sortBy d order = .ok n' → BuiltOver s n'
  | selectFields {d : Defaults} {n n' : Layout} {names : List String} :
      d.schema = s → BuiltOver s n → n.selectFields d names = .ok n' → BuiltOver s n'
  | dropFields {n n' : Layout} {names : List String} :
      BuiltOver s n → n.dropFields names = .ok n' → BuiltOver s n'
  | unsorted {n : Layout} : BuiltOver s n → BuiltOver s n.unsorted
  | inNamespace {n : Layout} {ns : String} : BuiltOver s n → BuiltOver s (n.inNamespace ns)
  | inheritNamespace {n : Layout} : BuiltOver s n → BuiltOver s n.inheritNamespace
  | renameRows {n : Layout} {name : String} : BuiltOver s n → BuiltOver s (n.renameRows name)
  | renameCollection {n : Layout} {name : String} :
      BuiltOver s n → BuiltOver s (n.renameCollection name)

theorem BuiltOver.fitsIn {s : Schema} (h : n.BuiltOver s) : n.FitsIn s := by
  induction h with
  | root hd h => exact hd ▸ (Defaults.root_eq_ok h).2
  | embedChild hd _ _ h ih ihSub => subst hd; exact ih.embedChild ihSub h
  | embedParent hd _ _ h ih ihSub => subst hd; exact ih.embedParent ihSub h
  | embedChildren hd _ h ih => subst hd; exact ih.embedChildren h
  | embedParents hd _ h ih => subst hd; exact ih.embedParents h
  | sortBy hd _ h ih => subst hd; exact ih.sortBy h
  | selectFields hd _ h ih => subst hd; exact ih.selectFields h
  | dropFields _ h ih => exact ih.dropFields h
  | unsorted _ ih => exact ih.withInfo ⟨ih.info.registered, ih.info.fields, nofun⟩ rfl
  | inNamespace _ ih | inheritNamespace _ ih | renameRows _ ih | renameCollection _ ih =>
    exact ih.withInfo ⟨ih.info.registered, ih.info.fields, ih.info.order⟩ rfl

/-- At every node of a layout built over a schema, the keys of embedded parents lead from the node
to them and the keys of embedded children from them to the node. Both ends are registered and have
the fields that the key names on their sides. -/
theorem BuiltOver.keys_cohere {s : Schema} (hn : n.BuiltOver s) :
    ∀ m ∈ n.nodes,
      (∀ e ∈ m.parents, e.key.Coheres s m.relation e.layout.relation) ∧
        ∀ e ∈ m.children, e.key.Coheres s e.layout.relation m.relation := by
  intro m hm
  have hfits (k : Layout) (hk : k ∈ m.nodes) : k.RootFitsIn s :=
    hn.fitsIn k (mem_nodes_trans hk hm)
  have hself := hfits m m.self_mem_nodes
  constructor
  · intro e he
    have hparent := hfits e.layout (mem_nodes_of_parent he)
    exact (hself.parents e he).coheres hself.info.registered hparent.info.registered
  · intro e he
    have hchild := hfits e.layout (mem_nodes_of_child he)
    exact (hself.children e he).coheres hchild.info.registered hself.info.registered

end Layout

/-! ## Examples

A relation of employees that references itself, and one of projects, each led by an employee. -/

namespace Staff

def employee : RelationId := ⟨none, "e"⟩

def bossKey : ForeignKey := ⟨employee, employee, [("boss", "id")]⟩

def schema : Schema where
  caseSensitivity := .preserve
  relations := [⟨employee, .table, [{ name := "id" }, { name := "boss" }]⟩]
  foreignKeys := [bossKey]
  distinct := List.pairwise_singleton _ _
  fits := by
    intro k hk
    obtain rfl := List.mem_singleton.1 hk
    constructor
    · intro r hr
      obtain rfl := List.mem_singleton.1 (List.mem_of_find?_eq_some hr)
      rfl
    · intro r hr
      obtain rfl := List.mem_singleton.1 (List.mem_of_find?_eq_some hr)
      rfl

def defaults : Defaults := ⟨schema, .standard, .wrapped, none⟩

def alone : Layout := .leaf ⟨employee, ["id", "boss"], "e", "e-listing", .wrapped, none, none⟩

theorem alone_builtOver : alone.BuiltOver schema := .root (d := defaults) (r := employee) rfl rfl

def withBoss : Layout := alone.addParent ⟨bossKey, alone⟩

/-- An employee with the boss, and with those who report to the employee. -/
def team : Layout := withBoss.addChild ⟨bossKey, withBoss⟩

theorem withBoss_builtOver : withBoss.BuiltOver schema := by
  have h : alone.embedParent defaults employee none none = .ok withBoss := rfl
  refine .embedParent rfl alone_builtOver ?_ h
  intro t ht
  cases ht

theorem team_builtOver : team.BuiltOver schema := by
  have h : withBoss.embedChild defaults employee none (some withBoss) = .ok team := rfl
  refine .embedChild rfl withBoss_builtOver (fun t ht => ?_) h
  obtain rfl := Option.mem_some.1 ht
  exact withBoss_builtOver

def project : RelationId := ⟨none, "p"⟩

def leadKey : ForeignKey := ⟨project, employee, [("lead", "id")]⟩

/-- Employees, and projects that reference their leads. -/
def projectSchema : Schema where
  caseSensitivity := .preserve
  relations := [⟨employee, .table, [{ name := "id" }, { name := "boss" }]⟩,
    ⟨project, .table, [{ name := "no" }, { name := "lead" }]⟩]
  foreignKeys := [bossKey, leadKey]
  distinct := (@Schema.distinct_of_firstRepeated? [] _ rfl).2
  fits := fun k hk => Schema.fitsIn_of_firstMissing? (List.findSome?_eq_none_iff.1 rfl k hk)

def projectDefaults : Defaults := ⟨projectSchema, .standard, .wrapped, none⟩

def projectAlone : Layout :=
  .leaf ⟨project, ["no", "lead"], "p", "p-listing", .wrapped, none, none⟩

/-- A project with its lead. -/
def led : Layout := projectAlone.addParent ⟨leadKey, alone⟩

/-- An employee with the projects that the employee leads, each with its lead. -/
def leads : Layout := alone.addChild ⟨leadKey, led⟩

theorem led_builtOver : led.BuiltOver projectSchema := by
  have halone : projectAlone.BuiltOver projectSchema :=
    .root (d := projectDefaults) (r := project) rfl rfl
  have h : projectAlone.embedParent projectDefaults employee none none = .ok led := rfl
  refine .embedParent rfl halone (fun t ht => ?_) h
  cases ht

theorem leads_builtOver : leads.BuiltOver projectSchema := by
  have halone : alone.BuiltOver projectSchema :=
    .root (d := projectDefaults) (r := employee) rfl rfl
  have h : alone.embedChild projectDefaults project none (some led) = .ok leads := rfl
  refine .embedChild rfl halone (fun t ht => ?_) h
  obtain rfl := Option.mem_some.1 ht
  exact led_builtOver

theorem leads_keys_cohere :
    leads.BuiltOver projectSchema ∧ led ∈ leads.nodes ∧
      leadKey.Coheres projectSchema led.relation leads.relation ∧
      leadKey.Coheres projectSchema led.relation alone.relation := by
  have hled : led ∈ leads.nodes :=
    Layout.mem_nodes_of_child (n := leads) (e := ⟨leadKey, led⟩) (List.mem_singleton_self _)
  obtain ⟨-, hchildren⟩ := leads_builtOver.keys_cohere leads leads.self_mem_nodes
  obtain ⟨hparents, -⟩ := leads_builtOver.keys_cohere led hled
  exact ⟨leads_builtOver, hled, hchildren ⟨leadKey, led⟩ (List.mem_singleton_self _),
    hparents ⟨leadKey, alone⟩ (List.mem_singleton_self _)⟩

end Staff

end XmlPublishing

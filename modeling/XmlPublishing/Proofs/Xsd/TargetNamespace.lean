import XmlPublishing.Proofs.Query.Namespaces
import XmlPublishing.Proofs.Xsd.Runs

/-!
The target namespace of a schema document and the namespaces in the output of a rows query.

A schema document has one target namespace, that of the root, and all elements that it describes are
in it. In the output each embedded element may be in a namespace of its own. The two agree exactly
for layouts with one namespace throughout (`Document.rows_query_in_targetNs_iff`); an embedded
layout in another namespace gives documents that the schema document does not describe
(`Staff.abroad_not_in_targetNs`).
-/

namespace XmlPublishing

/-- The name of a namespace, empty for none. An empty declaration stands for no namespace, too. -/
def nsName (ns : Option String) : String := ns.getD ""

theorem nsName_orElse {ns outer : Option String} {target : String} (h : nsName outer = target) :
    nsName (ns <|> outer) = target ↔ ∀ name ∈ ns, name = target := by
  cases ns with
  | none => exact ⟨fun _ => nofun, fun _ => h⟩
  | some name => exact ⟨fun hname _ hmem => Option.mem_some.1 hmem ▸ hname, fun h => h name rfl⟩

/-- All elements of the tree are in namespaces of the given kind. -/
inductive NsTree.All (P : Option String → Prop) : NsTree → Prop
  | element {name : String} {ns : Option String} {content : List NsTree} :
      P ns → (∀ t ∈ content, All P t) → All P (.element name ns content)

theorem NsTree.all_element {P : Option String → Prop} {name : String} {ns : Option String}
    {content : List NsTree} :
    (NsTree.element name ns content).All P ↔ P ns ∧ ∀ t ∈ content, t.All P := by
  constructor
  · intro h
    cases h with
    | element hns hcontent => exact ⟨hns, hcontent⟩
  · intro h
    exact .element h.1 h.2

namespace Layout

/-- No node is in another namespace than the one with the given name. -/
def OnlyIn (target : String) (n : Layout) : Prop := ∀ m ∈ n.nodes, ∀ name ∈ m.ns, name = target

variable {target : String} {outer : Option String} {n : Layout}

theorem rowElement_congr {outer' : Option String} (h : (n.ns <|> outer) = (n.ns <|> outer')) :
    n.rowElement outer = n.rowElement outer' := by
  obtain ⟨info, parents, children⟩ := n
  rw [rowElement_node, rowElement_node, show (info.ns <|> outer) = (info.ns <|> outer') from h]

theorem all_contentElement
    (hrows : ∀ outer, nsName outer = target →
      ((n.rowElement outer).All (nsName · = target) ↔ n.OnlyIn target))
    (h : nsName outer = target) (style : CollectionStyle) :
    (n.contentElement outer style).All (nsName · = target) ↔ n.OnlyIn target := by
  cases style with
  | inline => exact hrows outer h
  | wrapped =>
    rw [contentElement, NsTree.all_element, List.forall_mem_singleton]
    constructor
    · intro hall
      exact (hrows _ hall.1).1 hall.2
    · intro honly
      have hinner : nsName (n.ns <|> outer) = target :=
        (nsName_orElse h).2 (honly n n.self_mem_nodes)
      exact ⟨hinner, (hrows _ hinner).2 honly⟩

theorem all_rowElement (h : nsName outer = target) :
    (n.rowElement outer).All (nsName · = target) ↔ n.OnlyIn target := by
  induction n generalizing outer with
  | node info parents children ihParents ihChildren =>
    rw [rowElement_node, NsTree.all_element, OnlyIn, forall_mem_nodes, nsName_orElse h]
    -- what is embedded is compared where the namespace of the node is in effect
    refine and_congr_right fun hroot => ?_
    have hinner : nsName (info.ns <|> outer) = target := (nsName_orElse h).2 hroot
    rw [List.forall_mem_append, List.forall_mem_map, List.forall_mem_map]
    refine and_congr ?_ ?_
    · exact forall₂_congr fun e he => ihParents e he hinner
    · exact forall₂_congr fun e he =>
        all_contentElement (fun _ h => ihChildren e he h) hinner info.style

end Layout

/-- All elements that the rows query for a layout builds are in the target namespace of its schema
document exactly when no embedded layout is in another namespace than the root. -/
theorem Xsd.Document.rows_query_in_targetNs_iff {s : Schema} {o : XsdOptions} {n : Layout}
    {doc : Document} (hdoc : Document.ofLayout s o n = .ok doc) {options : QueryOptions}
    {p : Publisher} (hp : Publisher.ofSchema? (some s) none options = .ok p)
    {name? filter : Option String} {columns : RowColumns} {text : String}
    (htext : p.rows n name? filter columns none = .ok text) :
    let tree := (p.planner.topRows n name? filter columns none).declared
    SqlXml.DeclaresRows (String.ofList (List.replicate options.indent ' ')) text tree ∧
      doc.targetNs = n.ns ∧
      ((tree.inEffect none).All (nsName · = nsName doc.targetNs) ↔ n.OnlyIn (nsName n.ns)) := by
  cases hp
  obtain ⟨r, -, hns⟩ := ofLayout_eq_ok.1 hdoc
  refine ⟨RowsPlan.declares_text rfl htext, hns, ?_⟩
  -- the root is in its own namespace, in whichever one it is placed
  have hroot : n.rowElement none = n.rowElement n.ns :=
    Layout.rowElement_congr (by cases n.ns <;> rfl)
  rw [Planner.topRows, (Planner.rows_realizes ..).inEffect, hroot, hns]
  exact Layout.all_rowElement rfl

namespace Staff

open Xsd

/-- The team, all in one namespace. -/
def home : Layout := team.inNamespace "urn:staff"

theorem home_in_targetNs :
    ∃ doc, Document.ofLayout schema {} home = .ok doc ∧
      Publisher.ofSchema? (some schema) none {} = .ok publisher ∧
      ∃ text, publisher.rows home none none ⟨.all, .xml⟩ none = .ok text ∧
        ((publisher.planner.topRows home none none ⟨.all, .xml⟩ none).declared.inEffect none).All
          (nsName · = nsName doc.targetNs) := by
  obtain ⟨doc, hdoc⟩ : ∃ doc, Document.ofLayout schema {} home = .ok doc := ⟨_, rfl⟩
  have hp : Publisher.ofSchema? (some schema) none {} = .ok publisher := rfl
  obtain ⟨text, htext⟩ : ∃ text, publisher.rows home none none ⟨.all, .xml⟩ none = .ok text :=
    ⟨_, rfl⟩
  obtain ⟨-, -, hiff⟩ := Document.rows_query_in_targetNs_iff hdoc hp htext
  have honly : ∀ m ∈ home.nodes, ∀ name ∈ m.ns, name = nsName home.ns := by decide
  exact ⟨doc, hdoc, hp, text, htext, hiff.2 honly⟩

/-- Employees in no namespace, with those who report to them in one. -/
def abroad : Layout := alone.addChild ⟨bossKey, alone.inNamespace "urn:staff"⟩

theorem abroad_builtOver : abroad.BuiltOver schema := by
  have h : alone.embedChild defaults employee none (some (alone.inNamespace "urn:staff")) =
      .ok abroad := rfl
  refine .embedChild rfl alone_builtOver (fun t ht => ?_) h
  obtain rfl := Option.mem_some.1 ht
  exact .inNamespace alone_builtOver

theorem abroad_not_in_targetNs :
    ∃ doc text, abroad.BuiltOver schema ∧ Document.ofLayout schema {} abroad = .ok doc ∧
      publisher.rows abroad none none ⟨.all, .xml⟩ none = .ok text ∧
      let tree := (publisher.planner.topRows abroad none none ⟨.all, .xml⟩ none).declared
      SqlXml.DeclaresRows (String.ofList (List.replicate 2 ' ')) text tree ∧
        ¬ (tree.inEffect none).All (nsName · = nsName doc.targetNs) := by
  obtain ⟨text, htext⟩ : ∃ text, publisher.rows abroad none none ⟨.all, .xml⟩ none = .ok text :=
    ⟨_, rfl⟩
  refine ⟨_, text, abroad_builtOver, rfl, htext, RowsPlan.declares_text rfl htext, fun hall => ?_⟩
  -- the collection inside the row declares a namespace
  obtain ⟨-, hcontent⟩ := NsTree.all_element.1 hall
  obtain ⟨hlisting, -⟩ := NsTree.all_element.1 (hcontent _ (List.mem_singleton_self _))
  have hne : nsName (some "urn:staff") ≠ nsName none := by decide
  exact hne hlisting

end Staff

end XmlPublishing

import Mathlib.Data.List.Perm.Basic
import XmlPublishing.Proofs.Layout.DistinctNames

/-!
Requests to embed relations, in any order.

What a request adds to a node depends on what the node says of its own relation (`Adds`), which no
request changes, and names that are apart in the end were apart after every request before. So a
list of requests adds to a node what each of them adds, those for parents and those for children in
their order, if the names are apart in the end (`embedEach_eq_ok_iff`). Whether it succeeds does not
depend on the order of the list, and the result only on the orders on the two sides
(`embedEach_of_perm`).
-/

namespace XmlPublishing

/-- Where a relation is embedded: as a child, which references the node's relation, or as a parent,
which the node's relation references. -/
inductive EmbedSide where
  | child
  | parent
deriving DecidableEq

/-- A request to embed a relation in a node. `fields` picks the foreign key when there are several,
and without a `subtree` the default layout is embedded. -/
structure EmbedRequest where
  side : EmbedSide
  relation : RelationId
  fields : Option FieldSet
  subtree : Option Layout

/-- The requests for one side, in order. -/
def EmbedRequest.on (side : EmbedSide) (rs : List EmbedRequest) : List EmbedRequest :=
  rs.filter (·.side = side)

namespace Layout

variable {d : Defaults} {i : NodeInfo} {m n n' : Layout} {r : EmbedRequest}
  {rs rs' : List EmbedRequest}

def embed (n : Layout) (d : Defaults) (r : EmbedRequest) : Except PublishError Layout :=
  match r.side with
  | .child => n.embedChild d r.relation r.fields r.subtree
  | .parent => n.embedParent d r.relation r.fields r.subtree

/-- Carries out the requests one after another. -/
def embedEach (n : Layout) (d : Defaults) (rs : List EmbedRequest) : Except PublishError Layout :=
  rs.foldlM (·.embed d ·) n

/-- What the request adds to a node that says `i` of its own relation. -/
inductive Adds (d : Defaults) (i : NodeInfo) : EmbedRequest → Joined Layout → Prop
  | child {child : RelationId} {fields : Option FieldSet} {subtree : Option Layout}
      {e : Joined Layout} :
      d.schema.contains child →
      selectKey (d.schema.keysBetween child i.relation) fields child i.relation = .ok e.key →
      subtreeFor child (d.child e.key i.style) subtree = .ok e.layout →
      Adds d i ⟨.child, child, fields, subtree⟩ e
  | parent {parent : RelationId} {fields : Option FieldSet} {subtree : Option Layout}
      {e : Joined Layout} :
      d.schema.contains parent →
      selectKey (d.schema.keysBetween i.relation parent) fields i.relation parent = .ok e.key →
      subtreeFor parent (d.parent e.key i.style) subtree = .ok e.layout →
      Adds d i ⟨.parent, parent, fields, subtree⟩ e

/-- The node with more embedded after what it has. -/
def adding (n : Layout) (ps cs : List (Joined Layout)) : Layout :=
  .node n.info (n.parents ++ ps) (n.children ++ cs)

def add (n : Layout) (e : Joined Layout) : EmbedSide → Layout
  | .child => n.addChild e
  | .parent => n.addParent e

theorem info_add (n : Layout) (e : Joined Layout) (side : EmbedSide) :
    (n.add e side).info = n.info := by
  cases side <;> rfl

theorem adding_nil (n : Layout) : n.adding [] [] = n := by
  obtain ⟨info, parents, children⟩ := n
  rw [adding, List.append_nil, List.append_nil]
  rfl

theorem adding_addChild (n : Layout) (e : Joined Layout) (ps cs : List (Joined Layout)) :
    (n.addChild e).adding ps cs = n.adding ps (e :: cs) := by
  rw [adding, adding, List.append_cons n.children]
  rfl

theorem adding_addParent (n : Layout) (e : Joined Layout) (ps cs : List (Joined Layout)) :
    (n.addParent e).adding ps cs = n.adding (e :: ps) cs := by
  rw [adding, adding, List.append_cons n.parents]
  rfl

theorem NamesApart.of_adding {ps cs : List (Joined Layout)} (h : (n.adding ps cs).NamesApart) :
    n.NamesApart := by
  refine h.of_sublist (.refl _) ?_
  rw [contentNames, contentNames]
  exact ((List.sublist_append_left ..).map _).append ((List.sublist_append_left ..).map _)

theorem NamesApart.of_perm (h : n.NamesApart) (hfields : m.fields = n.fields)
    (hnames : m.contentNames.Perm n.contentNames) : m.NamesApart where
  nodup := (hnames.map _).nodup_iff.2 h.nodup
  disjoint := hfields ▸ List.disjoint_of_subset_right (hnames.map _).subset h.disjoint

/-! ## What a list of requests adds -/

theorem embed_eq_ok :
    n.embed d r = .ok n' ↔
      ∃ e, Adds d n.info r e ∧ n' = n.add e r.side ∧ (n.add e r.side).NamesApart := by
  obtain ⟨side, relation, fields, subtree⟩ := r
  cases side with
  | child =>
    rw [embed, embedChild_eq_ok]
    constructor
    · intro h
      obtain ⟨hreg, key, layout, hkey, hlayout, hn'⟩ := h
      exact ⟨⟨key, layout⟩, .child hreg hkey hlayout, hn'⟩
    · intro h
      obtain ⟨e, hadds, hn'⟩ := h
      cases hadds with
      | child hreg hkey hlayout => exact ⟨hreg, e.key, e.layout, hkey, hlayout, hn'⟩
  | parent =>
    rw [embed, embedParent_eq_ok]
    constructor
    · intro h
      obtain ⟨hreg, key, layout, hkey, hlayout, hn'⟩ := h
      exact ⟨⟨key, layout⟩, .parent hreg hkey hlayout, hn'⟩
    · intro h
      obtain ⟨e, hadds, hn'⟩ := h
      cases hadds with
      | parent hreg hkey hlayout => exact ⟨hreg, e.key, e.layout, hkey, hlayout, hn'⟩

/-- `ps` and `cs` are what the requests add as parents and as children, each in their order. -/
def AddsEach (d : Defaults) (i : NodeInfo) (rs : List EmbedRequest)
    (ps cs : List (Joined Layout)) : Prop :=
  List.Forall₂ (Adds d i) (EmbedRequest.on .parent rs) ps ∧
    List.Forall₂ (Adds d i) (EmbedRequest.on .child rs) cs

theorem AddsEach.cons {e : Joined Layout} {ps cs : List (Joined Layout)} (he : Adds d i r e)
    (h : AddsEach d i rs ps cs) : ∃ ps' cs', AddsEach d i (r :: rs) ps' cs' ∧
      ∀ n : Layout, (n.add e r.side).adding ps cs = n.adding ps' cs' := by
  obtain ⟨hps, hcs⟩ := h
  cases he with
  | child hreg hkey hlayout =>
    exact ⟨ps, e :: cs, ⟨hps, .cons (.child hreg hkey hlayout) hcs⟩,
      fun n => adding_addChild n e ps cs⟩
  | parent hreg hkey hlayout =>
    exact ⟨e :: ps, cs, ⟨.cons (.parent hreg hkey hlayout) hps, hcs⟩,
      fun n => adding_addParent n e ps cs⟩

theorem AddsEach.exists_of_cons {ps cs : List (Joined Layout)} (h : AddsEach d i (r :: rs) ps cs) :
    ∃ e ps' cs', Adds d i r e ∧ AddsEach d i rs ps' cs' ∧
      ∀ n : Layout, (n.add e r.side).adding ps' cs' = n.adding ps cs := by
  obtain ⟨side, relation, fields, subtree⟩ := r
  obtain ⟨hps, hcs⟩ := h
  cases side with
  | child =>
    cases hcs with
    | cons he hcs => exact ⟨_, ps, _, he, ⟨hps, hcs⟩, fun n => adding_addChild n _ ps _⟩
  | parent =>
    cases hps with
    | cons he hps => exact ⟨_, _, cs, he, ⟨hps, hcs⟩, fun n => adding_addParent n _ _ cs⟩

/-- Requests one after another, each checking names, embed what they add and check names once. -/
theorem embedEach_eq_ok_iff (hn : n.NamesApart ∨ rs ≠ []) :
    n.embedEach d rs = .ok n' ↔ ∃ ps cs, AddsEach d n.info rs ps cs ∧
      n' = n.adding ps cs ∧ (n.adding ps cs).NamesApart := by
  induction rs generalizing n with
  | nil =>
    rw [embedEach, List.foldlM_nil, pure_eq_ok]
    constructor
    · rintro rfl
      have hapart : n'.NamesApart := hn.resolve_right fun h => h rfl
      exact ⟨[], [], ⟨.nil, .nil⟩, (adding_nil n').symm, (adding_nil n').symm ▸ hapart⟩
    · rintro ⟨ps, cs, ⟨hps, hcs⟩, rfl, -⟩
      cases hps
      cases hcs
      exact adding_nil n
  | cons r rs ih =>
    rw [embedEach, List.foldlM_cons, bind_eq_ok]
    constructor
    · intro h
      obtain ⟨m, hm, h⟩ := h
      obtain ⟨e, he, rfl, hapart⟩ := embed_eq_ok.1 hm
      obtain ⟨ps, cs, heach, rfl, hfinal⟩ := (ih (.inl hapart)).1 h
      rw [info_add] at heach
      obtain ⟨ps', cs', heach', hadding⟩ := heach.cons he
      rw [hadding] at hfinal ⊢
      exact ⟨ps', cs', heach', rfl, hfinal⟩
    · intro h
      obtain ⟨ps, cs, heach, rfl, hfinal⟩ := h
      obtain ⟨e, ps', cs', he, heach', hadding⟩ := heach.exists_of_cons
      rw [← hadding] at hfinal
      -- the names in the end are apart, so they were when this request was checked
      have hapart : (n.add e r.side).NamesApart := hfinal.of_adding
      refine ⟨_, embed_eq_ok.2 ⟨e, he, rfl, hapart⟩, (ih (.inl hapart)).2 ⟨ps', cs', ?_,
        (hadding n).symm, hfinal⟩⟩
      rwa [info_add]

/-! ## The order of requests -/

theorem exists_addsEach_of_perm {ps cs : List (Joined Layout)} (h : rs.Perm rs')
    (heach : AddsEach d i rs ps cs) :
    ∃ ps' cs', AddsEach d i rs' ps' cs' ∧ ps'.Perm ps ∧ cs'.Perm cs := by
  obtain ⟨hps, hcs⟩ := heach
  obtain ⟨ps', hps', hpsPerm⟩ := List.perm_comp_forall₂ (h.symm.filter _) hps
  obtain ⟨cs', hcs', hcsPerm⟩ := List.perm_comp_forall₂ (h.symm.filter _) hcs
  exact ⟨ps', cs', ⟨hps', hcs'⟩, hpsPerm, hcsPerm⟩

theorem contentNames_adding_perm {ps ps' cs cs' : List (Joined Layout)} (n : Layout)
    (hps : ps'.Perm ps) (hcs : cs'.Perm cs) :
    (n.adding ps' cs').contentNames.Perm (n.adding ps cs).contentNames :=
  ((hps.append_left _).map _).append ((hcs.append_left _).map _)

theorem exists_embedEach_of_perm (h : rs.Perm rs') (hn' : n.embedEach d rs = .ok n') :
    ∃ m, n.embedEach d rs' = .ok m := by
  by_cases hne : rs = []
  · subst hne
    obtain rfl := h.nil_eq
    exact ⟨n', hn'⟩
  · have hne' : rs' ≠ [] := fun h' => hne (h' ▸ h).eq_nil
    obtain ⟨ps, cs, heach, rfl, hapart⟩ := (embedEach_eq_ok_iff (.inr hne)).1 hn'
    obtain ⟨ps', cs', heach', hps, hcs⟩ := exists_addsEach_of_perm h heach
    exact ⟨_, (embedEach_eq_ok_iff (.inr hne')).2 ⟨ps', cs', heach', rfl,
      hapart.of_perm rfl (contentNames_adding_perm n hps hcs)⟩⟩

/-- A list of requests and any rearrangement of it succeed alike, and with the same layout if the
requests for children keep their order and so do those for parents. -/
theorem embedEach_of_perm (d : Defaults) (n : Layout) (h : rs.Perm rs') :
    ((∃ m, n.embedEach d rs = .ok m) ↔ ∃ m, n.embedEach d rs' = .ok m) ∧
      ((∀ side, EmbedRequest.on side rs = EmbedRequest.on side rs') →
        ∀ m, n.embedEach d rs = .ok m ↔ n.embedEach d rs' = .ok m) := by
  constructor
  · constructor
    · rintro ⟨m, hm⟩
      exact exists_embedEach_of_perm h hm
    · rintro ⟨m, hm⟩
      exact exists_embedEach_of_perm h.symm hm
  · intro hon m
    by_cases hne : rs = []
    · subst hne
      rw [h.nil_eq]
    · have hne' : rs' ≠ [] := fun h' => hne (h' ▸ h).eq_nil
      simp only [embedEach_eq_ok_iff (.inr hne), embedEach_eq_ok_iff (.inr hne'), AddsEach, hon]

end Layout

namespace Staff

def wantsProjects : EmbedRequest := ⟨.child, project, none, some led⟩

def wantsReports : EmbedRequest := ⟨.child, employee, none, none⟩

def wantsBoss : EmbedRequest := ⟨.parent, employee, none, none⟩

theorem embedEach_wantsBoss_first :
    [wantsProjects, wantsReports, wantsBoss].Perm [wantsBoss, wantsProjects, wantsReports] ∧
      ∃ m, alone.embedEach projectDefaults [wantsProjects, wantsReports, wantsBoss] = .ok m ∧
        alone.embedEach projectDefaults [wantsBoss, wantsProjects, wantsReports] = .ok m := by
  have hperm : [wantsProjects, wantsReports, wantsBoss].Perm
      [wantsBoss, wantsProjects, wantsReports] :=
    @List.perm_append_comm _ [wantsProjects, wantsReports] [wantsBoss]
  have hon (side : EmbedSide) : EmbedRequest.on side [wantsProjects, wantsReports, wantsBoss] =
      EmbedRequest.on side [wantsBoss, wantsProjects, wantsReports] := by
    cases side <;> rfl
  obtain ⟨m, hm⟩ : ∃ m,
      alone.embedEach projectDefaults [wantsProjects, wantsReports, wantsBoss] = .ok m := ⟨_, rfl⟩
  obtain ⟨-, hsame⟩ := Layout.embedEach_of_perm projectDefaults alone hperm
  exact ⟨hperm, m, hm, (hsame hon m).1 hm⟩

end Staff

end XmlPublishing

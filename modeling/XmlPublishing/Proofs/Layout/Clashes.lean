import Mathlib.Data.Nat.Find
import XmlPublishing.Proofs.Layout.Requests

/-!
Clashes of names.

Edits that put elements next to each other first look things up and make the changed node, and then
check its names (`Changes.edit_eq`). The elements of embedded layouts are looked at in order, the
parents before the children whatever the edit has added. The first one whose name was there before,
as that of a field or of an earlier element, is reported, and that is the only way in which the
check fails (`checkNames_eq_error`). What it lets pass differs from the node before only in the list
that the edit is about (`Changes.names_checked`).
-/

namespace XmlPublishing

/-- An edit that changes which elements stand next to each other in the rows of a node. -/
inductive RowEdit where
  | embed (request : EmbedRequest)
  | embedChildren
  | embedParents
  | selectFields (names : List String)

namespace Layout

variable {d : Defaults} {m n : Layout} {x : RowEdit} {names : List String}
  {es : List (ForeignKey × String)}

def edit (n : Layout) (d : Defaults) : RowEdit → Except PublishError Layout
  | .embed r => n.embed d r
  | .embedChildren => n.embedChildren d
  | .embedParents => n.embedParents d
  | .selectFields names => n.selectFields d names

/-! ## The first clash -/

/-- The entry at place `i` has, in small letters, one of the `names` or that of an entry before
it. -/
def RepeatsAt (names : List String) (es : List (ForeignKey × String)) (i : Nat) : Prop :=
  ∃ e, es[i]? = some e ∧ ∃ name ∈ names ++ (es.take i).map (·.2), Text.lower name = Text.lower e.2

theorem repeatsAt_zero {e : ForeignKey × String} :
    RepeatsAt names (e :: es) 0 ↔ Text.lower e.2 ∈ names.map Text.lower := by
  simp [RepeatsAt]

theorem repeatsAt_succ {e : ForeignKey × String} {i : Nat} :
    RepeatsAt names (e :: es) (i + 1) ↔ RepeatsAt (e.2 :: names) es i := by
  simp only [RepeatsAt, List.getElem?_cons_succ, List.take_succ_cons, List.map_cons,
    List.cons_append, List.mem_append, List.mem_cons, or_left_comm]

theorem firstClash?_eq_some {e : ForeignKey × String} :
    firstClash? (names.map Text.lower) es = some e ↔
      ∃ i, es[i]? = some e ∧ RepeatsAt names es i ∧ ∀ j < i, ¬ RepeatsAt names es j := by
  induction es generalizing names with
  | nil => simp [firstClash?, RepeatsAt]
  | cons e' es ih =>
    rw [firstClash?]
    split
    · next hclash =>
      have hzero : RepeatsAt names (e' :: es) 0 := repeatsAt_zero.2 hclash
      constructor
      · intro h
        exact ⟨0, h, hzero, fun j hj => absurd hj (Nat.not_lt_zero j)⟩
      · rintro ⟨i, hi, -, hfirst⟩
        cases i with
        | zero => exact hi
        | succ i => exact absurd hzero (hfirst 0 (Nat.succ_pos i))
    · next hclash =>
      have hzero : ¬ RepeatsAt names (e' :: es) 0 := fun h => hclash (repeatsAt_zero.1 h)
      rw [← List.map_cons, ih]
      constructor
      · rintro ⟨i, hi, hrepeats, hfirst⟩
        refine ⟨i + 1, hi, repeatsAt_succ.2 hrepeats, fun j hj => ?_⟩
        cases j with
        | zero => exact hzero
        | succ j => exact fun h => hfirst j (Nat.lt_of_succ_lt_succ hj) (repeatsAt_succ.1 h)
      · rintro ⟨i, hi, hrepeats, hfirst⟩
        cases i with
        | zero => exact absurd hrepeats hzero
        | succ i =>
          refine ⟨i, hi, repeatsAt_succ.1 hrepeats, fun j hj h => ?_⟩
          exact hfirst (j + 1) (Nat.succ_lt_succ hj) (repeatsAt_succ.2 h)

/-- The first embedded element that repeats a name is called `name` and embedded through `k`. -/
def Blames (n : Layout) (k : ForeignKey) (name : String) : Prop :=
  ∃ i, n.contentNames[i]? = some (k, name) ∧ RepeatsAt n.fields n.contentNames i ∧
    ∀ j < i, ¬ RepeatsAt n.fields n.contentNames j

theorem exists_blames (h : ∃ i, RepeatsAt n.fields n.contentNames i) :
    ∃ k name, n.Blames k name := by
  classical
  obtain ⟨⟨k, name⟩, hentry, -⟩ := Nat.find_spec h
  exact ⟨k, name, Nat.find h, hentry, Nat.find_spec h, fun j hj => Nat.find_min h hj⟩

theorem checkNames_eq_error {e : PublishError} :
    n.checkNames = .error e ↔ ∃ k name, n.Blames k name ∧
      e = .ambiguousForeignKey k.source k.target (.nameInUse name n.rowName) := by
  simp only [Blames, ← firstClash?_eq_some, checkNames]
  cases firstClash? (n.fields.map Text.lower) n.contentNames with
  | none => simp
  | some entry =>
    obtain ⟨k, name⟩ := entry
    constructor
    · intro h
      exact ⟨k, name, rfl, (Except.error.inj h).symm⟩
    · rintro ⟨k', name', hentry, rfl⟩
      cases hentry
      rfl

theorem exists_checkNames_eq_error :
    (∃ e, n.checkNames = .error e) ↔ ∃ i, RepeatsAt n.fields n.contentNames i := by
  constructor
  · rintro ⟨e, he⟩
    obtain ⟨k, name, ⟨i, -, hi, -⟩, -⟩ := checkNames_eq_error.1 he
    exact ⟨i, hi⟩
  · intro h
    obtain ⟨k, name, hblames⟩ := exists_blames h
    exact ⟨_, checkNames_eq_error.2 ⟨k, name, hblames, rfl⟩⟩

/-! ## Edits -/

theorem embedChild_eq {child : RelationId} {fields : Option FieldSet} {subtree : Option Layout}
    {key : ForeignKey} {layout : Layout} (hreg : d.schema.contains child)
    (hkey : selectKey (d.schema.keysBetween child n.relation) fields child n.relation = .ok key)
    (hlayout : subtreeFor child (d.child key n.style) subtree = .ok layout) :
    n.embedChild d child fields subtree = (n.addChild ⟨key, layout⟩).checkNames := by
  rw [embedChild, if_pos hreg, bind_of_eq_ok hkey, bind_of_eq_ok hlayout]

theorem embedParent_eq {parent : RelationId} {fields : Option FieldSet} {subtree : Option Layout}
    {key : ForeignKey} {layout : Layout} (hreg : d.schema.contains parent)
    (hkey : selectKey (d.schema.keysBetween n.relation parent) fields n.relation parent = .ok key)
    (hlayout : subtreeFor parent (d.parent key n.style) subtree = .ok layout) :
    n.embedParent d parent fields subtree = (n.addParent ⟨key, layout⟩).checkNames := by
  rw [embedParent, if_pos hreg, bind_of_eq_ok hkey, bind_of_eq_ok hlayout]

theorem selectFields_eq {names fields : List String} {known : List Field}
    (hknown : d.schema.fields? n.relation = some known)
    (hfields : List.Forall₂ (fun name field => (findField? known name).map (·.name) = some field)
      names fields) :
    n.selectFields d names = (n.withInfo { n.info with fields }).checkNames := by
  rw [selectFields, bind_of_eq_ok (Schema.knownFields_eq_ok.2 hknown)]
  refine bind_of_eq_ok (mapM_eq_ok.2 (hfields.imp fun name field h => ?_))
  obtain ⟨f, hf, rfl⟩ := Option.map_eq_some_iff.1 h
  rw [hf]

/-- All steps of the edit before the check of names succeed, and `m` is the changed node. -/
inductive Changes (d : Defaults) (n : Layout) : RowEdit → Layout → Prop
  | embed {r : EmbedRequest} {e : Joined Layout} :
      Adds d n.info r e → Changes d n (.embed r) (n.add e r.side)
  | embedChildren {cs : List (Joined Layout)} :
      List.Forall₂ (MadeBy (d.child · n.style))
        ((d.schema.keysTo n.relation).filter fun k => d.schema.contains k.source) cs →
      Changes d n .embedChildren (.node n.info n.parents cs)
  | embedParents {ps : List (Joined Layout)} :
      List.Forall₂ (MadeBy (d.parent · n.style))
        ((d.schema.keysFrom n.relation).filter fun k => d.schema.contains k.target) ps →
      Changes d n .embedParents (.node n.info ps n.children)
  | selectFields {names fields : List String} {known : List Field} :
      d.schema.fields? n.relation = some known →
      List.Forall₂ (fun name field => (findField? known name).map (·.name) = some field)
        names fields →
      Changes d n (.selectFields names) (n.withInfo { n.info with fields })

/-- The node after the edit differs from the one before at most in the list that the edit is about,
where a single relation is added at the end. -/
inductive OnlyChanges : RowEdit → Layout → Layout → Prop
  | child {r : EmbedRequest} {info : NodeInfo} {ps cs : List (Joined Layout)} (e : Joined Layout) :
      r.side = .child → OnlyChanges (.embed r) (.node info ps cs) (.node info ps (cs ++ [e]))
  | parent {r : EmbedRequest} {info : NodeInfo} {ps cs : List (Joined Layout)}
      (e : Joined Layout) :
      r.side = .parent → OnlyChanges (.embed r) (.node info ps cs) (.node info (ps ++ [e]) cs)
  | children {info : NodeInfo} {ps cs : List (Joined Layout)} (cs' : List (Joined Layout)) :
      OnlyChanges .embedChildren (.node info ps cs) (.node info ps cs')
  | parents {info : NodeInfo} {ps cs : List (Joined Layout)} (ps' : List (Joined Layout)) :
      OnlyChanges .embedParents (.node info ps cs) (.node info ps' cs)
  | fields {names : List String} {info : NodeInfo} {ps cs : List (Joined Layout)}
      (fields : List String) :
      OnlyChanges (.selectFields names) (.node info ps cs) (.node { info with fields } ps cs)

namespace Changes

theorem onlyChanges (h : Changes d n x m) : OnlyChanges x n m := by
  obtain ⟨info, ps, cs⟩ := n
  cases h with
  | @embed r e hadds =>
    cases hadds with
    | child _ _ _ => exact .child e rfl
    | parent _ _ _ => exact .parent e rfl
  | embedChildren _ => exact .children _
  | embedParents _ => exact .parents _
  | selectFields _ _ => exact .fields _

theorem rowName_eq (h : Changes d n x m) : m.rowName = n.rowName := by
  cases h.onlyChanges <;> rfl

/-- What is left of the edit is to check the names of the changed node. -/
theorem edit_eq (h : Changes d n x m) : n.edit d x = m.checkNames := by
  cases h with
  | embed hadds =>
    cases hadds with
    | child hreg hkey hlayout => exact embedChild_eq hreg hkey hlayout
    | parent hreg hkey hlayout => exact embedParent_eq hreg hkey hlayout
  | embedChildren hmade =>
    rw [edit, Layout.embedChildren,
      bind_of_eq_ok ((mapM_eq_ok_iff_madeBy (d.child · n.style)).2 hmade)]
  | embedParents hmade =>
    rw [edit, Layout.embedParents,
      bind_of_eq_ok ((mapM_eq_ok_iff_madeBy (d.parent · n.style)).2 hmade)]
  | selectFields hknown hfields => exact selectFields_eq hknown hfields

/-- An edit whose earlier steps succeed fails exactly when an embedded element of the changed node
repeats the name of a field or of an element before it. The first such element is reported, with the
relations that its key joins. Otherwise the changed node is the result, and only the list that the
edit is about is another one. -/
theorem names_checked (h : Changes d n x m) :
    ((∃ e, n.edit d x = .error e) ↔ ∃ i, RepeatsAt m.fields m.contentNames i) ∧
    (∀ e, n.edit d x = .error e ↔ ∃ k name, m.Blames k name ∧
      e = .ambiguousForeignKey k.source k.target (.nameInUse name n.rowName)) ∧
    ∀ n', n.edit d x = .ok n' → n' = m ∧ OnlyChanges x n n' := by
  rw [h.edit_eq, ← h.rowName_eq]
  refine ⟨exists_checkNames_eq_error, fun e => checkNames_eq_error, fun n' hn' => ?_⟩
  obtain ⟨rfl, -⟩ := checkNames_eq_ok.1 hn'
  exact ⟨rfl, h.onlyChanges⟩

end Changes

end Layout

namespace Staff

/-- An employee with the projects that the employee leads, in a listing called `E`. -/
def capitalProjects : Layout := alone.addChild ⟨leadKey, projectAlone.renameCollection "E"⟩

/-- The boss of an employee comes before the projects, so the projects are blamed for the clash with
the boss. -/
theorem capitalProjects_blamed :
    Layout.Changes projectDefaults capitalProjects (.embed wantsBoss)
        (capitalProjects.addParent ⟨bossKey, alone⟩) ∧
      capitalProjects.edit projectDefaults (.embed wantsBoss) =
        .error (.ambiguousForeignKey project employee (.nameInUse "E" "e")) := by
  have hadds : Layout.Adds projectDefaults capitalProjects.info wantsBoss ⟨bossKey, alone⟩ :=
    .parent rfl rfl rfl
  have hchanges : Layout.Changes projectDefaults capitalProjects (.embed wantsBoss)
      (capitalProjects.addParent ⟨bossKey, alone⟩) := .embed hadds
  obtain ⟨-, herror, -⟩ := hchanges.names_checked
  refine ⟨hchanges, (herror _).2 ⟨leadKey, "E", ⟨1, rfl, ?_, ?_⟩, rfl⟩⟩
  · exact ⟨_, rfl, "e", by decide, by decide⟩
  · intro j hj
    obtain rfl := Nat.lt_one_iff.1 hj
    have hnames : (capitalProjects.addParent ⟨bossKey, alone⟩).contentNames =
        [(bossKey, "e"), (leadKey, "E")] := rfl
    rw [hnames, Layout.repeatsAt_zero]
    decide

end Staff

end XmlPublishing

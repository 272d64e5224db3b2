import Mathlib.Data.List.Forall2

/-!
Steps that may fail, one after another, and lists related member by member.

A chain of two steps ends with a value exactly when both do (`bind_eq_ok`, `run_bind_eq_ok` with a
state), and so does one step for each member of a list (`mapM_eq_ok`, `exists_mapM_eq_ok`;
`mapM_eq_some_of_forall₂` for results without an error), where the first step that fails decides the
error (`mapM_eq_error_of_find?`).
-/

namespace XmlPublishing

variable {ε α β γ : Type}

theorem exists_eq_ok_of_isOk {x : Except ε α} (h : x.isOk) : ∃ a, x = .ok a := by
  cases x with
  | error e => cases h
  | ok a => exact ⟨a, rfl⟩

theorem bind_eq_ok {x : Except ε α} {f : α → Except ε β} {b : β} :
    x >>= f = .ok b ↔ ∃ a, x = .ok a ∧ f a = .ok b := by
  cases x <;> simp [bind, Except.bind]

theorem bind_eq_error {x : Except ε α} {f : α → Except ε β} {e : ε} :
    x >>= f = .error e ↔ x = .error e ∨ ∃ a, x = .ok a ∧ f a = .error e := by
  cases x <;> simp [bind, Except.bind]

theorem bind_of_eq_ok {x : Except ε α} {f : α → Except ε β} {a : α} (h : x = .ok a) :
    x >>= f = f a := by
  rw [h]
  rfl

theorem pure_eq_ok {a b : α} : (pure a : Except ε α) = .ok b ↔ b = a :=
  ⟨fun h => (Except.ok.inj h).symm, fun h => h ▸ rfl⟩

theorem map_eq_ok {x : Except ε α} {f : α → β} {b : β} :
    x.map f = .ok b ↔ ∃ a, x = .ok a ∧ f a = b := by
  cases x <;> simp [Except.map]

theorem run_bind_eq_ok {σ : Type} {x : StateT σ (Except ε) α} {f : α → StateT σ (Except ε) β}
    {r : σ} {out : β × σ} :
    (x >>= f).run r = .ok out ↔ ∃ a r', x.run r = .ok (a, r') ∧ (f a).run r' = .ok out := by
  rw [StateT.run_bind, bind_eq_ok, Prod.exists]

theorem run_liftM_eq_ok {σ : Type} {x : Except ε α} {r : σ} {out : α × σ} :
    (liftM x : StateT σ (Except ε) α).run r = .ok out ↔ x = .ok out.1 ∧ out.2 = r := by
  obtain ⟨a, r'⟩ := out
  cases x with
  | error e => exact ⟨nofun, nofun⟩
  | ok b =>
    constructor
    · intro h
      cases h
      exact ⟨rfl, rfl⟩
    · intro h
      obtain ⟨h, rfl⟩ := h
      cases h
      rfl

theorem mapM_eq_ok {f : α → Except ε β} {as : List α} {bs : List β} :
    as.mapM f = .ok bs ↔ List.Forall₂ (fun a b => f a = .ok b) as bs := by
  induction as generalizing bs with
  | nil =>
    rw [List.mapM_nil, List.forall₂_nil_left_iff]
    exact ⟨fun h => (Except.ok.inj h).symm, fun h => h ▸ rfl⟩
  | cons a as ih =>
    rw [List.mapM_cons, bind_eq_ok, List.forall₂_cons_left_iff]
    constructor
    · intro h
      obtain ⟨b, hb, h⟩ := h
      obtain ⟨bs', hbs', h⟩ := bind_eq_ok.1 h
      exact ⟨b, bs', hb, ih.1 hbs', (Except.ok.inj h).symm⟩
    · intro h
      obtain ⟨b, bs', hb, hbs', rfl⟩ := h
      exact ⟨b, hb, bind_eq_ok.2 ⟨bs', ih.2 hbs', rfl⟩⟩

theorem mapM_eq_error_of_find? {f : α → Except ε β} {fails : α → Bool} {error : α → ε}
    (hok : ∀ a, ¬ fails a → ∃ b, f a = .ok b) (herror : ∀ a, fails a → f a = .error (error a))
    {as : List α} {a : α} (h : as.find? fails = some a) : as.mapM f = .error (error a) := by
  induction as with
  | nil => cases h
  | cons a' as ih =>
    rw [List.mapM_cons, bind_eq_error]
    cases hfails : fails a' with
    | true =>
      rw [List.find?_cons_of_pos hfails] at h
      cases h
      exact .inl (herror a hfails)
    | false =>
      have hfails : ¬ fails a' := Bool.eq_false_iff.1 hfails
      rw [List.find?_cons_of_neg hfails] at h
      obtain ⟨b, hb⟩ := hok a' hfails
      exact .inr ⟨b, hb, bind_eq_error.2 (.inl (ih h))⟩

variable {R S : α → β → Prop} {as : List α} {bs : List β}

theorem exists_forall₂ (h : ∀ a ∈ as, ∃ b, R a b) : ∃ bs, List.Forall₂ R as bs := by
  induction as with
  | nil => exact ⟨[], .nil⟩
  | cons a as ih =>
    obtain ⟨b, hb⟩ := h a List.mem_cons_self
    obtain ⟨bs, hbs⟩ := ih fun a ha => h a (List.mem_cons_of_mem _ ha)
    exact ⟨b :: bs, .cons hb hbs⟩

theorem exists_mapM_eq_ok {f : α → Except ε β} (h : ∀ a ∈ as, ∃ b, f a = .ok b) :
    ∃ bs, as.mapM f = .ok bs := by
  obtain ⟨bs, hbs⟩ := exists_forall₂ h
  exact ⟨bs, mapM_eq_ok.2 hbs⟩

theorem mapM_eq_some_of_forall₂ {f : β → Option γ} {g : α → γ} (h : List.Forall₂ R as bs)
    (H : ∀ a b, R a b → f b = some (g a)) : bs.mapM f = some (as.map g) := by
  induction h with
  | nil => rfl
  | cons hab _ ih =>
    rw [List.mapM_cons, H _ _ hab, ih]
    rfl

theorem forall₂_imp_of_mem (h : List.Forall₂ R as bs)
    (H : ∀ a ∈ as, ∀ b ∈ bs, R a b → S a b) : List.Forall₂ S as bs := by
  induction h with
  | nil => exact .nil
  | cons hab _ ih =>
    refine .cons (H _ List.mem_cons_self _ List.mem_cons_self hab) (ih fun a ha b hb => ?_)
    exact H a (List.mem_cons_of_mem _ ha) b (List.mem_cons_of_mem _ hb)

theorem forall₂_exists_right (h : List.Forall₂ R as bs) {a : α} (ha : a ∈ as) :
    ∃ b ∈ bs, R a b := by
  induction h with
  | nil => cases ha
  | cons hab _ ih =>
    rcases List.mem_cons.1 ha with rfl | ha
    · exact ⟨_, List.mem_cons_self, hab⟩
    · obtain ⟨b, hb, hab⟩ := ih ha
      exact ⟨b, List.mem_cons_of_mem _ hb, hab⟩

theorem forall₂_exists_left (h : List.Forall₂ R as bs) {b : β} (hb : b ∈ bs) :
    ∃ a ∈ as, R a b :=
  forall₂_exists_right h.flip hb

theorem mem_zip_map {f : α → β} {a : α} {b : β} (h : (a, b) ∈ as.zip (as.map f)) :
    a ∈ as ∧ b = f a := by
  have hzip : as.zip (as.map f) = as.map fun a => (a, f a) := by
    simpa using List.zip_map' (f := id) (g := f) (l := as)
  rw [hzip] at h
  obtain ⟨a', ha', heq⟩ := List.mem_map.1 h
  cases heq
  exact ⟨ha', rfl⟩

theorem forall₂_concat_left {a : α} :
    List.Forall₂ R (as ++ [a]) bs ↔ ∃ bs' b, bs = bs' ++ [b] ∧ List.Forall₂ R as bs' ∧ R a b := by
  constructor
  · intro h
    induction as generalizing bs with
    | nil =>
      obtain ⟨b, rest, hb, hrest, rfl⟩ := List.forall₂_cons_left_iff.1 h
      cases hrest
      exact ⟨[], b, rfl, .nil, hb⟩
    | cons a' as ih =>
      obtain ⟨b', rest, hb', hrest, rfl⟩ := List.forall₂_cons_left_iff.1 h
      obtain ⟨bs', b, rfl, hbs', hb⟩ := ih hrest
      exact ⟨b' :: bs', b, rfl, .cons hb' hbs', hb⟩
  · rintro ⟨bs', b, rfl, hbs', hb⟩
    exact List.rel_append hbs' (.cons hb .nil)

theorem map_eq_map_of_forall₂ {f : α → γ} {g : β → γ} (h : List.Forall₂ R as bs)
    (H : ∀ a b, R a b → g b = f a) : bs.map g = as.map f := by
  induction h with
  | nil => rfl
  | cons hab _ ih => rw [List.map_cons, List.map_cons, H _ _ hab, ih]

theorem forall₂_trans_of_mem {T : β → γ → Prop} {U : α → γ → Prop} {cs : List γ}
    (h : List.Forall₂ R as bs) (h' : List.Forall₂ T bs cs)
    (H : ∀ a ∈ as, ∀ b ∈ bs, ∀ c ∈ cs, R a b → T b c → U a c) : List.Forall₂ U as cs := by
  induction h generalizing cs with
  | nil => cases h'; exact .nil
  | cons hab _ ih =>
    cases h' with
    | cons hbc hrest =>
      refine .cons (H _ List.mem_cons_self _ List.mem_cons_self _ List.mem_cons_self hab hbc)
        (ih hrest fun a ha b hb c hc => ?_)
      exact H a (List.mem_cons_of_mem _ ha) b (List.mem_cons_of_mem _ hb) c
        (List.mem_cons_of_mem _ hc)

end XmlPublishing

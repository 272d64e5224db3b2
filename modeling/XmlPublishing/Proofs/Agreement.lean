import XmlPublishing.Proofs.Sequence

/-!
Two computations that agree.

`Agree E R` relates runs of which either both end with values related by `R` or both fail with
errors related by `E`. `AgreeFrom` is the same for computations with a state, run from any related
states. Chains of steps agree if each step does (`Agree.bind`, `AgreeFrom.bind`), so that a fact
about two runs of a recursive function is proved along its equations.
-/

namespace XmlPublishing

variable {ε α α' β β' : Type} {E : ε → ε → Prop} {R : α → α' → Prop} {S : β → β' → Prop}

/-- Both end with values related by `R`, or both fail with errors related by `E`. -/
inductive Agree (E : ε → ε → Prop) (R : α → α' → Prop) : Except ε α → Except ε α' → Prop
  | ok {a : α} {a' : α'} : R a a' → Agree E R (.ok a) (.ok a')
  | error {e e' : ε} : E e e' → Agree E R (.error e) (.error e')

namespace Agree

variable {x : Except ε α} {x' : Except ε α'} {f : α → Except ε β} {f' : α' → Except ε β'}

theorem bind (h : Agree E R x x') (hf : ∀ a a', R a a' → Agree E S (f a) (f' a')) :
    Agree E S (x >>= f) (x' >>= f') := by
  cases h with
  | ok hr => exact hf _ _ hr
  | error he => exact .error he

theorem map {g : α → β} {g' : α' → β'} (h : Agree E R x x')
    (hg : ∀ a a', R a a' → S (g a) (g' a')) : Agree E S (x.map g) (x'.map g') := by
  cases h with
  | ok hr => exact .ok (hg _ _ hr)
  | error he => exact .error he

theorem map_eq {g : α → β} {g' : α' → β} (h : Agree Eq R x x')
    (hg : ∀ a a', R a a' → g a = g' a') : x.map g = x'.map g' := by
  cases h with
  | ok hr => exact congrArg Except.ok (hg _ _ hr)
  | error he => exact congrArg Except.error he

theorem imp {R' : α → α' → Prop} (h : Agree E R x x') (hr : ∀ a a', R a a' → R' a a') :
    Agree E R' x x' := by
  cases h with
  | ok h => exact .ok (hr _ _ h)
  | error he => exact .error he

theorem mapM {as : List α} {as' : List α'}
    (h : List.Forall₂ (fun a a' => Agree E S (f a) (f' a')) as as') :
    Agree E (List.Forall₂ S) (as.mapM f) (as'.mapM f') := by
  induction h with
  | nil => exact .ok .nil
  | cons ha _ ih =>
    rw [List.mapM_cons, List.mapM_cons]
    exact ha.bind fun b b' hb => ih.bind fun bs bs' hbs => .ok (.cons hb hbs)

theorem exists_eq_ok {a : α} {y : Except ε α'} (h : Agree E R (.ok a) y) :
    ∃ a', y = .ok a' ∧ R a a' := by
  cases h with
  | ok hr => exact ⟨_, rfl, hr⟩

theorem eq_ok {a : α} {y : Except ε α} (h : Agree E Eq (.ok a) y) : y = .ok a := by
  obtain ⟨a', hy, rfl⟩ := h.exists_eq_ok
  exact hy

end Agree

variable {σ : Type} {Q : σ → σ → Prop}

/-- From related states the two agree, and leave related states. -/
def AgreeFrom (Q : σ → σ → Prop) (E : ε → ε → Prop) (R : α → α' → Prop)
    (x : StateT σ (Except ε) α) (x' : StateT σ (Except ε) α') : Prop :=
  ∀ s s', Q s s' → Agree E (fun a a' => R a.1 a'.1 ∧ Q a.2 a'.2) (x.run s) (x'.run s')

namespace AgreeFrom

theorem pure {a : α} {a' : α'} (h : R a a') :
    AgreeFrom Q E R (Pure.pure a : StateT σ (Except ε) α) (Pure.pure a') :=
  fun _ _ hs => .ok ⟨h, hs⟩

theorem get : AgreeFrom Q E Q (get : StateT σ (Except ε) σ) get := fun _ _ hs => .ok ⟨hs, hs⟩

theorem set {s s' : σ} (h : Q s s') :
    AgreeFrom Q E Eq (set s : StateT σ (Except ε) PUnit) (set s') := fun _ _ _ => .ok ⟨rfl, h⟩

theorem liftM {x : Except ε α} {x' : Except ε α'} (h : Agree E R x x') :
    AgreeFrom Q E R (liftM x : StateT σ (Except ε) α) (liftM x') := by
  intro s s' hs
  cases h with
  | ok hr => exact .ok ⟨hr, hs⟩
  | error he => exact .error he

theorem bind {x : StateT σ (Except ε) α} {x' : StateT σ (Except ε) α'}
    {f : α → StateT σ (Except ε) β} {f' : α' → StateT σ (Except ε) β'}
    (h : AgreeFrom Q E R x x') (hf : ∀ a a', R a a' → AgreeFrom Q E S (f a) (f' a')) :
    AgreeFrom Q E S (x >>= f) (x' >>= f') := by
  intro s s' hs
  rw [StateT.run_bind, StateT.run_bind]
  exact (h s s' hs).bind fun a a' ha => hf a.1 a'.1 ha.1 a.2 a'.2 ha.2

/-- A step with one result on both sides. -/
theorem bind_eq {x x' : StateT σ (Except ε) α} {f f' : α → StateT σ (Except ε) β}
    {S : β → β → Prop} (h : AgreeFrom Q E Eq x x') (hf : ∀ a, AgreeFrom Q E S (f a) (f' a)) :
    AgreeFrom Q E S (x >>= f) (x' >>= f') := by
  refine h.bind fun a a' ha => ?_
  rw [← ha]
  exact hf a

end AgreeFrom

end XmlPublishing

import XmlPublishing.Text.Quoted

/-!
Text with all that is quoted masked.

A reader of SQL is outside of quotes, inside a quoted identifier or literal, or just behind a quote
that ends it unless the same quote follows (`QuoteState`). `masked` keeps what is outside and stands
the opening quote for every identifier and literal. Texts with the same mask that end outside of
quotes (`SameText`) can be extended without telling them apart.
-/

namespace XmlPublishing.Text

/-- The characters that quote. -/
inductive Quote where
  | single
  | double
deriving DecidableEq

def Quote.char : Quote → Char
  | .single => '\''
  | .double => '"'

def isQuote (c : Char) : Bool := c = '"' || c = '\''

def QuoteFree (s : String) : Prop := ∀ c ∈ s.toList, isQuote c = false

instance (s : String) : Decidable (QuoteFree s) :=
  List.decidableBAll (isQuote · = false) s.toList

/-- Where a reader stands. After a quote, the same quote leads back inside. -/
inductive QuoteState where
  | outside
  | inside (q : Quote)
  | after (q : Quote)
deriving DecidableEq

namespace QuoteState

def opening (c : Char) : QuoteState :=
  if c = '"' then .inside .double else if c = '\'' then .inside .single else .outside

def next : QuoteState → Char → QuoteState
  | outside, c => opening c
  | inside q, c => if c = q.char then after q else inside q
  | after q, c => if c = q.char then inside q else opening c

/-- Whether `c` is outside of quotes, or opens them. -/
def keeps : QuoteState → Char → Bool
  | outside, _ => true
  | inside _, _ => false
  | after q, c => c ≠ q.char

def isClosed : QuoteState → Bool
  | inside _ => false
  | _ => true

variable {σ : QuoteState} {q : Quote} {c : Char}

theorem opening_of_isQuote_eq_false (h : isQuote c = false) : opening c = outside := by
  simp only [isQuote, Bool.or_eq_false_iff, decide_eq_false_iff_not] at h
  rw [opening, if_neg h.1, if_neg h.2]

theorem ne_char_of_isQuote_eq_false (h : isQuote c = false) : c ≠ q.char := by
  rintro rfl
  cases q <;> cases h

theorem next_inside (h : isQuote c = false) : (inside q).next c = inside q :=
  if_neg (ne_char_of_isQuote_eq_false h)

theorem next_of_isClosed (hσ : σ.isClosed) (h : isQuote c = false) : σ.next c = outside := by
  cases σ with
  | outside => exact opening_of_isQuote_eq_false h
  | inside q => cases hσ
  | after q => rw [next, if_neg (ne_char_of_isQuote_eq_false h), opening_of_isQuote_eq_false h]

theorem keeps_of_isClosed (hσ : σ.isClosed) (h : isQuote c = false) : σ.keeps c := by
  cases σ with
  | outside => rfl
  | inside q => cases hσ
  | after q => exact decide_eq_true (ne_char_of_isQuote_eq_false h)

/-- Only from inside of quotes can an end of line lead inside of quotes. -/
theorem isClosed_of_next (hc : isQuote c = false) (h : (σ.next c).isClosed) : σ.isClosed := by
  cases σ with
  | outside => rfl
  | inside q => rwa [next_inside hc] at h
  | after q => rfl

theorem next_of_keeps (h : σ.keeps c) : σ.next c = opening c := by
  cases σ with
  | outside => rfl
  | inside q => cases h
  | after q => exact if_neg (of_decide_eq_true h)

theorem exists_inside_of_not_isClosed (h : ¬ σ.isClosed) : ∃ q, σ = inside q := by
  cases σ with
  | outside => exact absurd rfl h
  | inside q => exact ⟨q, rfl⟩
  | after q => exact absurd rfl h

end QuoteState

/-! ## Masks -/

section

variable {α β : Type} (f : α → Char)

/-- The members of `as` that stand outside of quotes or open them. They are read from `σ` on, each
as the character that `f` gives it. -/
def mask : QuoteState → List α → List α
  | _, [] => []
  | σ, a :: as =>
    if σ.keeps (f a) then a :: mask (σ.next (f a)) as else mask (σ.next (f a)) as

/-- Where a reader stands after `as`. -/
def scan (σ : QuoteState) (as : List α) : QuoteState := as.foldl (fun σ a => σ.next (f a)) σ

variable {f} {σ : QuoteState} {q : Quote} {as bs : List α}

theorem mask_cons_of_keeps {a : α} (h : σ.keeps (f a)) :
    mask f σ (a :: as) = a :: mask f (σ.next (f a)) as := if_pos h

theorem mask_cons_of_not_keeps {a : α} (h : ¬ σ.keeps (f a)) :
    mask f σ (a :: as) = mask f (σ.next (f a)) as := if_neg h

theorem scan_cons (a : α) : scan f σ (a :: as) = scan f (σ.next (f a)) as := rfl

theorem mask_append :
    mask f σ (as ++ bs) = mask f σ as ++ mask f (scan f σ as) bs := by
  induction as generalizing σ with
  | nil => rfl
  | cons a as ih =>
    rw [List.cons_append, mask, mask, ih, scan_cons]
    split <;> rfl

theorem scan_append : scan f σ (as ++ bs) = scan f (scan f σ as) bs := List.foldl_append

theorem mask_map {f : β → Char} (g : α → β) :
    mask f σ (as.map g) = (mask (f ∘ g) σ as).map g := by
  induction as generalizing σ with
  | nil => rfl
  | cons a as ih =>
    rw [List.map_cons, mask, mask, ih, Function.comp_apply]
    split <;> rfl

theorem scan_map {f : β → Char} (g : α → β) :
    scan f σ (as.map g) = scan (f ∘ g) σ as := List.foldl_map

section

variable {a : α}

theorem mask_cons_of_isClosed (hσ : σ.isClosed) (ha : isQuote (f a) = false) :
    mask f σ (a :: as) = a :: mask f .outside as := by
  rw [mask, if_pos (QuoteState.keeps_of_isClosed hσ ha), QuoteState.next_of_isClosed hσ ha]

theorem scan_cons_of_isClosed (hσ : σ.isClosed) (ha : isQuote (f a) = false) :
    scan f σ (a :: as) = scan f .outside as := by
  rw [scan_cons, QuoteState.next_of_isClosed hσ ha]

theorem mask_cons_inside (ha : isQuote (f a) = false) :
    mask f (.inside q) (a :: as) = mask f (.inside q) as := by
  rw [mask, QuoteState.next_inside ha]
  rfl

theorem scan_cons_inside (ha : isQuote (f a) = false) :
    scan f (.inside q) (a :: as) = scan f (.inside q) as := by
  rw [scan_cons, QuoteState.next_inside ha]

end

/-- Outside of quotes all is kept that has no quotes. -/
theorem mask_eq_self (hσ : σ.isClosed) (h : ∀ a ∈ as, isQuote (f a) = false) :
    mask f σ as = as := by
  induction as generalizing σ with
  | nil => rfl
  | cons a as ih =>
    obtain ⟨ha, has⟩ := List.forall_mem_cons.1 h
    rw [mask_cons_of_isClosed hσ ha, ih rfl has]

theorem scan_outside (h : ∀ a ∈ as, isQuote (f a) = false) :
    scan f .outside as = .outside := by
  induction as with
  | nil => rfl
  | cons a as ih =>
    obtain ⟨ha, has⟩ := List.forall_mem_cons.1 h
    rw [scan_cons_of_isClosed rfl ha, ih has]

theorem scan_of_isClosed (hσ : σ.isClosed) (h : ∀ a ∈ as, isQuote (f a) = false)
    (hne : as ≠ []) : scan f σ as = .outside := by
  obtain ⟨a, as, rfl⟩ := List.exists_cons_of_ne_nil hne
  obtain ⟨ha, has⟩ := List.forall_mem_cons.1 h
  rw [scan_cons_of_isClosed hσ ha, scan_outside has]

theorem isClosed_scan (hσ : σ.isClosed) (h : ∀ a ∈ as, isQuote (f a) = false) :
    (scan f σ as).isClosed := by
  by_cases hne : as = []
  · rwa [hne]
  · rw [scan_of_isClosed hσ h hne]
    rfl

/-- Inside of quotes nothing is kept that has no quotes. -/
theorem mask_inside (h : ∀ a ∈ as, isQuote (f a) = false) :
    mask f (.inside q) as = [] := by
  induction as with
  | nil => rfl
  | cons a as ih =>
    obtain ⟨ha, has⟩ := List.forall_mem_cons.1 h
    rw [mask_cons_inside ha, ih has]

theorem scan_inside (h : ∀ a ∈ as, isQuote (f a) = false) :
    scan f (.inside q) as = .inside q := by
  induction as with
  | nil => rfl
  | cons a as ih =>
    obtain ⟨ha, has⟩ := List.forall_mem_cons.1 h
    rw [scan_cons_inside ha, ih has]

end

/-- The text with the opening quote in place of each quoted identifier and each quoted literal. -/
def masked (s : String) : String := String.ofList (mask id .outside s.toList)

/-! ## Quoted text -/

section

variable {q : Quote}

theorem mask_double (cs : List Char) :
    mask id (.inside q) (double q.char cs) = [] ∧
      scan id (.inside q) (double q.char cs) = .inside q := by
  induction cs with
  | nil => exact ⟨rfl, rfl⟩
  | cons c cs ih =>
    have hpiece : mask id (.inside q) (if c = q.char then [q.char, q.char] else [c]) = [] ∧
        scan id (.inside q) (if c = q.char then [q.char, q.char] else [c]) = .inside q := by
      split
      · cases q <;> exact ⟨rfl, rfl⟩
      · next hc => exact ⟨rfl, if_neg hc⟩
    rw [double, List.flatMap_cons, mask_append, scan_append, hpiece.1, hpiece.2]
    exact ih

/-- A quoted text is masked by its opening quote, whatever the text is. -/
theorem mask_quoted (q : Quote) (s : String) :
    mask id .outside (quoted q.char s).toList = [q.char] ∧
      scan id .outside (quoted q.char s).toList = .after q := by
  obtain ⟨hmask, hscan⟩ := mask_double (q := q) s.toList
  have hopen : mask id .outside [q.char] = [q.char] ∧
      scan id .outside [q.char] = .inside q := by
    cases q <;> exact ⟨rfl, rfl⟩
  have hclose : mask id (.inside q) [q.char] = [] ∧ scan id (.inside q) [q.char] = .after q :=
    ⟨rfl, if_pos rfl⟩
  rw [quoted, String.toList_ofList, ← List.singleton_append, List.append_assoc, mask_append,
    scan_append, hopen.1, hopen.2, mask_append, scan_append, hmask, hscan, hclose.1, hclose.2]
  exact ⟨rfl, rfl⟩

example : masked "a \"b\"\"(\" 'c''' d" = "a \" ' d" := by decide

end

/-! ## Texts that differ inside of quotes -/

section

variable {s s' u : String}

@[simp]
theorem quoteFree_append : QuoteFree (s ++ u) ↔ QuoteFree s ∧ QuoteFree u := by
  simp [QuoteFree, or_imp, forall_and]

/-- What holds of all characters of some texts and of the text between them holds of all characters
of the joined text. -/
theorem forall_mem_intercalate {p : Char → Prop} {sep : String} (hsep : ∀ c ∈ sep.toList, p c)
    {ss : List String} (h : ∀ s ∈ ss, ∀ c ∈ s.toList, p c) :
    ∀ c ∈ (sep.intercalate ss).toList, p c := by
  induction ss with
  | nil => nofun
  | cons s ss ih =>
    obtain ⟨hs, hss⟩ := List.forall_mem_cons.1 h
    cases ss with
    | nil => exact hs
    | cons s' ss =>
      rw [String.intercalate_cons_cons, String.toList_append, String.toList_append]
      exact List.forall_mem_append.2 ⟨List.forall_mem_append.2 ⟨hs, hsep⟩, ih hss⟩

theorem QuoteFree.intercalate {sep : String} (hsep : QuoteFree sep) {ss : List String}
    (h : ∀ s ∈ ss, QuoteFree s) : QuoteFree (sep.intercalate ss) := forall_mem_intercalate hsep h

/-- The text ends outside of quotes. -/
def Closed (s : String) : Prop := (scan id .outside s.toList).isClosed

theorem QuoteFree.closed (h : QuoteFree s) : Closed s := isClosed_scan rfl h

theorem Closed.append (h : Closed s) (hu : QuoteFree u) : Closed (s ++ u) := by
  rw [Closed, String.toList_append, scan_append]
  exact isClosed_scan h hu

theorem Closed.prepend (hu : QuoteFree u) (h : Closed s) : Closed (u ++ s) := by
  rw [Closed, String.toList_append, scan_append, scan_outside (f := id) hu]
  exact h

theorem closed_quoted (q : Quote) (s : String) : Closed (quoted q.char s) := by
  rw [Closed, (mask_quoted q s).2]
  rfl

/-- Closed texts stay closed when they are joined by a text without quotes. -/
theorem Closed.intercalate {sep : String} (hsep : QuoteFree sep) (hne : sep ≠ "")
    {ss : List String} (h : ∀ s ∈ ss, Closed s) : Closed (sep.intercalate ss) := by
  induction ss with
  | nil => exact rfl
  | cons s ss ih =>
    obtain ⟨hs, hss⟩ := List.forall_mem_cons.1 h
    cases ss with
    | nil => exact hs
    | cons s' ss =>
      have hsep : scan id (scan id .outside s.toList) sep.toList = .outside :=
        scan_of_isClosed hs hsep fun hnil => hne (String.toList_eq_nil_iff.1 hnil)
      rw [String.intercalate_cons_cons, Closed, String.toList_append, String.toList_append,
        scan_append, scan_append, hsep]
      exact ih hss

/-- The two texts differ at most inside of quotes, and end outside. -/
structure SameText (s s' : String) : Prop where
  masked_eq : masked s = masked s'
  closed : Closed s
  closed' : Closed s'

namespace SameText

theorem refl (h : Closed s) : SameText s s := ⟨rfl, h, h⟩

theorem mask_eq (h : SameText s s') : mask id .outside s.toList = mask id .outside s'.toList :=
  String.ofList_injective h.masked_eq

theorem append (h : SameText s s') (hu : QuoteFree u) : SameText (s ++ u) (s' ++ u) where
  masked_eq := by
    rw [masked, masked, String.toList_append, String.toList_append, mask_append, mask_append,
      h.mask_eq, mask_eq_self (f := id) h.closed hu, mask_eq_self (f := id) h.closed' hu]
  closed := h.closed.append hu
  closed' := h.closed'.append hu

theorem prepend (hu : QuoteFree u) (h : SameText s s') : SameText (u ++ s) (u ++ s') where
  masked_eq := by
    rw [masked, masked, String.toList_append, String.toList_append, mask_append, mask_append,
      scan_outside (f := id) hu, h.mask_eq]
  closed := h.closed.prepend hu
  closed' := h.closed'.prepend hu

theorem quoted (q : Quote) (s s' : String) :
    SameText (quoted q.char s) (Text.quoted q.char s') where
  masked_eq := by rw [masked, masked, (mask_quoted q s).1, (mask_quoted q s').1]
  closed := closed_quoted q s
  closed' := closed_quoted q s'

end SameText

end

end XmlPublishing.Text

import Mathlib.Data.List.Nodup
import XmlPublishing.Json.Record
import XmlPublishing.Proofs.FreshName
import XmlPublishing.Proofs.Json.Grammar
import XmlPublishing.Proofs.Sequence

/-!
Typed data as JSON values.

For each kind of data there is a relation between the data and the values that stand for it, which
leaves a writer its choices: characters or `\u` escapes, the order of members, members of other
names, members that may be left out. Whatever is chosen reads back as the data, and some choice
always has a spelling in the grammar of documents (`HasSpelling`).
-/

namespace XmlPublishing

/-! ## Texts -/

namespace Literal

/-- The characters that the units of a string stand for. A `\u` escape gives the character of that
code, and characters beyond the codes of 16 bits take a pair of escapes. -/
inductive Writes : Literal → List Char → Prop where
  | nil : Writes [] []
  | char {l : Literal} {cs : List Char} (c : Char) (h : Writes l cs) :
      Writes (.char c :: l) (c :: cs)
  | code {l : Literal} {cs : List Char} (c : Char) (hc : c.toNat < 0x10000) (h : Writes l cs) :
      Writes (.code c.toNat :: l) (c :: cs)
  | pair {l : Literal} {cs : List Char} (c : Char) (hc : 0x10000 ≤ c.toNat) (h : Writes l cs) :
      Writes (.code (0xD800 + (c.toNat - 0x10000) / 0x400) ::
        .code (0xDC00 + (c.toNat - 0x10000) % 0x400) :: l) (c :: cs)

theorem decodeAfter?_code {u : Nat} (hhigh : isHighSurrogate u = false)
    (hlow : isLowSurrogate u = false) (done : List Char) (l : Literal) :
    decodeAfter? done (.code u :: l) = decodeAfter? (Char.ofNat u :: done) l := by
  cases l with
  | nil => simp [decodeAfter?, hhigh, hlow]
  | cons next l => cases next <;> simp [decodeAfter?, hhigh, hlow]

theorem decodeAfter?_of_writes {l : Literal} {cs : List Char} (h : l.Writes cs)
    (done : List Char) : decodeAfter? done l = some (String.ofList (done.reverse ++ cs)) := by
  induction h generalizing done with
  | nil => rw [decodeAfter?, List.append_nil]
  | char c _ ih => rw [decodeAfter?, ih, List.reverse_cons, ← List.append_cons]
  | code c hc _ ih =>
    -- no character has the code of a surrogate
    have hvalid : c.toNat < 0xD800 ∨ 0xDFFF < c.toNat ∧ c.toNat < 0x110000 := c.valid
    have hhigh : isHighSurrogate c.toNat = false := by simp [isHighSurrogate]; omega
    have hlow : isLowSurrogate c.toNat = false := by simp [isLowSurrogate]; omega
    rw [decodeAfter?_code hhigh hlow, Char.ofNat_toNat, ih, List.reverse_cons, ← List.append_cons]
  | pair c hc _ ih =>
    have hvalid : c.toNat < 0xD800 ∨ 0xDFFF < c.toNat ∧ c.toNat < 0x110000 := c.valid
    have hhigh : isHighSurrogate (0xD800 + (c.toNat - 0x10000) / 0x400) = true := by
      simp [isHighSurrogate]; omega
    have hlow : isLowSurrogate (0xDC00 + (c.toNat - 0x10000) % 0x400) = true := by
      simp [isLowSurrogate]; omega
    have hsum : 0x10000 + (0xD800 + (c.toNat - 0x10000) / 0x400 - 0xD800) * 0x400 +
        (0xDC00 + (c.toNat - 0x10000) % 0x400 - 0xDC00) = c.toNat := by omega
    rw [decodeAfter?, if_pos hhigh, if_pos hlow, joinSurrogates, hsum, Char.ofNat_toNat, ih,
      List.reverse_cons, ← List.append_cons]

theorem decode?_of_writes {l : Literal} {s : String} (h : l.Writes s.toList) :
    l.decode? = some s := by
  rw [decode?, decodeAfter?_of_writes h, List.reverse_nil, List.nil_append, String.ofList_toList]

end Literal

namespace Json

def HasSpelling (j : Json) : Prop := ∃ cs, Spells j cs

variable {α β γ : Type}

/-- Whatever stands for `a`, reading it gives `f a`. -/
def Recovers (read : γ → Option β) (W : α → γ → Prop) (f : α → β) : Prop :=
  ∀ ⦃a c⦄, W a c → read c = some (f a)

/-- Everything has a value that stands for it and can be spelled. -/
def Writable (W : α → Json → Prop) : Prop := ∀ a, ∃ j, W a j ∧ j.HasSpelling

def IsText (s : String) (j : Json) : Prop := ∃ l : Literal, j = .string l ∧ l.Writes s.toList

theorem recovers_string? : Recovers string? IsText id := by
  rintro s _ ⟨l, rfl, hl⟩
  exact Literal.decode?_of_writes hl

theorem recovers_choice? {options : List (String × α)} {word : α → String}
    (hword : ∀ a, options.lookup (word a) = some a) :
    Recovers (choice? options) (fun a => IsText (word a)) id := by
  rintro a _ ⟨l, rfl, hl⟩
  rw [choice?, Literal.decode?_of_writes hl, Option.bind_some, hword, id]

theorem exists_isHexDigit {value : Nat} (h : value < 16) : ∃ c, IsHexDigit c value :=
  ⟨_, .inl (List.getElem?_eq_getElem h)⟩

/-- Every character can be written: a control character as its code, and any other one as itself,
behind a backslash where it needs one. -/
theorem exists_spellsUnit (c : Char) :
    ∃ u cs, SpellsUnit u cs ∧ ∀ l ds, Literal.Writes l ds → Literal.Writes (u :: l) (c :: ds) := by
  by_cases hcontrol : c.toNat < 32
  · obtain ⟨c₁, h₁⟩ := exists_isHexDigit (by omega : 0 < 16)
    obtain ⟨c₂, h₂⟩ := exists_isHexDigit (by omega : c.toNat / 16 < 16)
    obtain ⟨c₃, h₃⟩ := exists_isHexDigit (by omega : c.toNat % 16 < 16)
    have hcode : ((0 * 16 + 0) * 16 + c.toNat / 16) * 16 + c.toNat % 16 = c.toNat := by omega
    have hunit := SpellsUnit.code h₁ h₁ h₂ h₃
    rw [hcode] at hunit
    exact ⟨_, _, hunit, fun _ _ h => .code c (by omega) h⟩
  refine ⟨.char c, ?_⟩
  by_cases hquote : c = '"'
  · have hmem : (c, '"') ∈ shortEscapes := by simp [hquote, shortEscapes]
    exact ⟨_, .short hmem, fun _ _ h => .char c h⟩
  by_cases hbackslash : c = '\\'
  · have hmem : (c, '\\') ∈ shortEscapes := by simp [hbackslash, shortEscapes]
    exact ⟨_, .short hmem, fun _ _ h => .char c h⟩
  · exact ⟨_, .plain hquote hbackslash (by omega), fun _ _ h => .char c h⟩

theorem exists_spellsLiteral (s : List Char) :
    ∃ l cs, Literal.Writes l s ∧ SpellsUnits l cs := by
  induction s with
  | nil => exact ⟨[], [], .nil, .nil⟩
  | cons c s ih =>
    obtain ⟨l, cs, hl, hcs⟩ := ih
    obtain ⟨u, ds, hu, hwrites⟩ := exists_spellsUnit c
    exact ⟨u :: l, ds ++ cs, hwrites l s hl, .cons hu hcs⟩

theorem writable_isText : Writable IsText := by
  intro s
  obtain ⟨l, cs, hl, hcs⟩ := exists_spellsLiteral s.toList
  exact ⟨.string l, ⟨l, rfl, hl⟩, _, .string (.intro hcs)⟩

/-! ## Numbers and truth values -/

def IsBool (b : Bool) (j : Json) : Prop := j = .bool b

theorem recovers_bool? : Recovers bool? IsBool id := by
  rintro b _ rfl
  rfl

theorem writable_isBool : Writable IsBool := by
  intro b
  refine ⟨.bool b, rfl, ?_⟩
  cases b with
  | true => exact ⟨_, .true⟩
  | false => exact ⟨_, .false⟩

/-- Numbers are written in decimal digits. -/
def IsNumeral (n : Nat) (j : Json) : Prop := j = .number (toString n)

theorem nat?_of_isNumeral {n limit : Nat} {j : Json} (h : IsNumeral n j) (hn : n ≤ limit) :
    nat? limit j = some n := by
  have hdigits : (toString n).toList.all Char.isDigit := by
    rw [List.all_eq_true]
    exact fun _ hc => isDigit_of_mem_toString hc
  have hvalue : (toString n).toList.foldl (fun n c => 10 * n + (c.toNat - '0'.toNat)) 0 = n := by
    rw [Nat.toString_eq_ofList_toDigits, String.toList_ofList]
    exact Nat.ofDigitChars_ten_toDigits
  rw [h, nat?, if_pos hdigits, hvalue]
  exact if_pos hn

theorem head?_toDigits_ne {n : Nat} (hn : 0 < n) : (Nat.toDigits 10 n).head? ≠ some '0' := by
  induction n using Nat.strongRecOn with
  | ind n ih =>
    rw [Nat.toDigits_eq_if (by decide)]
    by_cases hlast : n < 10
    · rw [if_pos hlast, List.head?_cons, ne_eq, Option.some.injEq, Nat.digitChar_eq_zero]
      omega
    · rw [if_neg hlast, List.head?_append_of_ne_nil _ Nat.toDigits_ne_nil]
      exact ih (n / 10) (by omega) (by omega)

theorem isWhole_toDigits (n : Nat) : IsWhole (Nat.toDigits 10 n) := by
  rcases Nat.eq_zero_or_pos n with rfl | hn
  · exact .zero
  have hdigits : ∀ c ∈ Nat.toDigits 10 n, c.isDigit := fun c hc =>
    Nat.isDigit_of_mem_toDigits (by decide) (by decide) hc
  have hhead := head?_toDigits_ne hn
  cases h : Nat.toDigits 10 n with
  | nil => exact absurd h Nat.toDigits_ne_nil
  | cons c cs =>
    rw [h] at hdigits hhead
    refine .digits (hdigits c (by simp)) ?_ fun d hd => hdigits d (by simp [hd])
    simpa using hhead

theorem writable_isNumeral : Writable IsNumeral := by
  intro n
  refine ⟨.number (toString n), rfl, ?_⟩
  have hnumber : IsNumber ([] ++ (Nat.toDigits 10 n ++ ([] ++ []))) :=
    .intro (by simp) (isWhole_toDigits n) .none .none
  rw [List.append_nil, List.append_nil] at hnumber
  rw [Nat.toString_eq_ofList_toDigits]
  exact ⟨_, .number hnumber⟩

/-! ## Optional values and lists -/

variable {read : Json → Option β} {f : α → β} {W : α → Json → Prop}

/-- A missing value is written as `null`. -/
def IsNullable (W : α → Json → Prop) : Option α → Json → Prop
  | none, j => j = .null
  | some a, j => W a j

theorem recovers_nullable? (h : Recovers read W f) (hnull : read .null = none) :
    Recovers (nullable? read) (IsNullable W) (Option.map f) := by
  intro a j hj
  cases a with
  | none => rw [hj, nullable?, Option.map_none]
  | some a =>
    have hread := h hj
    cases j with
    | null => rw [hnull] at hread; cases hread
    | _ => simp [nullable?, hread]

theorem Writable.nullable (h : Writable W) : Writable (IsNullable W) := by
  intro a
  cases a with
  | none => exact ⟨.null, rfl, _, .null⟩
  | some a => exact h a

def IsList (W : α → Json → Prop) (as : List α) (j : Json) : Prop :=
  ∃ items, j = .array items ∧ List.Forall₂ W as items

theorem recovers_list? (h : Recovers read W f) :
    Recovers (list? read) (IsList W) (List.map f) := by
  rintro as _ ⟨items, rfl, hitems⟩
  exact mapM_eq_some_of_forall₂ hitems h

theorem isBlanks_nil : IsBlanks [] := fun _ hc => nomatch hc

theorem exists_spellsItems {j : Json} {js : List Json} (hj : j.HasSpelling)
    (hjs : ∀ i ∈ js, i.HasSpelling) : ∃ cs, SpellsItems (j :: js) cs := by
  induction js generalizing j with
  | nil =>
    obtain ⟨cs, hcs⟩ := hj
    exact ⟨_, .one (.intro isBlanks_nil hcs isBlanks_nil)⟩
  | cons i js ih =>
    obtain ⟨cs, hcs⟩ := hj
    obtain ⟨ds, hds⟩ := ih (hjs i (by simp)) fun i hi => hjs i (by simp [hi])
    exact ⟨_, .more (.intro isBlanks_nil hcs isBlanks_nil) hds⟩

theorem hasSpelling_array {items : List Json} (h : ∀ i ∈ items, i.HasSpelling) :
    (array items).HasSpelling := by
  cases items with
  | nil => exact ⟨_, .emptyArray isBlanks_nil⟩
  | cons i items =>
    have hitems : ∀ j ∈ items, j.HasSpelling := fun j hj => h j (by simp [hj])
    obtain ⟨cs, hcs⟩ := exists_spellsItems (h i (by simp)) hitems
    exact ⟨_, .array hcs⟩

theorem Writable.list (h : Writable W) : Writable (IsList W) := by
  intro as
  obtain ⟨items, hitems⟩ := exists_forall₂ fun a (_ : a ∈ as) => h a
  have hspelling : ∀ i ∈ items, i.HasSpelling := fun i hi => by
    obtain ⟨a, -, -, hspelling⟩ := forall₂_exists_left hitems hi
    exact hspelling
  exact ⟨.array items, ⟨items, rfl, hitems.imp fun _ _ h => h.1⟩, hasSpelling_array hspelling⟩

/-! ## Records -/

/-- A member that is always written. -/
def IsRequired (W : α → Json → Prop) (a : α) : Option Json → Prop
  | some j => W a j
  | none => False

/-- A member that may be left out where its value is `default`. -/
def IsOptional (default : α) (W : α → Json → Prop) (a : α) : Option Json → Prop
  | some j => W a j
  | none => a = default

theorem recovers_required (h : Recovers read W f) : Recovers (required read) (IsRequired W) f := by
  intro a member hmember
  cases member with
  | none => cases hmember
  | some j => exact h hmember

theorem recovers_optional (h : Recovers read W f) (default : α) :
    Recovers (optional (f default) read) (IsOptional default W) f := by
  intro a member hmember
  cases member with
  | none => rw [optional, show a = default from hmember]
  | some j => exact h hmember

/-- The members that are written, of those that a record may have. -/
def present (fields : List (String × Option Json)) : List (String × Json) :=
  fields.filterMap fun p => p.2.map (p.1, ·)

/-- An object with the given members, some of which may be missing. They stand in any order, among
any others that the record does not know. -/
inductive IsRecord (fields : List (String × Option Json)) : Json → Prop where
  | intro {literals : List (Literal × Json)} {members others : List (String × Json)}
      (hnames : List.Forall₂ (fun m l => l.1.Writes m.1.toList ∧ m.2 = l.2) members literals)
      (hperm : members.Perm (present fields ++ others))
      (hothers : ∀ m ∈ others, m.1 ∉ fields.map (·.1)) : IsRecord fields (.object literals)

variable {fields : List (String × Option Json)} {field : String × Option Json}

theorem name_mem_of_mem_present {m : String × Json} (h : m ∈ present fields) :
    m.1 ∈ fields.map (·.1) := by
  rw [present, List.mem_filterMap] at h
  obtain ⟨p, hp, hm⟩ := h
  obtain ⟨j, -, rfl⟩ := Option.map_eq_some_iff.1 hm
  exact List.mem_map_of_mem hp

theorem filter_name_eq_nil {members : List (String × Json)} {name : String}
    (h : ∀ m ∈ members, m.1 ≠ name) : members.filter (·.1 == name) = [] := by
  rw [List.filter_eq_nil_iff]
  exact fun m hm hname => h m hm (beq_iff_eq.1 hname)

theorem filter_present (hnodup : (fields.map (·.1)).Nodup) (hfield : field ∈ fields) :
    (present fields).filter (·.1 == field.1) = (field.2.map (field.1, ·)).toList := by
  induction fields with
  | nil => cases hfield
  | cons p fields ih =>
    rw [List.map_cons, List.nodup_cons] at hnodup
    obtain ⟨hp, hnodup⟩ := hnodup
    have hcons : present (p :: fields) = (p.2.map (p.1, ·)).toList ++ present fields := by
      rw [present, List.filterMap_cons]
      cases p.2 <;> rfl
    rw [hcons, List.filter_append]
    rcases List.mem_cons.1 hfield with rfl | hfield
    · have hrest : ∀ m ∈ present fields, m.1 ≠ field.1 := fun m hm hname =>
        hp (hname ▸ name_mem_of_mem_present hm)
      rw [filter_name_eq_nil hrest, List.append_nil]
      cases field.2 <;> simp
    · have hhead : ∀ m ∈ (p.2.map (p.1, ·)).toList, m.1 ≠ field.1 := by
        intro m hm hname
        obtain ⟨j, -, rfl⟩ := Option.map_eq_some_iff.1 (Option.mem_toList.1 hm)
        exact hp (hname ▸ List.mem_map_of_mem hfield)
      rw [filter_name_eq_nil hhead, List.nil_append, ih hnodup hfield]

theorem member?_of_perm {members others : List (String × Json)}
    (hnodup : (fields.map (·.1)).Nodup) (hperm : members.Perm (present fields ++ others))
    (hothers : ∀ m ∈ others, m.1 ∉ fields.map (·.1)) (hfield : field ∈ fields) :
    member? members field.1 = some field.2 := by
  have hnone : ∀ m ∈ others, m.1 ≠ field.1 := fun m hm hname =>
    hothers m hm (hname ▸ List.mem_map_of_mem hfield)
  have hfilter := hperm.filter (·.1 == field.1)
  rw [List.filter_append, filter_name_eq_nil hnone, List.append_nil,
    filter_present hnodup hfield] at hfilter
  unfold member?
  cases h : field.2 with
  | none =>
    rw [h, Option.map_none, Option.toList_none, List.perm_nil] at hfilter
    rw [hfilter]
  | some j =>
    rw [h, Option.map_some, Option.toList_some, List.perm_singleton] at hfilter
    rw [hfilter]

theorem members?_of_isRecord {j : Json} (hnodup : (fields.map (·.1)).Nodup)
    (h : IsRecord fields j) : members? (fields.map (·.1)) j = some (fields.map (·.2)) := by
  obtain @⟨literals, members, others, hnames, hperm, hothers⟩ := h
  have hdecode : literals.mapM (fun l => l.1.decode?.map fun name => (name, l.2)) =
      some (members.map id) := by
    refine mapM_eq_some_of_forall₂ hnames ?_
    rintro m l ⟨hname, hvalue⟩
    rw [Literal.decode?_of_writes hname, ← hvalue]
    rfl
  have hfields : List.Forall₂ (fun field name => field ∈ fields ∧ name = field.1) fields
      (fields.map (·.1)) := by
    rw [List.forall₂_map_right_iff, List.forall₂_same]
    exact fun field hfield => ⟨hfield, rfl⟩
  have hvalues : (fields.map (·.1)).mapM (member? members) = some (fields.map (·.2)) := by
    refine mapM_eq_some_of_forall₂ hfields ?_
    rintro field _ ⟨hfield, rfl⟩
    exact member?_of_perm hnodup hperm hothers hfield
  rw [List.map_id] at hdecode
  simp only [members?, hdecode, Option.bind_eq_bind, Option.bind_some, hvalues]

theorem hasSpelling_object {members : List (Literal × Json)}
    (hnames : ∀ m ∈ members, ∃ cs, SpellsLiteral m.1 cs)
    (hvalues : ∀ m ∈ members, m.2.HasSpelling) : (object members).HasSpelling := by
  cases members with
  | nil => exact ⟨_, .emptyObject isBlanks_nil⟩
  | cons m members =>
    have hmembers : ∃ cs, SpellsMembers (m :: members) cs := by
      induction members generalizing m with
      | nil =>
        obtain ⟨name, hname⟩ := hnames m (by simp)
        obtain ⟨cs, hcs⟩ := hvalues m (by simp)
        exact ⟨_, .one (.intro isBlanks_nil hname isBlanks_nil)
          (.intro isBlanks_nil hcs isBlanks_nil)⟩
      | cons next members ih =>
        obtain ⟨name, hname⟩ := hnames m (by simp)
        obtain ⟨cs, hcs⟩ := hvalues m (by simp)
        obtain ⟨rest, hrest⟩ := ih next (fun l hl => hnames l (List.mem_cons_of_mem _ hl))
          fun l hl => hvalues l (List.mem_cons_of_mem _ hl)
        exact ⟨_, .more (.intro isBlanks_nil hname isBlanks_nil)
          (.intro isBlanks_nil hcs isBlanks_nil) hrest⟩
    obtain ⟨cs, hcs⟩ := hmembers
    exact ⟨_, .object hcs⟩

theorem exists_isRecord (fields : List (String × Option Json))
    (h : ∀ field ∈ fields, ∀ j ∈ field.2, j.HasSpelling) :
    ∃ j, IsRecord fields j ∧ j.HasSpelling := by
  have hpresent : ∀ m ∈ present fields, m.2.HasSpelling := by
    intro m hm
    rw [present, List.mem_filterMap] at hm
    obtain ⟨field, hfield, hm⟩ := hm
    obtain ⟨j, hj, rfl⟩ := Option.map_eq_some_iff.1 hm
    exact h field hfield j hj
  choose literal spelling hliteral hspelling using fun name : String =>
    exists_spellsLiteral name.toList
  refine ⟨.object ((present fields).map fun m => (literal m.1, m.2)), ?_, ?_⟩
  · refine .intro ?_ (.of_eq (List.append_nil _).symm) (by simp)
    rw [List.forall₂_map_right_iff, List.forall₂_same]
    exact fun m _ => ⟨hliteral m.1, rfl⟩
  · apply hasSpelling_object
    · intro l hl
      obtain ⟨m, -, rfl⟩ := List.mem_map.1 hl
      exact ⟨_, .intro (hspelling m.1)⟩
    · intro l hl
      obtain ⟨m, hm, rfl⟩ := List.mem_map.1 hl
      exact hpresent m hm

end Json

end XmlPublishing

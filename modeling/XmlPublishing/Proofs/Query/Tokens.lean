import XmlPublishing.Proofs.Query.MaskedLines
import XmlPublishing.Proofs.Text.Delimited

/-!
Tokens of SQL text.

A reader of SQL finds words, quoted identifiers, literals and parentheses; blanks and commas only
separate them (`read`). In an identifier each pair of quotes stands for one.

Lines are read from their `tape` (`ReadsTape`), and no line may end inside of an identifier, so that
the tokens are the same when the lines are indented (`ReadsTape.indentTape`). A text is cut where a
query is nested into another one, and its lines have the tokens of the text if no identifier in it
has a line feed (`ReadsLines.lines`): otherwise the cut goes through that identifier.
-/

namespace XmlPublishing.SqlXml

open Text

/-- What a text consists of; what a literal says is not read. -/
inductive Token where
  | word (s : String)
  | name (s : String)
  | literal
  | opening
  | closing
deriving DecidableEq

/-- The word with these letters, if there are any. -/
def Token.ofWord (w : List Char) : List Token := if w = [] then [] else [.word (String.ofList w)]

/-- Where a reader stands: outside of quotes, with the letters of the word that it is in, inside of
an identifier or a literal, or just behind a quote that ends it unless the same quote follows. -/
inductive Place where
  | outside (w : List Char)
  | name (x : List Char)
  | nameEnd (x : List Char)
  | literal
  | literalEnd
deriving DecidableEq

/-- Whether `c` separates words and stands for nothing else. -/
def separates (c : Char) : Bool := isBlank c || c = ','

namespace Place

abbrev start : Place := outside []

def stepOutside (w : List Char) (c : Char) : Place × List Token :=
  if c = '"' then (name [], Token.ofWord w)
  else if c = '\'' then (literal, Token.ofWord w)
  else if c = '(' then (start, Token.ofWord w ++ [.opening])
  else if c = ')' then (start, Token.ofWord w ++ [.closing])
  else if separates c then (start, Token.ofWord w)
  else (outside (w ++ [c]), [])

/-- Where a reader stands behind `c`, and the tokens that end there. -/
def step : Place → Char → Place × List Token
  | outside w, c => stepOutside w c
  | name x, c => if c = '"' then (nameEnd x, []) else (name (x ++ [c]), [])
  | nameEnd x, c =>
    if c = '"' then (name (x ++ [c]), [])
    else ((stepOutside [] c).1, .name (String.ofList x) :: (stepOutside [] c).2)
  | literal, c => if c = '\'' then (literalEnd, []) else (literal, [])
  | literalEnd, c =>
    if c = '\'' then (literal, [])
    else ((stepOutside [] c).1, .literal :: (stepOutside [] c).2)

end Place

/-- Where a reader stands behind a text, and the tokens that have ended there. -/
def read (p : Place) : List Char → Place × List Token
  | [] => (p, [])
  | c :: cs =>
    let (q, ts) := p.step c
    let (r, us) := read q cs
    (r, ts ++ us)

/-- The tokens of a text; its end is read like that of a line. -/
def tokens (s : String) : List Token := (read .start (s.toList ++ ['\n'])).2

example : tokens "f(a.b, \"x\"\"(\") as 'it''s'" =
    [.word "f", .opening, .word "a.b", .name "x\"(", .closing, .word "as", .literal] := by
  decide +kernel

section

variable {p p' q : Place} {c : Char} {cs ds w : List Char} {t u : List (Option Char)}
  {ts us : List Token}

theorem read_cons (p : Place) (c : Char) (cs : List Char) :
    read p (c :: cs) =
      ((read (p.step c).1 cs).1, (p.step c).2 ++ (read (p.step c).1 cs).2) := rfl

theorem read_append (p : Place) (cs ds : List Char) :
    read p (cs ++ ds) =
      ((read (read p cs).1 ds).1, (read p cs).2 ++ (read (read p cs).1 ds).2) := by
  induction cs generalizing p with
  | nil => rfl
  | cons c cs ih => rw [List.cons_append, read_cons, read_cons, ih, List.append_assoc]

theorem read_cons_eq :
    read p (c :: cs) = (q, ts) ↔
      ∃ us, read (p.step c).1 cs = (q, us) ∧ ts = (p.step c).2 ++ us := by
  rw [read_cons, Prod.mk.injEq]
  constructor
  · rintro ⟨rfl, rfl⟩
    exact ⟨_, rfl, rfl⟩
  · rintro ⟨us, hread, rfl⟩
    rw [hread]
    exact ⟨rfl, rfl⟩

namespace Place

/-- Inside of an identifier or a literal. -/
def isOpen : Place → Bool
  | name _ => true
  | literal => true
  | _ => false

/-- The token that has not ended yet, but does if none of its own characters follows. -/
def pending : Place → List Token
  | outside w => Token.ofWord w
  | nameEnd x => [.name (String.ofList x)]
  | literalEnd => [.literal]
  | _ => []

theorem ne_of_separates (hc : separates c) {d : Char} (hd : separates d = false) : c ≠ d := by
  rintro rfl
  rw [hd] at hc
  cases hc

theorem stepOutside_of_separates (hc : separates c) (w : List Char) :
    stepOutside w c = (start, Token.ofWord w) := by
  rw [stepOutside, if_neg (ne_of_separates hc rfl), if_neg (ne_of_separates hc rfl),
    if_neg (ne_of_separates hc rfl), if_neg (ne_of_separates hc rfl), if_pos hc]

theorem step_of_separates (hp : p.isOpen = false) (hc : separates c) :
    p.step c = (start, p.pending) := by
  cases p with
  | outside w => exact stepOutside_of_separates hc w
  | name x => cases hp
  | nameEnd x =>
    rw [step, if_neg (ne_of_separates hc rfl), stepOutside_of_separates hc]
    rfl
  | literal => cases hp
  | literalEnd =>
    rw [step, if_neg (ne_of_separates hc rfl), stepOutside_of_separates hc]
    rfl

theorem isOpen_of_step (h : (p.step '\n').1 = start) : p.isOpen = false := by
  cases p with
  | name x => cases h
  | literal => cases h
  | outside w => rfl
  | nameEnd x => rfl
  | literalEnd => rfl

end Place

/-! ## Parts of lines -/

/-- The text has these tokens, and leads from outside of quotes and words back there. -/
def Lexes (cs : List Char) (ts : List Token) : Prop := read .start cs = (.start, ts)

theorem Lexes.append (h : Lexes cs ts) (h' : Lexes ds us) : Lexes (cs ++ ds) (ts ++ us) := by
  rw [Lexes] at h h' ⊢
  rw [read_append, h, h']

theorem read_name_double (x y : List Char) (cs : List Char) :
    read (.name y) (double '"' x ++ cs) = read (.name (y ++ x)) cs := by
  induction x generalizing y with
  | nil => rw [List.append_nil]; rfl
  | cons c x ih =>
    rw [List.append_cons, ← ih]
    by_cases hc : c = '"'
    · subst hc
      rw [double_cons_self]
      rfl
    · have hstep : (Place.name y).step c = (.name (y ++ [c]), []) := if_neg hc
      rw [double_cons_of_ne hc, List.cons_append, read_cons, hstep]
      rfl

theorem read_literal_double (x cs : List Char) :
    read .literal (double '\'' x ++ cs) = read .literal cs := by
  induction x with
  | nil => rfl
  | cons c x ih =>
    rw [← ih]
    by_cases hc : c = '\''
    · subst hc
      rw [double_cons_self]
      rfl
    · have hstep : Place.literal.step c = (.literal, []) := if_neg hc
      rw [double_cons_of_ne hc, List.cons_append, read_cons, hstep]
      rfl

/-- A quoted identifier ends where it was written to end. -/
theorem Lexes.name (x : String) (hc : c ≠ '"') (h : Lexes (c :: cs) ts) :
    Lexes ((identifier x).toList ++ c :: cs) (.name x :: ts) := by
  have hend : (Place.nameEnd x.toList).step c =
      ((Place.start.step c).1, .name x :: (Place.start.step c).2) := by
    rw [← @String.ofList_toList x, String.toList_ofList]
    exact if_neg hc
  obtain ⟨us, hread, rfl⟩ := read_cons_eq.1 h
  have hopen : read .start ((identifier x).toList ++ c :: cs) =
      read (.name []) (double '"' x.toList ++ '"' :: c :: cs) := by
    rw [identifier, quoted, String.toList_ofList, List.append_assoc]
    rfl
  rw [Lexes, hopen, read_name_double, List.nil_append, read_cons_eq]
  refine ⟨_, ?_, rfl⟩
  rw [show ((Place.name x.toList).step '"').1 = .nameEnd x.toList from rfl, read_cons_eq, hend]
  exact ⟨us, hread, rfl⟩

theorem Lexes.literal (x : String) (hc : c ≠ '\'') (h : Lexes (c :: cs) ts) :
    Lexes ((quoted '\'' x).toList ++ c :: cs) (.literal :: ts) := by
  have hend : Place.literalEnd.step c =
      ((Place.start.step c).1, .literal :: (Place.start.step c).2) := if_neg hc
  obtain ⟨us, hread, rfl⟩ := read_cons_eq.1 h
  have hopen : read .start ((quoted '\'' x).toList ++ c :: cs) =
      read .literal (double '\'' x.toList ++ '\'' :: c :: cs) := by
    rw [quoted, String.toList_ofList, List.append_assoc]
    rfl
  rw [Lexes, hopen, read_literal_double, read_cons_eq]
  refine ⟨_, ?_, rfl⟩
  rw [show (Place.literal.step '\'').1 = .literalEnd from rfl, read_cons_eq, hend]
  exact ⟨us, hread, rfl⟩

/-- The characters that end words and are not blanks or commas. -/
def marks : List Char := ['"', '\'', '(', ')']

/-- A text that consists of words. -/
def Plain (s : String) : Prop := ∀ c ∈ s.toList, c ∉ marks

instance (s : String) : Decidable (Plain s) := List.decidableBAll (· ∉ marks) s.toList

@[simp]
theorem plain_append {s s' : String} : Plain (s ++ s') ↔ Plain s ∧ Plain s' := by
  rw [Plain, String.toList_append, List.forall_mem_append]
  rfl

/-- Whether a word ends where `c` follows, which begins nothing that needs an end. -/
def delimits (c : Char) : Bool := separates c || c = '(' || c = ')'

theorem Token.exists_ofWord (w : List Char) : ∃ ws : List String, ofWord w = ws.map .word := by
  rw [ofWord]
  split
  · exact ⟨[], rfl⟩
  · exact ⟨[String.ofList w], rfl⟩

theorem Place.stepOutside_of_delimits (hc : delimits c) (w : List Char) :
    stepOutside w c = ((start.step c).1, Token.ofWord w ++ (start.step c).2) := by
  rw [delimits, Bool.or_eq_true, Bool.or_eq_true] at hc
  rcases hc with (hc | hc) | hc
  · rw [step, stepOutside_of_separates hc, stepOutside_of_separates hc]
    exact Prod.ext rfl (List.append_nil _).symm
  · rw [of_decide_eq_true hc]
    rfl
  · rw [of_decide_eq_true hc]
    rfl

theorem Place.stepOutside_of_notMem_marks (hc : c ∉ marks) (w : List Char) :
    stepOutside w c =
      if separates c then (start, Token.ofWord w) else (outside (w ++ [c]), []) := by
  have hne (d : Char) (hd : d ∈ marks) : c ≠ d := fun heq => hc (heq ▸ hd)
  rw [stepOutside, if_neg (hne _ (by decide)), if_neg (hne _ (by decide)),
    if_neg (hne _ (by decide)), if_neg (hne _ (by decide))]

theorem read_outside_plain (hc : delimits c) (h : Lexes (c :: cs) ts) {as : List Char}
    (has : ∀ d ∈ as, d ∉ marks) (w : List Char) :
    ∃ ws : List String, read (.outside w) (as ++ c :: cs) = (.start, ws.map .word ++ ts) := by
  induction as generalizing w with
  | nil =>
    obtain ⟨us, hread, rfl⟩ := read_cons_eq.1 h
    obtain ⟨ws, hws⟩ := Token.exists_ofWord w
    have hstep : (Place.outside w).step c =
        ((Place.start.step c).1, Token.ofWord w ++ (Place.start.step c).2) :=
      Place.stepOutside_of_delimits hc w
    refine ⟨ws, read_cons_eq.2 ⟨us, by rw [hstep, hread], ?_⟩⟩
    rw [hstep, hws, List.append_assoc]
  | cons d as ih =>
    obtain ⟨hd, has⟩ := List.forall_mem_cons.1 has
    obtain ⟨ws, hws⟩ := Token.exists_ofWord w
    rw [List.cons_append]
    cases hsep : separates d with
    | true =>
      obtain ⟨ws', hread⟩ := ih has []
      have hstep : (Place.outside w).step d = (.start, Token.ofWord w) :=
        Place.stepOutside_of_separates hsep w
      refine ⟨ws ++ ws', read_cons_eq.2 ⟨_, by rw [hstep, hread], ?_⟩⟩
      rw [hstep, hws, List.map_append, List.append_assoc]
    | false =>
      obtain ⟨ws', hread⟩ := ih has (w ++ [d])
      have hstep : (Place.outside w).step d = (.outside (w ++ [d]), []) := by
        rw [Place.step, Place.stepOutside_of_notMem_marks hd, hsep]
        rfl
      exact ⟨ws', read_cons_eq.2 ⟨_, by rw [hstep, hread], by rw [hstep, List.nil_append]⟩⟩

/-- A text without quotes and parentheses consists of words. -/
theorem Lexes.plain {s : String} (hs : Plain s) (hc : delimits c) (h : Lexes (c :: cs) ts) :
    ∃ ws : List String, Lexes (s.toList ++ c :: cs) (ws.map .word ++ ts) :=
  read_outside_plain hc h hs []

/-- A line without quotes and parentheses. -/
theorem Lexes.line {s : String} (hs : Plain s) :
    ∃ ws : List String, Lexes (s.toList ++ ['\n']) (ws.map .word) := by
  have hfeed : delimits '\n' := by decide
  have hend : Lexes ['\n'] [] := rfl
  obtain ⟨ws, hread⟩ := hend.plain hs hfeed
  exact ⟨ws, by rwa [List.append_nil] at hread⟩

theorem Lexes.prepend {s s' : String} (h : Lexes s.toList ts) (h' : Lexes (s'.toList ++ cs) us) :
    Lexes ((s ++ s').toList ++ cs) (ts ++ us) := by
  rw [String.toList_append, List.append_assoc]
  exact h.append h'

/-! ## Tapes -/

/-- Read from `p` on, the tape has these tokens and leads to `p'`, and no line ends inside of an
identifier. -/
inductive ReadsTape : Place → List (Option Char) → List Token → Place → Prop
  | nil (p : Place) : ReadsTape p [] [] p
  | cons {p p' : Place} {x : Option Char} {t : List (Option Char)} {ts : List Token} :
      (x = none → ∀ y, p ≠ .name y) → ReadsTape (p.step (symbol x)).1 t ts p' →
      ReadsTape p (x :: t) ((p.step (symbol x)).2 ++ ts) p'

namespace ReadsTape

theorem append (h : ReadsTape p t ts p') (h' : ReadsTape p' u us q) :
    ReadsTape p (t ++ u) (ts ++ us) q := by
  induction h with
  | nil p => exact h'
  | cons hx _ ih =>
    rw [List.append_assoc]
    exact .cons hx (ih h')

theorem exists_of_append (h : ReadsTape p (t ++ u) ts q) :
    ∃ p' ts₁ ts₂, ReadsTape p t ts₁ p' ∧ ReadsTape p' u ts₂ q ∧ ts = ts₁ ++ ts₂ := by
  induction t generalizing p ts with
  | nil => exact ⟨p, [], ts, .nil p, h, rfl⟩
  | cons x t ih =>
    cases h with
    | cons hx h =>
      obtain ⟨p', ts₁, ts₂, ht, hu, rfl⟩ := ih h
      exact ⟨p', _, ts₂, .cons hx ht, hu, (List.append_assoc ..).symm⟩

theorem read_eq (h : ReadsTape p t ts p') : read p (t.map symbol) = (p', ts) := by
  induction h with
  | nil p => rfl
  | cons _ _ ih => rw [List.map_cons, read_cons, ih]

/-- Characters that do not end a line. -/
theorem chars (p : Place) (cs : List Char) :
    ReadsTape p (cs.map some) (read p cs).2 (read p cs).1 := by
  induction cs generalizing p with
  | nil => exact .nil p
  | cons c cs ih => exact .cons nofun (ih _)

theorem ended (h : read p (cs ++ ['\n']) = (.start, ts)) :
    ReadsTape p (cs.map some ++ [none]) ts .start := by
  rw [read_append, Prod.mk.injEq] at h
  obtain ⟨hplace, rfl⟩ := h
  have hopen := Place.isOpen_of_step hplace
  refine (chars p cs).append ?_
  have hend : ReadsTape (read p cs).1 [none] (((read p cs).1.step '\n').2 ++ [])
      ((read p cs).1.step '\n').1 := by
    refine .cons (fun _ y hy => ?_) (.nil _)
    rw [hy] at hopen
    cases hopen
  rwa [show ((read p cs).1.step '\n').1 = .start from hplace] at hend

end ReadsTape

/-! ## Indentation -/

/-- Whether a line can start here: outside of quotes, or inside of a literal. -/
def Place.StartsLine (p : Place) : Prop := p = .start ∨ p = .literal

theorem startsLine_step (hp : ∀ x, p ≠ .name x) : (p.step '\n').1.StartsLine := by
  cases p with
  | name x => exact absurd rfl (hp x)
  | literal => exact .inr rfl
  | outside w => exact .inl rfl
  | nameEnd x => exact .inl rfl
  | literalEnd => exact .inl rfl

/-- Blanks at the start of a line are not read. -/
theorem reads_blanks (hp : p.StartsLine) {unit : List Char} (hunit : ∀ c ∈ unit, c = ' ') :
    ReadsTape p (unit.map some) [] p := by
  have hstep : p.step ' ' = (p, []) := by
    rcases hp with rfl | rfl <;> rfl
  induction unit with
  | nil => exact .nil p
  | cons c unit ih =>
    obtain ⟨rfl, hrest⟩ := List.forall_mem_cons.1 hunit
    have hcons : ReadsTape p (some ' ' :: unit.map some) ((p.step ' ').2 ++ []) p := by
      refine .cons nofun ?_
      rw [show (p.step (symbol (some ' '))).1 = p from congrArg Prod.fst hstep]
      exact ih hrest
    rwa [hstep] at hcons

theorem ReadsTape.indentTape {unit : List Char} (hunit : ∀ c ∈ unit, c = ' ') {b : Bool}
    (hb : b → p.StartsLine) (h : ReadsTape p t ts p') :
    ReadsTape p (indentTape unit b t) ts p' := by
  induction h generalizing b with
  | nil p => exact .nil p
  | @cons p p' x t ts hx h ih =>
    cases x with
    | none => exact .cons hx (ih fun _ => startsLine_step (hx rfl))
    | some c =>
      have hchar : ReadsTape p (some c :: SqlXml.indentTape unit false t)
          ((p.step (symbol (some c))).2 ++ ts) p' := .cons hx (ih nofun)
      rw [SqlXml.indentTape]
      cases b with
      | false => exact hchar
      | true => exact (reads_blanks (hb rfl) hunit).append hchar

/-! ## Cutting a text into lines -/

/-- What is read inside of an identifier becomes a part of it. -/
theorem exists_name_mem_of_read {x : List Char} (hp : p = .name x ∨ p = .nameEnd x)
    (h : (read p cs).1 = .start) : ∃ y, .name (String.ofList (x ++ y)) ∈ (read p cs).2 := by
  induction cs generalizing p x with
  | nil => rcases hp with rfl | rfl <;> cases h
  | cons c cs ih =>
    have hlonger (hstep : p.step c = (.name (x ++ [c]), [])) :
        ∃ y, .name (String.ofList (x ++ y)) ∈ (read p (c :: cs)).2 := by
      rw [read_cons, hstep] at h ⊢
      obtain ⟨y, hy⟩ := ih (.inl rfl) h
      exact ⟨c :: y, by rwa [← List.append_cons] at hy⟩
    by_cases hc : c = '"'
    · rcases hp with rfl | rfl
      · have hstep : (Place.name x).step c = (.nameEnd x, []) := if_pos hc
        rw [read_cons, hstep] at h ⊢
        exact ih (.inr rfl) h
      · exact hlonger (if_pos hc)
    · rcases hp with rfl | rfl
      · exact hlonger (if_neg hc)
      · refine ⟨[], ?_⟩
        rw [read_cons, Place.step, if_neg hc, List.append_nil]
        exact List.mem_cons_self

/-- A text without line feeds. -/
def OneLine (x : String) : Prop := '\n' ∉ x.toList

instance (x : String) : Decidable (OneLine x) := inferInstanceAs (Decidable ('\n' ∉ x.toList))

theorem ne_name_of_oneLine (h : read p ('\n' :: cs) = (.start, ts))
    (hts : ∀ x, .name x ∈ ts → OneLine x) (x : List Char) : p ≠ .name x := by
  rintro rfl
  have hread : read (.name (x ++ ['\n'])) cs = (.start, ts) := h
  obtain ⟨y, hy⟩ := exists_name_mem_of_read (.inl rfl) (congrArg Prod.fst hread)
  rw [hread] at hy
  refine hts _ hy ?_
  rw [String.toList_ofList]
  exact List.mem_append_left _ (List.mem_append_right _ List.mem_cons_self)

/-- Outside of identifiers a carriage return before a line feed can be left out. -/
theorem read_return (hp : ∀ x, p ≠ .name x) (cs : List Char) :
    read p ('\r' :: '\n' :: cs) = read p ('\n' :: cs) := by
  have hfeed : separates '\n' := by decide
  have hreturn : separates '\r' := by decide
  cases hopen : p.isOpen with
  | false =>
    have hstart : Place.isOpen .start = false := rfl
    rw [read_cons, read_cons, read_cons, Place.step_of_separates hopen hreturn,
      Place.step_of_separates hopen hfeed, Place.step_of_separates hstart hfeed]
    rfl
  | true =>
    cases p with
    | name x => exact absurd rfl (hp x)
    | literal => rfl
    | outside w => cases hopen
    | nameEnd x => cases hopen
    | literalEnd => cases hopen

theorem reads_cutLines {b : Bool} (hb : b → p.StartsLine)
    (h : read p (cs ++ ['\n']) = (.start, ts)) (hts : ∀ x, .name x ∈ ts → OneLine x) :
    ReadsTape p (cutLines b cs) ts .start := by
  induction cs generalizing p b ts with
  | nil =>
    cases b with
    | false => exact .ended h
    | true =>
      rcases hb rfl with rfl | rfl
      · obtain ⟨-, rfl⟩ := Prod.mk.inj h
        exact .nil _
      · cases (Prod.mk.inj h).1
  | cons c cs ih =>
    by_cases hfeed : c = '\n'
    · subst hfeed
      have hp := ne_name_of_oneLine h hts
      obtain ⟨us, hread, rfl⟩ := read_cons_eq.1 h
      rw [cutLines_lineFeed]
      exact .cons (fun _ => hp) (ih (fun _ => startsLine_step hp) hread fun x hx =>
        hts x (List.mem_append_right _ hx))
    by_cases hreturn : c = '\r' ∧ cs.head? = some '\n'
    · obtain ⟨rfl, hhead⟩ := hreturn
      rw [cutLines_return b hhead]
      obtain ⟨ds, rfl⟩ := List.head?_eq_some_iff.1 hhead
      have hp (x : List Char) : p ≠ .name x := by
        rintro rfl
        have hread : read (.name (x ++ ['\r'])) ('\n' :: (ds ++ ['\n'])) = (.start, ts) := h
        exact ne_name_of_oneLine hread hts _ rfl
      refine ih hb ?_ hts
      rwa [List.cons_append, List.cons_append, read_return hp] at h
    · obtain ⟨us, hread, rfl⟩ := read_cons_eq.1 h
      rw [cutLines_char b hfeed hreturn]
      exact .cons nofun (ih nofun hread fun x hx => hts x (List.mem_append_right _ hx))

/-! ## Lines -/

/-- The lines have these tokens, whatever stands around them. -/
def ReadsLines (ls : List String) (ts : List Token) : Prop := ReadsTape .start (tape ls) ts .start

namespace ReadsLines

variable {ls ms : List String} {unit s line : String}

theorem nil : ReadsLines [] [] := ReadsTape.nil .start

theorem append (h : ReadsLines ls ts) (h' : ReadsLines ms us) :
    ReadsLines (ls ++ ms) (ts ++ us) := by
  rw [ReadsLines, tape_append]
  exact ReadsTape.append h h'

theorem singleton (h : Lexes (line.toList ++ ['\n']) ts) :
    ReadsLines [line] ts := by
  rw [ReadsLines, tape_cons]
  exact ReadsTape.ended h

/-- Lines that can be read one by one. -/
theorem flatMap (h : ∀ line ∈ ls, (read .start (line.toList ++ ['\n'])).1 = .start) :
    ReadsLines ls (ls.flatMap tokens) := by
  induction ls with
  | nil => exact nil
  | cons line ls ih =>
    obtain ⟨hline, hls⟩ := List.forall_mem_cons.1 h
    exact (singleton (Prod.ext hline rfl)).append (ih hls)

theorem indented (hunit : ∀ c ∈ unit.toList, c = ' ') (h : ReadsLines ls ts) :
    ReadsLines (indented unit ls) ts := by
  rw [ReadsLines, tape_indented]
  exact ReadsTape.indentTape hunit (fun _ => .inl rfl) h

theorem lexes (h : ReadsLines ls ts) (hne : ls ≠ []) :
    Lexes ((joinLines ls).toList ++ ['\n']) ts := by
  rw [Lexes, ← SameLines.map_symbol_tape hne]
  exact ReadsTape.read_eq h

theorem tokens_eq (h : ReadsLines ls ts) (hne : ls ≠ []) : tokens (joinLines ls) = ts :=
  congrArg Prod.snd (h.lexes hne)

/-- The lines that a text of these lines is cut into. -/
theorem lines (h : ReadsLines ls ts) (hne : ls ≠ []) (hts : ∀ x, .name x ∈ ts → OneLine x) :
    ReadsLines (Text.lines (joinLines ls)) ts := by
  rw [ReadsLines, tape_lines]
  exact reads_cutLines (fun _ => .inl rfl) (h.lexes hne) hts

/-- More text at the end of the last line, after a separator. -/
theorem onLast {u : String} (hu : u.toList = c :: cs) (hc : separates c)
    (hread : Lexes (cs ++ ['\n']) us) (hne : ls ≠ []) (h : ReadsLines ls ts) :
    ReadsLines (onLast (· ++ u) ls) (ts ++ us) := by
  obtain ⟨t, ht, hlast⟩ := SameLines.exists_tape_onLast hne u
  rw [ReadsLines, ht] at h
  obtain ⟨p, ts₁, ts₂, hbefore, hend, rfl⟩ := ReadsTape.exists_of_append h
  rw [ReadsLines, hlast, List.append_assoc]
  have hfeed : separates '\n' := by decide
  obtain ⟨us', hread', rfl⟩ := read_cons_eq.1 hend.read_eq
  obtain ⟨hplace, rfl⟩ := Prod.mk.inj hread'
  have hopen := Place.isOpen_of_step hplace
  rw [List.append_nil, show (p.step (symbol none)).2 = p.pending from
    congrArg Prod.snd (Place.step_of_separates hopen hfeed)]
  refine hbefore.append (.ended ?_)
  rw [hu, List.cons_append, read_cons_eq, Place.step_of_separates hopen hc]
  exact ⟨us, hread, rfl⟩

theorem onFirst (hread : Lexes s.toList us) (h : ReadsLines (line :: ls) ts) :
    ReadsLines (onFirst (s ++ ·) (line :: ls)) (us ++ ts) := by
  have hfirst := ReadsTape.chars .start s.toList
  rw [show read .start s.toList = (.start, us) from hread] at hfirst
  rw [SqlXml.onFirst, ReadsLines, tape_append_cons]
  exact hfirst.append h

end ReadsLines

end

end XmlPublishing.SqlXml

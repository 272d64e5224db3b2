import XmlPublishing.Json.Reader
import XmlPublishing.Proofs.Json.Grammar

/-!
Documents are read as what they spell (`parse?_eq_some`).

A value is read in the same way wherever it stands: whatever is open around it stays open, and its
spelling leads to a reader that holds it (`Reader.Holds`). That says how the reader goes on and not
which mode it is in, since numbers and words do not show their end.
-/

namespace XmlPublishing.Json

/-! ## Numbers -/

namespace NumberPart

variable {p q : NumberPart} {cs : List Char}

/-- How far a number has been read after `cs` more. -/
def after? (p : NumberPart) (cs : List Char) : Option NumberPart := cs.foldlM next? p

theorem after?_cons (p : NumberPart) (c : Char) (cs : List Char) :
    p.after? (c :: cs) = (p.next? c).bind (·.after? cs) := by
  rw [after?, List.foldlM_cons]
  rfl

theorem after?_append_of_eq (h : p.after? cs = some q) (ds : List Char) :
    p.after? (cs ++ ds) = q.after? ds := by
  rw [after?] at h
  rw [after?, List.foldlM_append, h]
  rfl

/-- Digits, of which the first leads from `p` to `q` and the others stay there. -/
theorem after?_digits (hp : ∀ c, c.isDigit → p.next? c = some q)
    (hq : ∀ c, c.isDigit → q.next? c = some q) (h : IsDigits cs) : p.after? cs = some q := by
  obtain ⟨hne, hcs⟩ := h
  obtain ⟨c, cs, rfl⟩ := List.exists_cons_of_ne_nil hne
  rw [after?_cons, hp c (hcs c (by simp)), Option.bind_some]
  replace hcs : ∀ d ∈ cs, d.isDigit := fun d hd => hcs d (by simp [hd])
  clear hne hp
  induction cs with
  | nil => rfl
  | cons d cs ih =>
    rw [after?_cons, hq d (hcs d (by simp)), Option.bind_some]
    exact ih fun e he => hcs e (by simp [he])

theorem after?_whole (h : IsWhole cs) :
    ∃ q, (q = zero ∨ q = whole) ∧ minus.after? cs = some q := by
  cases h with
  | zero => exact ⟨zero, .inl rfl, rfl⟩
  | @digits c cs hc hzero hcs =>
    refine ⟨whole, .inr rfl, ?_⟩
    have hfirst : minus.next? c = some whole := by simp [next?, hzero, hc]
    rw [after?_cons, hfirst, Option.bind_some]
    cases cs with
    | nil => rfl
    | cons d cs =>
      have hwhole : ∀ c, c.isDigit → whole.next? c = some whole := fun c hc => by
        simp [next?, hc]
      exact after?_digits hwhole hwhole ⟨by simp, hcs⟩

theorem after?_fraction (hp : p = zero ∨ p = whole) (h : IsFraction cs) :
    ∃ q, (q = zero ∨ q = whole ∨ q = fraction) ∧ p.after? cs = some q := by
  cases h with
  | none => exact ⟨p, hp.imp_right .inl, rfl⟩
  | some h =>
    refine ⟨fraction, by simp, ?_⟩
    have hpoint : p.next? '.' = some point := by rcases hp with rfl | rfl <;> rfl
    rw [after?_cons, hpoint, Option.bind_some]
    exact after?_digits (fun c hc => by simp [next?, hc]) (fun c hc => by simp [next?, hc]) h

theorem after?_exponent (hp : p = zero ∨ p = whole ∨ p = fraction) (h : IsExponent cs) :
    ∃ q, q.isComplete ∧ p.after? cs = some q := by
  cases h with
  | none => exact ⟨p, by rcases hp with rfl | rfl | rfl <;> rfl, rfl⟩
  | @some first signs cs hfirst hsigns h =>
    refine ⟨exponent, rfl, ?_⟩
    have hmark : p.next? first = some mark := by
      simp only [List.mem_cons, List.not_mem_nil, or_false] at hfirst
      rcases hp with rfl | rfl | rfl <;> rcases hfirst with rfl | rfl <;> rfl
    rw [after?_cons, hmark, Option.bind_some]
    have hexponent : ∀ c, c.isDigit → exponent.next? c = some exponent := fun c hc => by
      simp [next?, hc]
    -- a digit right after the mark is no sign, since signs are no digits
    have hdigit : ∀ c, c.isDigit → mark.next? c = some exponent := fun c hc => by
      have hplus : c ≠ '+' := by rintro rfl; cases hc
      have hminus : c ≠ '-' := by rintro rfl; cases hc
      simp [next?, hc, hplus, hminus]
    simp only [List.mem_cons, List.not_mem_nil, or_false] at hsigns
    rcases hsigns with rfl | rfl | rfl
    · exact after?_digits hdigit hexponent h
    · exact after?_digits (p := sign) (fun c hc => by simp [next?, hc]) hexponent h
    · exact after?_digits (p := sign) (fun c hc => by simp [next?, hc]) hexponent h

/-- What cannot continue a number that may end. -/
theorem next?_eq_none (hp : p.isComplete) {c : Char}
    (hc : c ∈ blankChars ++ [',', ']', '\x7d']) : p.next? c = none := by
  have hother : c.isDigit = false ∧ c ≠ '.' ∧ c ≠ 'e' ∧ c ≠ 'E' := by
    simp only [blankChars, List.cons_append, List.nil_append, List.mem_cons, List.not_mem_nil,
      or_false] at hc
    rcases hc with rfl | rfl | rfl | rfl | rfl | rfl | rfl <;> simp
  obtain ⟨hdigit, hpoint, he, hE⟩ := hother
  cases p with
  | zero | whole | fraction | exponent =>
    simp [next?, next?.tail, next?.exponent, isComplete, hdigit, hpoint, he, hE]
  | minus | point | mark | sign => cases hp

end NumberPart

/-- Whether blanks are skipped here. -/
def Mode.SkipsBlanks : Mode → Prop
  | .value | .firstItem | .key _ | .colon .. | .done _ => True
  | .word .. | .number .. | .string .. => False

namespace Reader

variable {stack : List Frame} {cs : List Char}

theorem run_cons (r : Reader) (c : Char) (cs : List Char) :
    r.run (c :: cs) = (r.step c).bind (·.run cs) := by
  rw [run, List.foldlM_cons]
  rfl

theorem run_cons_of_eq {r r' : Reader} {c : Char} (h : r.step c = some r') (cs : List Char) :
    r.run (c :: cs) = r'.run cs := by
  rw [run_cons, h, Option.bind_some]

theorem run_append_of_eq {r r' : Reader} {a : List Char} (h : r.run a = some r') (b : List Char) :
    r.run (a ++ b) = r'.run b := by
  rw [run_append, h, Option.bind_some]

theorem run_number {p q : NumberPart} (h : p.after? cs = some q) (chars : List Char) :
    run ⟨stack, .number p chars⟩ cs = some ⟨stack, .number q (cs.reverse ++ chars)⟩ := by
  induction cs generalizing p chars with
  | nil =>
    cases h
    rfl
  | cons c cs ih =>
    rw [NumberPart.after?_cons, Option.bind_eq_some_iff] at h
    obtain ⟨p', hp', h⟩ := h
    have hstep : step ⟨stack, .number p chars⟩ c = some ⟨stack, .number p' (c :: chars)⟩ := by
      simp [step, hp']
    rw [run_cons_of_eq hstep, ih h, List.reverse_cons, List.append_assoc]
    rfl

theorem step_value {c : Char} (hc : isBlank c = false) (stack : List Frame) :
    step ⟨stack, .value⟩ c = beginValue stack c := by
  simp [step, hc]

theorem isBlank_of_isDigit {c : Char} (hc : c.isDigit) : isBlank c = false := by
  rw [Bool.eq_false_iff]
  intro h
  simp only [isBlank, Bool.or_eq_true, decide_eq_true_eq] at h
  rcases h with ((rfl | rfl) | rfl) | rfl <;> cases hc

/-- A digit begins a number as if a minus stood before it. -/
theorem step_digit {c : Char} (hc : c.isDigit) :
    step ⟨stack, .value⟩ c =
      (NumberPart.minus.next? c).map fun p => ⟨stack, .number p [c]⟩ := by
  rw [step_value (isBlank_of_isDigit hc)]
  unfold beginValue
  split
  case h_8 => rfl
  case h_9 hzero =>
    rw [if_pos hc, NumberPart.next?, if_neg hzero, if_pos hc]
    rfl
  -- the other cases are about characters that are no digits
  all_goals cases hc

theorem run_isNumber (h : IsNumber cs) :
    ∃ p : NumberPart, p.isComplete ∧
      run ⟨stack, .value⟩ cs = some ⟨stack, .number p cs.reverse⟩ := by
  obtain @⟨sign, whole, fraction, exponent, hsign, hwhole, hfraction, hexponent⟩ := h
  obtain ⟨p₁, hp₁, h₁⟩ := NumberPart.after?_whole hwhole
  obtain ⟨p₂, hp₂, h₂⟩ := NumberPart.after?_fraction hp₁ hfraction
  obtain ⟨p, hp, h₃⟩ := NumberPart.after?_exponent hp₂ hexponent
  have hafter : NumberPart.minus.after? (whole ++ (fraction ++ exponent)) = some p := by
    rw [NumberPart.after?_append_of_eq h₁, NumberPart.after?_append_of_eq h₂, h₃]
  refine ⟨p, hp, ?_⟩
  simp only [List.mem_cons, List.not_mem_nil, or_false] at hsign
  rcases hsign with rfl | rfl
  · obtain ⟨c, ds, hc, rfl⟩ : ∃ c ds, c.isDigit ∧ whole = c :: ds := by
      cases hwhole with
      | zero => exact ⟨_, _, rfl, rfl⟩
      | digits hc => exact ⟨_, _, hc, rfl⟩
    rw [List.cons_append, NumberPart.after?_cons, Option.bind_eq_some_iff] at hafter
    obtain ⟨p₀, hfirst, hafter⟩ := hafter
    rw [List.nil_append, List.cons_append,
      run_cons_of_eq (by rw [step_digit hc, hfirst]; rfl), run_number hafter, List.reverse_cons]
  · have hminus : step ⟨stack, .value⟩ '-' = some ⟨stack, .number .minus ['-']⟩ := rfl
    rw [List.singleton_append, run_cons_of_eq hminus, run_number hafter, List.reverse_cons]

/-! ## Blanks -/

theorem isBlank_of_mem {c : Char} (h : c ∈ blankChars) : isBlank c := by
  simpa [isBlank, blankChars, or_assoc] using h

theorem run_blanks (m : Mode) (hm : m.SkipsBlanks) (h : IsBlanks cs) :
    run ⟨stack, m⟩ cs = some ⟨stack, m⟩ := by
  induction cs with
  | nil => rfl
  | cons c cs ih =>
    have hc := isBlank_of_mem (h c (by simp))
    have hstep : step ⟨stack, m⟩ c = some ⟨stack, m⟩ := by
      cases m with
      | value | firstItem | key | colon | done => simp [step, afterValue, hc]
      | word | number | string => cases hm
    rw [run_cons_of_eq hstep]
    exact ih fun d hd => h d (by simp [hd])

/-! ## Strings -/

theorem hexDigit?_of_isHexDigit {c : Char} {value : Nat} (h : IsHexDigit c value) :
    hexDigit? c = some value := by
  have hlower : ∀ i : Fin 16, hexDigit? "0123456789abcdef".toList[i] = some i.val := by decide
  have hupper : ∀ i : Fin 16, hexDigit? "0123456789ABCDEF".toList[i] = some i.val := by decide
  rcases h with h | h <;> obtain ⟨hvalue, rfl⟩ := List.getElem?_eq_some_iff.1 h
  · exact hlower ⟨value, hvalue⟩
  · exact hupper ⟨value, hvalue⟩

theorem unescape?_of_mem {c letter : Char} (h : (c, letter) ∈ shortEscapes) :
    letter ≠ 'u' ∧ unescape? letter = some c := by
  have hall : ∀ p ∈ shortEscapes, p.2 ≠ 'u' ∧ unescape? p.2 = some p.1 := by decide
  exact hall _ h

theorem run_unit {u : TextUnit} (h : SpellsUnit u cs) (role : StringRole) (units : Literal) :
    run ⟨stack, .string role units .outside⟩ cs =
      some ⟨stack, .string role (u :: units) .outside⟩ := by
  cases h with
  | plain hquote hbackslash hcontrol =>
    have hcontrol := Nat.not_lt.2 hcontrol
    simp [run, step, inString, hquote, hbackslash, hcontrol]
  | short h =>
    obtain ⟨hu, hletter⟩ := unescape?_of_mem h
    simp [run, step, inString, hu, hletter]
  | code h₁ h₂ h₃ h₄ =>
    simp [run, step, inString, hexDigit?_of_isHexDigit h₁, hexDigit?_of_isHexDigit h₂,
      hexDigit?_of_isHexDigit h₃, hexDigit?_of_isHexDigit h₄]

theorem run_units {l : Literal} (h : SpellsUnits l cs) (role : StringRole) (units : Literal) :
    run ⟨stack, .string role units .outside⟩ cs =
      some ⟨stack, .string role (l.reverse ++ units) .outside⟩ := by
  induction h generalizing units with
  | nil => rfl
  | cons hu _ ih =>
    rw [run_append_of_eq (run_unit hu role units), ih, List.reverse_cons, List.append_assoc]
    rfl

/-- After its opening quote, a string is read to its end. -/
theorem run_literal {l : Literal} (h : SpellsLiteral l cs) (role : StringRole)
    (stack : List Frame) :
    ∃ rest, cs = '"' :: rest ∧
      run ⟨stack, .string role [] .outside⟩ rest = some (endString stack l.reverse role) := by
  obtain ⟨h⟩ := h
  refine ⟨_, rfl, ?_⟩
  rw [run_append_of_eq (run_units h role []), List.append_nil]
  rfl

theorem run_key {key : Literal} (h : SpellsKey key cs) (members : List (Literal × Json))
    (rest : List Char) :
    run ⟨stack, .key members⟩ (cs ++ ':' :: rest) =
      run ⟨.object members key :: stack, .value⟩ rest := by
  obtain ⟨hbefore, h, hafter⟩ := h
  obtain ⟨name, rfl, hrun⟩ := run_literal h (.key members) stack
  rw [endString, List.reverse_reverse] at hrun
  rw [List.append_assoc, run_append_of_eq (run_blanks (.key members) trivial hbefore),
    List.append_assoc, List.cons_append, run_cons_of_eq rfl, run_append_of_eq hrun,
    run_append_of_eq (run_blanks (.colon members key) trivial hafter)]
  exact run_cons_of_eq rfl rest

/-! ## Values -/

/-- The reader has all of `v`, with `stack` open around it: it takes a blank, a comma or a closing
bracket as the first thing after `v`, and ends with `v` if nothing is open. -/
structure Holds (r : Reader) (stack : List Frame) (v : Json) : Prop where
  step_eq : ∀ c ∈ blankChars ++ [',', ']', '\x7d'], r.step c = afterValue stack v c
  finish?_eq : stack = [] → r.finish? = some v

variable {v : Json} {r : Reader}

theorem holds_done (stack : List Frame) (v : Json) : Holds ⟨stack, .done v⟩ stack v := by
  refine ⟨fun _ _ => rfl, ?_⟩
  rintro rfl
  rfl

theorem holds_word (stack : List Frame) (v : Json) : Holds ⟨stack, .word [] v⟩ stack v := by
  refine ⟨fun _ _ => rfl, ?_⟩
  rintro rfl
  rfl

theorem holds_number {p : NumberPart} (hp : p.isComplete) (stack : List Frame) (cs : List Char) :
    Holds ⟨stack, .number p cs.reverse⟩ stack (.number (String.ofList cs)) := by
  refine ⟨fun c hc => ?_, ?_⟩
  · simp [step, NumberPart.next?_eq_none hp hc, hp]
  · rintro rfl
    simp [finish?, hp]

theorem Holds.run_blanks (h : r.Holds stack v) (hcs : IsBlanks cs) :
    ∃ r', r.run cs = some r' ∧ r'.Holds stack v := by
  cases cs with
  | nil => exact ⟨r, rfl, h⟩
  | cons c cs =>
    have hc := hcs c (by simp)
    have hstep : r.step c = some ⟨stack, .done v⟩ := by
      rw [h.step_eq c (List.mem_append_left _ hc)]
      simp [afterValue, isBlank_of_mem hc]
    refine ⟨_, ?_, holds_done stack v⟩
    rw [run_cons_of_eq hstep]
    exact Reader.run_blanks (.done v) trivial fun d hd => hcs d (by simp [hd])

theorem Holds.next_item {items : List Json} (h : r.Holds (.array items :: stack) v) :
    r.step ',' = some ⟨.array (v :: items) :: stack, .value⟩ :=
  h.step_eq _ (by simp [blankChars])

theorem Holds.end_array {items : List Json} (h : r.Holds (.array items :: stack) v) :
    r.step ']' = some ⟨stack, .done (.array (v :: items).reverse)⟩ :=
  h.step_eq _ (by simp [blankChars])

variable {members : List (Literal × Json)} {key : Literal}

theorem Holds.next_member (h : r.Holds (.object members key :: stack) v) :
    r.step ',' = some ⟨stack, .key ((key, v) :: members)⟩ :=
  h.step_eq _ (by simp [blankChars])

theorem Holds.end_object (h : r.Holds (.object members key :: stack) v) :
    r.step '\x7d' = some ⟨stack, .done (.object ((key, v) :: members).reverse)⟩ :=
  h.step_eq _ (by simp [blankChars])

theorem run_word (rest : List Char) (v : Json) (stack : List Frame) :
    run ⟨stack, .word rest v⟩ rest = some ⟨stack, .word [] v⟩ := by
  induction rest with
  | nil => rfl
  | cons c rest ih =>
    have hstep : step ⟨stack, .word (c :: rest) v⟩ c = some ⟨stack, .word rest v⟩ := by simp [step]
    rw [run_cons_of_eq hstep, ih]

theorem head_of_spells (h : Spells v cs) :
    ∃ c rest, cs = c :: rest ∧ isBlank c = false ∧ c ≠ ']' := by
  cases h with
  | number h =>
    obtain ⟨hsign, hwhole⟩ := h
    simp only [List.mem_cons, List.not_mem_nil, or_false] at hsign
    rcases hsign with rfl | rfl
    · cases hwhole with
      | zero => exact ⟨_, _, rfl, rfl, by simp⟩
      | @digits c _ hc =>
        refine ⟨c, _, rfl, isBlank_of_isDigit hc, ?_⟩
        rintro rfl
        cases hc
    · exact ⟨_, _, rfl, rfl, by simp⟩
  | string h =>
    obtain ⟨h⟩ := h
    exact ⟨_, _, rfl, rfl, by simp⟩
  | _ => exact ⟨_, _, rfl, rfl, by decide⟩

/-- The first item of an array is read like any other value. -/
theorem run_firstItem (h : SpellsPadded v cs) (rest : List Char) :
    run ⟨stack, .firstItem⟩ (cs ++ rest) = run ⟨.array [] :: stack, .value⟩ (cs ++ rest) := by
  obtain ⟨hbefore, h, -⟩ := h
  obtain ⟨c, ds, rfl, hblank, hbracket⟩ := head_of_spells h
  have hstep : step ⟨stack, .firstItem⟩ c = step ⟨.array [] :: stack, .value⟩ c := by
    simp [step, hblank, hbracket]
  rw [List.append_assoc, run_append_of_eq (run_blanks .firstItem trivial hbefore),
    run_append_of_eq (run_blanks .value trivial hbefore), List.cons_append, List.cons_append,
    run_cons, run_cons, hstep]

mutual
theorem run_spells {v : Json} {cs : List Char} (h : Spells v cs) (stack : List Frame) :
    ∃ r, run ⟨stack, .value⟩ cs = some r ∧ r.Holds stack v :=
  match h with
  | .null => ⟨_, run_word "ull".toList .null stack, holds_word stack _⟩
  | .true => ⟨_, run_word "rue".toList (.bool .true) stack, holds_word stack _⟩
  | .false => ⟨_, run_word "alse".toList (.bool .false) stack, holds_word stack _⟩
  | .number h => by
    obtain ⟨p, hp, hrun⟩ := run_isNumber h
    exact ⟨_, hrun, holds_number hp stack cs⟩
  | .string h => by
    obtain ⟨rest, rfl, hrun⟩ := run_literal h .value stack
    rw [endString, List.reverse_reverse] at hrun
    exact ⟨_, hrun, holds_done stack _⟩
  | .emptyArray hblanks => by
    refine ⟨_, ?_, holds_done stack _⟩
    rw [run_cons_of_eq rfl, run_append_of_eq (run_blanks .firstItem trivial hblanks)]
    rfl
  | .array h => by
    refine ⟨_, ?_, holds_done stack _⟩
    rw [run_cons_of_eq rfl]
    have hitems := run_items h stack []
    cases h with
    | one h => rw [run_firstItem h, hitems]; rfl
    | more h => rw [List.append_assoc, run_firstItem h, ← List.append_assoc, hitems]; rfl
  | .emptyObject hblanks => by
    refine ⟨_, ?_, holds_done stack _⟩
    rw [run_cons_of_eq rfl, run_append_of_eq (run_blanks (.key []) trivial hblanks)]
    rfl
  | .object h => by
    refine ⟨_, ?_, holds_done stack _⟩
    rw [run_cons_of_eq rfl, run_members h stack []]
    rfl
termination_by structural h
theorem run_padded {v : Json} {cs : List Char} (h : SpellsPadded v cs) (stack : List Frame) :
    ∃ r, run ⟨stack, .value⟩ cs = some r ∧ r.Holds stack v :=
  match h with
  | .intro hbefore h hafter => by
    obtain ⟨r, hrun, hr⟩ := run_spells h stack
    obtain ⟨r', hrun', hr'⟩ := hr.run_blanks hafter
    refine ⟨r', ?_, hr'⟩
    rw [run_append_of_eq (run_blanks .value trivial hbefore), run_append_of_eq hrun, hrun']
termination_by structural h
/-- Items, after those of `before`, are read up to the end of their array. -/
theorem run_items {items : List Json} {cs : List Char} (h : SpellsItems items cs)
    (stack : List Frame) (before : List Json) :
    run ⟨.array before :: stack, .value⟩ (cs ++ [']']) =
      some ⟨stack, .done (.array (before.reverse ++ items))⟩ :=
  match h with
  | .one h => by
    obtain ⟨r, hrun, hr⟩ := run_padded h (.array before :: stack)
    rw [run_append_of_eq hrun, run_cons_of_eq hr.end_array, List.reverse_cons]
    rfl
  | .more h hrest => by
    obtain ⟨r, hrun, hr⟩ := run_padded h (.array before :: stack)
    rw [List.append_assoc, run_append_of_eq hrun, List.cons_append, run_cons_of_eq hr.next_item,
      run_items hrest, List.reverse_cons, List.append_assoc]
    rfl
termination_by structural h
/-- Members, after those of `before`, are read up to the end of their object. -/
theorem run_members {members : List (Literal × Json)} {cs : List Char}
    (h : SpellsMembers members cs) (stack : List Frame) (before : List (Literal × Json)) :
    run ⟨stack, .key before⟩ (cs ++ ['\x7d']) =
      some ⟨stack, .done (.object (before.reverse ++ members))⟩ :=
  match h with
  | .one hkey h => by
    obtain ⟨r, hrun, hr⟩ := run_padded h (.object before _ :: stack)
    rw [List.append_assoc, List.cons_append, run_key hkey, run_append_of_eq hrun,
      run_cons_of_eq hr.end_object, List.reverse_cons]
    rfl
  | .more hkey h hrest => by
    obtain ⟨r, hrun, hr⟩ := run_padded h (.object before _ :: stack)
    rw [List.append_assoc, List.cons_append, run_key hkey, List.append_assoc,
      run_append_of_eq hrun, List.cons_append, run_cons_of_eq hr.next_member, run_members hrest,
      List.reverse_cons, List.append_assoc]
    rfl
termination_by structural h
end

end Reader

/-- A document is read as the value that it spells. -/
theorem parse?_eq_some {v : Json} {text : String} (h : SpellsPadded v text.toList) :
    parse? text = some v := by
  obtain ⟨r, hrun, hr⟩ := Reader.run_padded h []
  rw [parse?, Reader.start, hrun, Option.bind_some, hr.finish?_eq rfl]

end XmlPublishing.Json

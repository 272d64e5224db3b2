import XmlPublishing.Proofs.Text.Masking
import XmlPublishing.Text.Split

/-!
Lines with all that is quoted masked.

Cutting a text into lines also cuts inside quotes, so two texts that differ only there may have
different numbers of lines. What they share is `mask` of their `tape`: all characters of all lines,
with an end after each line. Cutting and masking can be exchanged (`cutsAlike`), so the lines of
texts that differ only inside of quotes do so, too (`SameText.lines`).
-/

namespace XmlPublishing.Text

namespace QuoteState

variable {σ : QuoteState} {q : Quote} {c : Char}

/-- Whether a line can start where a reader stands: just behind a quote none does. -/
def CanStart (b : Bool) (σ : QuoteState) : Prop := b = true → ∀ q, σ ≠ after q

theorem canStart_false (σ : QuoteState) : CanStart false σ := nofun

theorem canStart_next {b : Bool} (h : isQuote c = false) : CanStart b (σ.next c) := by
  by_cases hσ : σ.isClosed
  · rw [next_of_isClosed hσ h]
    nofun
  · obtain ⟨q, rfl⟩ := exists_inside_of_not_isClosed hσ
    rw [next_inside h]
    nofun

/-- At a character that is not kept no line starts outside of quotes. -/
theorem CanStart.and_isClosed_of_not_keeps {b : Bool} (hb : CanStart b σ) (h : ¬ σ.keeps c) :
    (b && σ.isClosed) = false := by
  cases σ with
  | outside => exact absurd rfl h
  | inside q => exact Bool.and_false b
  | after q =>
    cases b with
    | false => rfl
    | true => exact absurd rfl (hb rfl q)

end QuoteState

/-! ## Tapes -/

/-- All characters of some lines, with `none` at the end of each line. -/
def tape (lines : List String) : List (Option Char) :=
  lines.flatMap fun line => line.toList.map some ++ [none]

/-- Ends of lines are read as line feeds. -/
def symbol (x : Option Char) : Char := x.getD '\n'

theorem tape_append (lines lines' : List String) :
    tape (lines ++ lines') = tape lines ++ tape lines' := List.flatMap_append

theorem tape_cons (line : String) (lines : List String) :
    tape (line :: lines) = line.toList.map some ++ none :: tape lines := by
  rw [tape, List.flatMap_cons, List.append_assoc]
  rfl

theorem tape_append_cons (s line : String) (lines : List String) :
    tape ((s ++ line) :: lines) = s.toList.map some ++ tape (line :: lines) := by
  rw [tape_cons, tape_cons, String.toList_append, List.map_append, List.append_assoc]

/-- Characters stand for themselves. -/
theorem map_symbol_some (cs : List Char) : (cs.map some).map symbol = cs := by
  rw [List.map_map]
  exact List.map_id cs

/-- The tape of the lines of a text; `b` says whether a line starts here. -/
def cutLines : Bool → List Char → List (Option Char)
  | b, [] => if b then [] else [none]
  | b, c :: cs =>
    if c = '\n' then none :: cutLines true cs
    else if c = '\r' ∧ cs.head? = some '\n' then cutLines b cs
    else some c :: cutLines false cs

theorem cutLines_lineFeed (b : Bool) (cs : List Char) :
    cutLines b ('\n' :: cs) = none :: cutLines true cs := if_pos rfl

theorem cutLines_return (b : Bool) {cs : List Char} (h : cs.head? = some '\n') :
    cutLines b ('\r' :: cs) = cutLines b cs := by
  rw [cutLines, if_neg (by decide), if_pos ⟨rfl, h⟩]

theorem cutLines_char (b : Bool) {c : Char} {cs : List Char} (hc : c ≠ '\n')
    (h : ¬ (c = '\r' ∧ cs.head? = some '\n')) :
    cutLines b (c :: cs) = some c :: cutLines false cs := by
  rw [cutLines, if_neg hc, if_neg h]

/-- The tape of the lines that `lines` makes of the pieces between line feeds. -/
def tapeOfPieces : List (List Char) → List (Option Char)
  | [] => []
  | [piece] => if piece = [] then [] else piece.map some ++ [none]
  | piece :: pieces => (dropReturn piece).map some ++ none :: tapeOfPieces pieces

theorem tape_lines_eq_tapeOfPieces (s : String) :
    tape (lines s) = tapeOfPieces (split (· == '\n') s.toList) := by
  unfold lines
  dsimp only
  generalize split (· == '\n') s.toList = pieces
  induction pieces with
  | nil => rfl
  | cons piece pieces ih =>
    cases pieces with
    | nil =>
      rw [tapeOfPieces]
      cases piece with
      | nil => rfl
      | cons c cs => simp [tape]
    | cons piece' pieces =>
      rw [tapeOfPieces, ← ih, List.dropLast_cons_cons, List.getLast?_cons_cons, List.map_cons,
        List.cons_append, List.map_cons, tape_cons, String.toList_ofList]
      nofun

theorem split_lineFeed (cs : List Char) :
    split (· == '\n') ('\n' :: cs) = [] :: split (· == '\n') cs := split_cons_of_sep rfl cs

theorem split_cons_of_ne {c : Char} (h : c ≠ '\n') {cs piece : List Char}
    {pieces : List (List Char)} (hcs : split (· == '\n') cs = piece :: pieces) :
    split (· == '\n') (c :: cs) = (c :: piece) :: pieces :=
  @split_cons_of_not_sep (· == '\n') c (beq_eq_false_iff_ne.2 h) cs piece pieces hcs

/-- The first piece is empty only when nothing stands before the first line feed. -/
theorem head?_eq_of_split {cs : List Char} {pieces : List (List Char)} (hne : cs ≠ [])
    (h : split (· == '\n') cs = [] :: pieces) : cs.head? = some '\n' := by
  cases cs with
  | nil => exact absurd rfl hne
  | cons c cs =>
    by_cases hc : c = '\n'
    · exact congrArg some hc
    · obtain ⟨piece, rest, hcs⟩ := List.exists_cons_of_ne_nil (split_ne_nil (· == '\n') cs)
      rw [split_cons_of_ne hc hcs] at h
      cases h

theorem dropReturn_cons {c : Char} {cs : List Char} (h : c = '\r' → cs ≠ []) :
    dropReturn (c :: cs) = c :: dropReturn cs := by
  cases cs with
  | nil =>
    have hc : c ≠ '\r' := fun hc => h hc rfl
    simp [dropReturn, hc]
  | cons c' cs =>
    rw [dropReturn, dropReturn, List.getLast?_cons_cons, List.dropLast_cons_cons]
    split <;> rfl

theorem tapeOfPieces_cons {pieces : List (List Char)} (h : pieces ≠ []) (piece : List Char) :
    tapeOfPieces (piece :: pieces) =
      (dropReturn piece).map some ++ none :: tapeOfPieces pieces := by
  cases pieces with
  | nil => exact absurd rfl h
  | cons piece' pieces => rfl

theorem tapeOfPieces_lineFeed (cs : List Char) :
    tapeOfPieces (split (· == '\n') ('\n' :: cs)) =
      none :: tapeOfPieces (split (· == '\n') cs) := by
  rw [split_lineFeed, tapeOfPieces_cons (split_ne_nil _ cs)]
  rfl

theorem tapeOfPieces_return {cs : List Char} (h : cs.head? = some '\n') :
    tapeOfPieces (split (· == '\n') ('\r' :: cs)) = tapeOfPieces (split (· == '\n') cs) := by
  obtain ⟨cs, rfl⟩ := List.head?_eq_some_iff.1 h
  rw [split_cons_of_ne (by decide) (split_lineFeed cs), split_lineFeed,
    tapeOfPieces_cons (split_ne_nil _ cs), tapeOfPieces_cons (split_ne_nil _ cs)]
  rfl

theorem tapeOfPieces_char {c : Char} {cs : List Char} (hc : c ≠ '\n')
    (hreturn : ¬ (c = '\r' ∧ cs.head? = some '\n')) (hne : cs ≠ []) :
    tapeOfPieces (split (· == '\n') (c :: cs)) =
      some c :: tapeOfPieces (split (· == '\n') cs) := by
  obtain ⟨piece, pieces, hcs⟩ := List.exists_cons_of_ne_nil (split_ne_nil (· == '\n') cs)
  have hhead (hnil : piece = []) : cs.head? = some '\n' := head?_eq_of_split hne (hnil ▸ hcs)
  rw [split_cons_of_ne hc hcs, hcs]
  cases pieces with
  | nil =>
    -- an empty piece stands before a line feed, which leaves another piece behind it
    have hpiece : piece ≠ [] := by
      intro hnil
      obtain ⟨cs', rfl⟩ := List.head?_eq_some_iff.1 (hhead hnil)
      rw [split_lineFeed] at hcs
      exact split_ne_nil _ cs' (List.cons.inj hcs).2
    rw [tapeOfPieces, if_neg (List.cons_ne_nil c piece), tapeOfPieces, if_neg hpiece]
    rfl
  | cons piece' pieces =>
    have hpiece (hc' : c = '\r') : piece ≠ [] := fun hnil => hreturn ⟨hc', hhead hnil⟩
    rw [tapeOfPieces_cons (List.cons_ne_nil _ _), tapeOfPieces_cons (List.cons_ne_nil _ _),
      dropReturn_cons hpiece]
    rfl

theorem cutLines_eq_tapeOfPieces (b : Bool) {cs : List Char} (h : cs ≠ []) :
    cutLines b cs = tapeOfPieces (split (· == '\n') cs) := by
  induction cs generalizing b with
  | nil => exact absurd rfl h
  | cons c cs ih =>
    by_cases hfeed : c = '\n'
    · rw [hfeed, cutLines_lineFeed, tapeOfPieces_lineFeed]
      cases cs with
      | nil => rfl
      | cons c' cs => rw [ih true (List.cons_ne_nil c' cs)]
    by_cases hreturn : c = '\r' ∧ cs.head? = some '\n'
    · obtain ⟨rfl, hhead⟩ := hreturn
      have hne : cs ≠ [] := List.ne_nil_of_mem (List.mem_of_mem_head? hhead)
      rw [cutLines_return b hhead, tapeOfPieces_return hhead, ih b hne]
    rw [cutLines_char b hfeed hreturn]
    cases cs with
    | nil =>
      rw [split_cons_of_ne hfeed (split_nil _)]
      rfl
    | cons c' cs =>
      rw [tapeOfPieces_char hfeed hreturn (List.cons_ne_nil c' cs),
        ih false (List.cons_ne_nil c' cs)]

theorem tape_lines (s : String) : tape (lines s) = cutLines true s.toList := by
  rw [tape_lines_eq_tapeOfPieces]
  cases hs : s.toList with
  | nil => rfl
  | cons c cs => rw [cutLines_eq_tapeOfPieces true (List.cons_ne_nil c cs)]

theorem head?_mask_outside (cs : List Char) : (mask id .outside cs).head? = cs.head? := by
  cases cs <;> rfl

/-- Cutting `cs` into lines and masking it can be exchanged where a reader stands at `σ`. Inside of
quotes no line starts for the masked text. -/
structure CutsAlike (b : Bool) (σ : QuoteState) (cs : List Char) : Prop where
  mask_eq : mask symbol σ (cutLines b cs) = cutLines (b && σ.isClosed) (mask id σ cs)
  scan_eq : scan symbol σ (cutLines b cs) = .outside

namespace CutsAlike

variable {b : Bool} {σ : QuoteState} {c : Char} {cs : List Char}

theorem nil (hb : QuoteState.CanStart b σ) (hend : σ.isClosed) : CutsAlike b σ [] := by
  cases σ with
  | outside => cases b <;> exact ⟨rfl, rfl⟩
  | inside q => cases hend
  | after q =>
    obtain rfl : b = false := Bool.eq_false_iff.2 fun h => hb h q rfl
    cases q <;> exact ⟨rfl, rfl⟩

theorem lineFeed (h : CutsAlike true (σ.next '\n') cs) : CutsAlike b σ ('\n' :: cs) := by
  obtain ⟨hmask, hscan⟩ := h
  refine ⟨?_, by rwa [cutLines_lineFeed]⟩
  rw [cutLines_lineFeed]
  by_cases hσ : σ.isClosed
  · rw [QuoteState.next_of_isClosed hσ rfl] at hmask
    rw [mask_cons_of_isClosed hσ rfl, mask_cons_of_isClosed (f := id) hσ rfl,
      cutLines_lineFeed, hmask]
    rfl
  · obtain ⟨q, rfl⟩ := QuoteState.exists_inside_of_not_isClosed hσ
    rw [QuoteState.next_inside rfl] at hmask
    rw [mask_cons_inside rfl, mask_cons_inside (f := id) rfl, hmask, QuoteState.isClosed,
      Bool.and_false, Bool.and_false]

theorem carriageReturn (hhead : cs.head? = some '\n') (h : CutsAlike b (σ.next '\r') cs) :
    CutsAlike b σ ('\r' :: cs) := by
  by_cases hσ : σ.isClosed
  · rw [QuoteState.next_of_isClosed hσ rfl] at h
    have hmask : mask symbol .outside (cutLines b cs) =
        cutLines (b && true) (mask id .outside cs) := h.mask_eq
    have hscan := h.scan_eq
    have hhead' := (head?_mask_outside cs).trans hhead
    -- the line feed leads outside from where the carriage return stands, too
    obtain ⟨cs', rfl⟩ := List.head?_eq_some_iff.1 hhead
    constructor
    · rw [mask_cons_of_isClosed (f := id) hσ rfl, cutLines_return _ hhead,
        cutLines_return _ hhead', hσ, ← hmask, cutLines_lineFeed, mask_cons_of_isClosed hσ rfl,
        mask_cons_of_isClosed rfl rfl]
    · rw [cutLines_lineFeed, scan_cons_of_isClosed rfl rfl] at hscan
      rw [cutLines_return _ hhead, cutLines_lineFeed, scan_cons_of_isClosed hσ rfl, hscan]
  · obtain ⟨q, rfl⟩ := QuoteState.exists_inside_of_not_isClosed hσ
    rw [QuoteState.next_inside rfl] at h
    constructor
    · rw [mask_cons_inside (f := id) rfl, cutLines_return b hhead, h.mask_eq]
    · rw [cutLines_return b hhead, h.scan_eq]

theorem char (hb : QuoteState.CanStart b σ) (hfeed : c ≠ '\n')
    (hreturn : ¬ (c = '\r' ∧ cs.head? = some '\n')) (h : CutsAlike false (σ.next c) cs) :
    CutsAlike b σ (c :: cs) := by
  have hmask : mask symbol (σ.next c) (cutLines false cs) =
      cutLines false (mask id (σ.next c) cs) := h.mask_eq
  refine ⟨?_, by rw [cutLines_char b hfeed hreturn]; exact h.scan_eq⟩
  rw [cutLines_char b hfeed hreturn]
  by_cases hk : σ.keeps c
  · have hcut : ¬ (c = '\r' ∧ (mask id (σ.next c) cs).head? = some '\n') := by
      rintro ⟨rfl, hhead⟩
      rw [QuoteState.next_of_keeps hk] at hhead
      exact hreturn ⟨rfl, (head?_mask_outside cs).symm.trans hhead⟩
    have hcons : mask id σ (c :: cs) = c :: mask id (σ.next c) cs := mask_cons_of_keeps hk
    have hcons' : mask symbol σ (some c :: cutLines false cs) =
        some c :: mask symbol (σ.next c) (cutLines false cs) := mask_cons_of_keeps hk
    rw [hcons, hcons', cutLines_char _ hfeed hcut, hmask]
  · have hcons : mask id σ (c :: cs) = mask id (σ.next c) cs := mask_cons_of_not_keeps hk
    have hcons' : mask symbol σ (some c :: cutLines false cs) =
        mask symbol (σ.next c) (cutLines false cs) := mask_cons_of_not_keeps hk
    rw [hcons, hcons', hb.and_isClosed_of_not_keeps hk, hmask]

end CutsAlike

theorem cutsAlike {b : Bool} {σ : QuoteState} {cs : List Char} (hb : QuoteState.CanStart b σ)
    (hend : (scan id σ cs).isClosed) : CutsAlike b σ cs := by
  induction cs generalizing σ b with
  | nil => exact .nil hb hend
  | cons c cs ih =>
    by_cases hfeed : c = '\n'
    · subst hfeed
      exact .lineFeed (ih (QuoteState.canStart_next rfl) hend)
    by_cases hreturn : c = '\r' ∧ cs.head? = some '\n'
    · obtain ⟨rfl, hhead⟩ := hreturn
      exact .carriageReturn hhead (ih (QuoteState.canStart_next rfl) hend)
    · exact .char hb hfeed hreturn (ih (QuoteState.canStart_false _) hend)

/-! ## Lines that differ inside of quotes -/

/-- The two lists of lines differ at most inside of quotes, also in how many lines there are, and
end outside. -/
structure SameLines (ls ls' : List String) : Prop where
  mask_eq : mask symbol .outside (tape ls) = mask symbol .outside (tape ls')
  closed : scan symbol .outside (tape ls) = .outside
  closed' : scan symbol .outside (tape ls') = .outside

theorem mask_tape_singleton {s : String} (h : Closed s) :
    mask symbol .outside (tape [s]) = (mask id .outside s.toList).map some ++ [none] ∧
      scan symbol .outside (tape [s]) = .outside := by
  have hscan : scan symbol .outside (s.toList.map some) = scan id .outside s.toList := scan_map some
  have hmask : mask symbol .outside (s.toList.map some) = (mask id .outside s.toList).map some :=
    mask_map some
  rw [tape_cons, mask_append, scan_append, hscan, hmask, mask_cons_of_isClosed h rfl,
    scan_cons_of_isClosed h rfl]
  exact ⟨rfl, rfl⟩

/-- The lines of texts that differ only inside of quotes do so, too. -/
theorem SameText.lines {s s' : String} (h : SameText s s') :
    SameLines (lines s) (lines s') := by
  have hstart : QuoteState.CanStart true .outside := nofun
  have hcut := cutsAlike hstart h.closed
  have hcut' := cutsAlike hstart h.closed'
  constructor
  · rw [tape_lines, tape_lines, hcut.mask_eq, hcut'.mask_eq, h.mask_eq]
  · rw [tape_lines, hcut.scan_eq]
  · rw [tape_lines, hcut'.scan_eq]

namespace SameLines

variable {ls ls' ms ms' : List String}

theorem singleton {s s' : String} (h : SameText s s') : SameLines [s] [s'] where
  mask_eq := by
    rw [(mask_tape_singleton h.closed).1, (mask_tape_singleton h.closed').1, h.mask_eq]
  closed := (mask_tape_singleton h.closed).2
  closed' := (mask_tape_singleton h.closed').2

theorem line {s : String} (h : QuoteFree s) : SameLines [s] [s] := singleton (.refl h.closed)

theorem append (h : SameLines ls ls') (hm : SameLines ms ms') :
    SameLines (ls ++ ms) (ls' ++ ms') where
  mask_eq := by
    rw [tape_append, tape_append, mask_append, mask_append, h.closed, h.closed', h.mask_eq,
      hm.mask_eq]
  closed := by rw [tape_append, scan_append, h.closed, hm.closed]
  closed' := by rw [tape_append, scan_append, h.closed', hm.closed']

theorem refl (h : ∀ l ∈ ls, Closed l) : SameLines ls ls := by
  induction ls with
  | nil => exact ⟨rfl, rfl, rfl⟩
  | cons l ls ih =>
    obtain ⟨hl, hls⟩ := List.forall_mem_cons.1 h
    exact (singleton (.refl hl)).append (ih hls)

end SameLines

end XmlPublishing.Text

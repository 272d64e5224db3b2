import XmlPublishing.Proofs.Text.Splitting

/-!
Texts whose lines stand at fixed depths.

A `DeepLine` is a line with the number of units that it stands in; the number of spaces per unit
(the width) is given only when it is written. `writeAll` writes lines as one text, from which its
lines can be read again (`split_writeAll`, `lines_writeAll`).
-/

namespace XmlPublishing.Text

def spaces (n : Nat) : String := String.ofList (List.replicate n ' ')

theorem spaces_add (m n : Nat) : spaces (m + n) = spaces m ++ spaces n := by
  rw [spaces, ← List.replicate_append_replicate, String.ofList_append]
  rfl

@[simp] theorem spaces_zero : spaces 0 = "" := rfl

@[simp] theorem spaces_eq_empty {n : Nat} : spaces n = "" ↔ n = 0 := by
  rw [← String.toList_eq_nil_iff, spaces, String.toList_ofList, List.replicate_eq_nil_iff]

/-- A single line of text that stands `depth` units in. -/
structure DeepLine where
  depth : Nat
  text : String
  single : '\n' ∉ text.toList

namespace DeepLine

def write (width : Nat) (l : DeepLine) : String := spaces (l.depth * width) ++ l.text

theorem single_write (width : Nat) (l : DeepLine) : '\n' ∉ (l.write width).toList := by
  simp [write, spaces, l.single]

def deeper (l : DeepLine) : DeepLine := { l with depth := l.depth + 1 }

theorem write_deeper (width : Nat) (l : DeepLine) :
    l.deeper.write width = spaces width ++ l.write width := by
  rw [write, deeper, Nat.succ_mul, Nat.add_comm, spaces_add, String.append_assoc]
  rfl

/-- The line with more text behind it, which has no line ends. -/
def append (l : DeepLine) (u : String) (hu : '\n' ∉ u.toList) : DeepLine where
  depth := l.depth
  text := l.text ++ u
  single := by simp [l.single, hu]

theorem write_append (width : Nat) (l : DeepLine) (u : String) (hu : '\n' ∉ u.toList) :
    (l.append u hu).write width = l.write width ++ u := by
  rw [write, append, write, String.append_assoc]

/-- The line without a carriage return at its end. -/
def withoutReturn (l : DeepLine) : DeepLine where
  depth := l.depth
  text := String.ofList (dropReturn l.text.toList)
  single := by
    rw [String.toList_ofList, dropReturn]
    split
    · exact fun h => l.single (List.dropLast_subset _ h)
    · exact l.single

theorem write_withoutReturn (width : Nat) (l : DeepLine) :
    (l.withoutReturn.write width).toList = dropReturn (l.write width).toList := by
  have hdrop (k : Nat) (cs : List Char) :
      dropReturn (List.replicate k ' ' ++ cs) = List.replicate k ' ' ++ dropReturn cs := by
    rcases List.eq_nil_or_concat cs with rfl | ⟨cs, c, rfl⟩
    · cases k with
      | zero => rfl
      | succ k => simp [dropReturn, List.getLast?_replicate]
    · rw [List.concat_eq_append, dropReturn, dropReturn, ← List.append_assoc]
      simp only [List.getLast?_concat, List.dropLast_concat]
      split <;> simp
  simp [write, withoutReturn, spaces, hdrop]

end DeepLine

/-! ## Texts of lines -/

/-- The text of some lines. -/
def writeAll (width : Nat) (ls : List DeepLine) : String :=
  "\n".intercalate (ls.map (·.write width))

theorem split_writeAll (width : Nat) {ls : List DeepLine} (h : ls ≠ []) :
    split (· == '\n') (writeAll width ls).toList = ls.map fun l => (l.write width).toList := by
  have hsingle : ∀ piece ∈ ls.map fun l => (l.write width).toList, '\n' ∉ piece := by
    intro piece hpiece
    obtain ⟨l, -, rfl⟩ := List.mem_map.1 hpiece
    exact l.single_write width
  rw [writeAll, String.toList_intercalate, List.map_map]
  exact split_intercalate hsingle (by simpa using h)

theorem splitOn_writeAll (width : Nat) {ls : List DeepLine} (h : ls ≠ []) :
    splitOn '\n' (writeAll width ls) = ls.map (·.write width) := by
  simp [splitOn, split_writeAll width h, Function.comp_def]

/-- The lines that are read from a text whose last line is not indented. -/
theorem lines_writeAll (width : Nat) (ls : List DeepLine) {last : DeepLine}
    (hlast : last.depth = 0) :
    lines (writeAll width (ls ++ [last])) =
      (ls.map (·.withoutReturn) ++ if last.text = "" then [] else [last]).map (·.write width) := by
  have hflat : last.write width = last.text := by simp [DeepLine.write, hlast]
  have hread (l : DeepLine) :
      String.ofList (dropReturn (l.write width).toList) = l.withoutReturn.write width := by
    rw [← DeepLine.write_withoutReturn, String.ofList_toList]
  unfold lines
  rw [split_writeAll width (by simp), List.map_append]
  simp only [List.map_singleton, List.dropLast_concat, List.getLast?_concat, Option.toList_some,
    hflat, List.map_append]
  congr 1
  · simp [hread]
  · by_cases h : last.text = "" <;> simp [h, hflat]

theorem writeAll_cons_cons (width : Nat) (l l' : DeepLine) (ls : List DeepLine) :
    writeAll width (l :: l' :: ls) = l.write width ++ "\n" ++ writeAll width (l' :: ls) :=
  String.intercalate_cons_cons

theorem writeAll_eq_empty {width : Nat} {l : DeepLine} {ls : List DeepLine} :
    writeAll width (l :: ls) = "" ↔ ls = [] ∧ l.depth * width = 0 ∧ l.text = "" := by
  cases ls with
  | nil => simp [writeAll, DeepLine.write]
  | cons l' ls => simp [writeAll_cons_cons]

/-- Every text is one of lines that are not indented. -/
theorem exists_writeAll (s : String) :
    ∃ ls ≠ [], (∀ l ∈ ls, l.depth = 0) ∧ ∀ width, writeAll width ls = s := by
  suffices h : ∀ cs : List Char, ∃ l ls, (∀ l' ∈ l :: ls, DeepLine.depth l' = 0) ∧
      ∀ width, writeAll width (l :: ls) = String.ofList cs by
    obtain ⟨l, ls, hflat, hwrite⟩ := h s.toList
    exact ⟨l :: ls, List.cons_ne_nil l ls, hflat, by simpa using hwrite⟩
  intro cs
  induction cs with
  | nil =>
    refine ⟨⟨0, "", List.not_mem_nil⟩, [], by simp, fun width => ?_⟩
    simp [writeAll, DeepLine.write]
  | cons c cs ih =>
    obtain ⟨l, ls, hflat, hwrite⟩ := ih
    have hl : l.depth = 0 := hflat l List.mem_cons_self
    by_cases hc : c = '\n'
    · refine ⟨⟨0, "", List.not_mem_nil⟩, l :: ls, by simpa using hflat, fun width => ?_⟩
      rw [writeAll_cons_cons, hwrite, hc, ← List.singleton_append, String.ofList_append]
      simp [DeepLine.write]
    · have hsingle : '\n' ∉ (String.ofList (c :: l.text.toList)).toList := by
        simp [l.single, Ne.symm hc]
      let first : DeepLine := ⟨0, String.ofList (c :: l.text.toList), hsingle⟩
      refine ⟨first, ls, List.forall_mem_cons.2 ⟨rfl, (List.forall_mem_cons.1 hflat).2⟩, ?_⟩
      intro width
      have hfirst : first.write width = String.ofList [c] ++ l.write width := by
        simp [DeepLine.write, first, hl]
      rw [writeAll, List.map_cons, hfirst, String.intercalate_cons_append, ← List.map_cons,
        ← writeAll, hwrite, ← String.ofList_append, List.singleton_append]

theorem writeAll_deeper (width : Nat) (l : DeepLine) (ls : List DeepLine) :
    writeAll width (l.deeper :: ls) = spaces width ++ writeAll width (l :: ls) := by
  rw [writeAll, List.map_cons, DeepLine.write_deeper, String.intercalate_cons_append]
  rfl

theorem writeAll_append (width : Nat) (ls : List DeepLine) (l : DeepLine) {u : String}
    (hu : '\n' ∉ u.toList) :
    writeAll width (ls ++ [l.append u hu]) = writeAll width (ls ++ [l]) ++ u := by
  rw [writeAll, writeAll, List.map_append, List.map_append, List.map_singleton, List.map_singleton,
    DeepLine.write_append]
  by_cases hls : ls.map (·.write width) = []
  · simp [hls]
  · rw [String.intercalate_append_of_ne_nil hls (by simp),
      String.intercalate_append_of_ne_nil hls (by simp)]
    simp [String.append_assoc]

theorem writeAll_flatten (width : Nat) {blocks : List (List DeepLine)} (h : [] ∉ blocks) :
    writeAll width blocks.flatten = "\n".intercalate (blocks.map (writeAll width)) := by
  induction blocks with
  | nil => rfl
  | cons block blocks ih =>
    obtain ⟨hblock, hblocks⟩ : [] ≠ block ∧ [] ∉ blocks := by simpa using h
    cases blocks with
    | nil => simp
    | cons block' blocks =>
      have hne : (block' :: blocks).flatten ≠ [] := by
        have hblock' : [] ≠ block' := fun hnil => hblocks (hnil ▸ List.mem_cons_self)
        simp [hblock'.symm]
      rw [List.flatten_cons, writeAll, List.map_append, String.intercalate_append_of_ne_nil
        (by simpa using hblock.symm) (by simpa using hne), List.map_cons, List.map_cons,
        String.intercalate_cons_cons, ← List.map_cons, ← ih hblocks]
      rfl

end XmlPublishing.Text

import Adventure.Proofs.Markup.Renumber
import Adventure.Proofs.Text.Lines

/-!
The lines of an asset that is put together from two texts. Where the first ends its last line and the
second starts with a line that counts, the lines that count are those of the two texts, the second
numbered on from the first (`Line.ofAsset_append`).
-/

namespace Adventure.Markup.Line

/-- Lines, trimmed and numbered on from a first number. -/
def numbered (first : Nat) (ls : List (List Char)) : List Line :=
  (ls.zipIdx first).map fun (line, number) => ⟨number, Text.trim line⟩

theorem numbered_cons (first : Nat) (l : List Char) (ls : List (List Char)) :
    numbered first (l :: ls) = ⟨first, Text.trim l⟩ :: numbered (first + 1) ls := by
  simp [numbered, List.zipIdx_cons]

theorem numbered_append (first : Nat) (xs ys : List (List Char)) :
    numbered first (xs ++ ys) = numbered first xs ++ numbered (first + xs.length) ys := by
  simp [numbered, List.zipIdx_append]

/-- Numbering on from a later number moves all numbers. -/
theorem numbered_add (first n : Nat) (ls : List (List Char)) :
    numbered (first + n) ls = (numbered first ls).map (renumber (· + n)) := by
  induction ls generalizing first with
  | nil => rfl
  | cons l ls ih =>
    rw [numbered_cons, numbered_cons, List.map_cons, ← ih, Nat.add_right_comm]
    rfl

/-- The lines among some that count: no comments, and one of each row of blank lines. -/
def counting (lines : List Line) : List Line :=
  collapse false (lines.filter fun l => !l.startsWith '#')

theorem ofAsset_eq (text : String) :
    ofAsset text = counting (numbered 1 (Text.lines text.toList)) := rfl

/-- A line that is not blank parts the rows of blank lines before and behind it. -/
theorem collapse_append {l : Line} (h : l.isBlank = false) (afterBlank : Bool)
    (lines rest : List Line) :
    collapse afterBlank (lines ++ l :: rest) =
      collapse afterBlank lines ++ l :: collapse false rest := by
  induction lines generalizing afterBlank with
  | nil => simp [collapse, h]
  | cons l' lines ih =>
    rw [List.cons_append, collapse, collapse]
    split
    · exact ih true
    · rw [ih, List.cons_append]

theorem collapse_renumber (f : Nat → Nat) (afterBlank : Bool) (lines : List Line) :
    collapse afterBlank (lines.map (renumber f)) = (collapse afterBlank lines).map (renumber f) := by
  induction lines generalizing afterBlank with
  | nil => rfl
  | cons l lines ih =>
    rw [List.map_cons, collapse, collapse, isBlank_renumber]
    split
    · exact ih true
    · rw [ih, List.map_cons]

/-- A line that is neither a comment nor blank counts, and parts the lines before and behind it. -/
theorem counting_append {l : Line} (hcomment : l.startsWith '#' = false) (hblank : l.isBlank = false)
    (lines rest : List Line) :
    counting (lines ++ l :: rest) = counting lines ++ l :: counting rest := by
  rw [counting, List.filter_append, List.filter_cons_of_pos (by rw [hcomment]; rfl),
    collapse_append hblank]
  rfl

theorem counting_renumber (f : Nat → Nat) (lines : List Line) :
    counting (lines.map (renumber f)) = (counting lines).map (renumber f) := by
  rw [counting, List.filter_map, collapse_renumber]
  rfl

theorem mem_of_mem_collapse {l : Line} {afterBlank : Bool} {lines : List Line}
    (h : l ∈ collapse afterBlank lines) : l ∈ lines := by
  induction lines generalizing afterBlank with
  | nil => cases h
  | cons l' lines ih =>
    rw [collapse] at h
    split at h
    · exact List.mem_cons_of_mem _ (ih h)
    · rcases List.mem_cons.mp h with rfl | h
      · exact List.mem_cons_self
      · exact List.mem_cons_of_mem _ (ih h)

/-- Every line that counts is a line of the asset, trimmed, under its number. -/
theorem exists_of_mem_counting {l : Line} {first : Nat} {ls : List (List Char)}
    (h : l ∈ counting (numbered first ls)) :
    ∃ i raw, l.number = i + first ∧ ls[i]? = some raw ∧ l.text = Text.trim raw := by
  have hmem : l ∈ numbered first ls := (List.mem_filter.mp (mem_of_mem_collapse h)).1
  obtain ⟨⟨raw, number⟩, hraw, rfl⟩ := List.mem_map.mp hmem
  obtain ⟨hfirst, hget⟩ := List.mem_zipIdx_iff_le_and_getElem?_sub.mp hraw
  exact ⟨number - first, raw, (Nat.sub_add_cancel hfirst).symm, hget, rfl⟩

/-- **The lines of two texts.** Where the first text ends its last line and the second starts with a
line that counts, the lines that count are those of both, the second numbered on from the first. -/
theorem ofAsset_append {front back : String} {first : List Char} {others : List (List Char)}
    (hfront : Text.EndsLine front.toList) (hback : Text.lines back.toList = first :: others)
    (hcomment : (Text.trim first).head? ≠ some '#') (hblank : Text.trim first ≠ []) :
    ofAsset (front ++ back) = ofAsset front ++
      (ofAsset back).map (renumber (· + (Text.lines front.toList).length)) := by
  let f := (· + (Text.lines front.toList).length)
  have hstart : (renumber f ⟨1, Text.trim first⟩).startsWith '#' = false := decide_eq_false hcomment
  have hfull : (renumber f ⟨1, Text.trim first⟩).isBlank = false :=
    List.isEmpty_eq_false_iff.mpr hblank
  have hlines : Text.lines (front ++ back).toList =
      Text.lines front.toList ++ first :: others := by
    rw [String.toList_append, Text.lines_append hfront, hback]
  have hone : counting (renumber f ⟨1, Text.trim first⟩ :: (numbered 2 others).map (renumber f)) =
      renumber f ⟨1, Text.trim first⟩ :: counting ((numbered 2 others).map (renumber f)) :=
    counting_append hstart hfull [] _
  rw [ofAsset_eq, ofAsset_eq, ofAsset_eq, hlines, hback, numbered_append, numbered_add,
    ← counting_renumber, numbered_cons, List.map_cons, hone]
  exact counting_append hstart hfull _ _

end Adventure.Markup.Line

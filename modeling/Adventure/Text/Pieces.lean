/-!
Cutting texts into pieces and putting them together again: lines, the parts around a separator, and
the replacement of a word.
-/

namespace Adventure.Text

/-- The lines of a text, without the line feeds that end them. A line feed at the very end starts no
further line. -/
def lines : List Char → List (List Char)
  | [] => []
  | c :: rest =>
    (c :: rest).takeWhile (· ≠ '\n') :: lines (((c :: rest).dropWhile (· ≠ '\n')).drop 1)
termination_by cs => cs.length
decreasing_by
  have h := (List.dropWhile_sublist (· ≠ '\n') (l := c :: rest)).length_le
  simp only [List.length_drop, List.length_cons] at h ⊢
  omega

/-- The parts before and after the first character that passes a test, without it. -/
def splitAt? (test : Char → Bool) (cs : List Char) : Option (List Char × List Char) :=
  match cs.dropWhile fun c => !test c with
  | [] => none
  | _ :: rest => some (cs.takeWhile fun c => !test c, rest)

/-- The parts before and after the last character that passes a test, without it. -/
def splitAtLast? (test : Char → Bool) (cs : List Char) : Option (List Char × List Char) :=
  (splitAt? test cs.reverse).map fun (after, before) => (before.reverse, after.reverse)

/-- What follows `start` in a text that begins with it. -/
def after? : (start cs : List Char) → Option (List Char)
  | [], cs => some cs
  | _ :: _, [] => none
  | s :: start, c :: cs => if s = c then after? start cs else none

theorem length_after? {start cs rest : List Char} (h : after? start cs = some rest) :
    rest.length + start.length = cs.length := by
  fun_induction after? start cs with
  | case1 cs => simp_all
  | case2 => simp at h
  | case3 s start cs ih => simp_all; omega
  | case4 => simp at h

/-- The parts before and after the first place where `mark` stands. -/
def splitAround? (mark : List Char) : List Char → Option (List Char × List Char)
  | [] => if mark = [] then some ([], []) else none
  | c :: rest =>
    match after? mark (c :: rest) with
    | some behind => some ([], behind)
    | none => (splitAround? mark rest).map fun (front, behind) => (c :: front, behind)

theorem length_splitAround? {mark cs front behind : List Char}
    (h : splitAround? mark cs = some (front, behind)) : behind.length ≤ cs.length := by
  induction cs generalizing front with
  | nil =>
    unfold splitAround? at h
    split at h
    · simp only [Option.some.injEq, Prod.mk.injEq] at h
      obtain ⟨-, rfl⟩ := h
      simp
    · simp at h
  | cons c rest ih =>
    unfold splitAround? at h
    split at h
    · rename_i found hfound
      simp only [Option.some.injEq, Prod.mk.injEq] at h
      obtain ⟨-, rfl⟩ := h
      have := length_after? hfound
      omega
    · obtain ⟨⟨f, b⟩, hfb, he⟩ := Option.map_eq_some_iff.mp h
      simp only [Prod.mk.injEq] at he
      obtain ⟨-, rfl⟩ := he
      have := ih hfb
      simp only [List.length_cons]
      omega

/-- A text with every occurrence of `word` replaced, from the left and without overlaps. An empty
word occurs nowhere. -/
def replace (word new : List Char) : List Char → List Char
  | [] => []
  | c :: rest =>
    match _h : after? word (c :: rest) with
    | some behind =>
      if word = [] then c :: replace word new rest else new ++ replace word new behind
    | none => c :: replace word new rest
termination_by cs => cs.length
decreasing_by
  · simp
  · have := length_after? _h
    have := List.length_pos_iff.mpr (by assumption : word ≠ [])
    omega
  · simp

/-- Pieces put together with a separator between them. -/
def join (separator : String) (pieces : List String) : String :=
  separator.intercalate pieces

/-- Pieces with commas between them. -/
def commas (pieces : List String) : String := join ", " pieces

/-- ASCII capitals in lower case, all other characters as they are. -/
def asciiLower (cs : List Char) : List Char := cs.map Char.toLower

/-- A text filled up with spaces on the right to a least width. -/
def padRight (width : Nat) (s : String) : String :=
  s ++ String.ofList (List.replicate (width - s.length) ' ')

/-- A text filled up with spaces on the left to a least width. -/
def padLeft (width : Nat) (s : String) : String :=
  String.ofList (List.replicate (width - s.length) ' ') ++ s

end Adventure.Text

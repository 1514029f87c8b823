import Adventure.Effect
import Adventure.Text.Blank
import Adventure.Text.Decimal

/-!
Effect lines, such as `str+5 dex - 1 money=0 +"Brave" session+"Alarm raised"`.

A line is searched twice from the left, once for stat changes and once for traits, so both kinds may
stand in any order. What lies between two finds is passed over. Each search takes the leftmost find,
goes on behind it, and lets the parts of a find stand apart by ASCII blanks.
-/

namespace Adventure.Effect

/-- A part of an effect line that has no effect. -/
inductive Issue where
  | unknownStat (word : String)
  | unknownTraitScope (scope : String)
  /-- A value that is no score, with the whole find. -/
  | invalidValue (text : String)
deriving DecidableEq, Repr

/-- The sign between a stat and a value. -/
inductive Sign where
  | plus
  | minus
  | equals
deriving DecidableEq, Repr

namespace Sign

/-- The sign that a character is. -/
def ofChar? : Char → Option Sign
  | '+' => some plus
  | '-' => some minus
  | '=' => some equals
  | _ => none

/-- The change of a stat that a sign makes with a value: plus adds it, minus adds its negative, and
the equals sign puts it in place of the stat. -/
def change (s : Sign) (stat : Stat) (value : Score) : StatChange :=
  match s with
  | plus => ⟨stat, value, true⟩
  | minus => ⟨stat, -value, true⟩
  | equals => ⟨stat, value, false⟩

end Sign

/-- A letter of ASCII. -/
def isAsciiLetter (c : Char) : Bool := c.isAlpha

/-- A stat change as it stands in a line: a word, a sign and a value. -/
structure StatFind where
  word : List Char
  sign : Sign
  value : List Char
  /-- Everything from the word to the value. -/
  whole : List Char
deriving DecidableEq, Repr

/-- The stat change that starts at the front of some text, and the text behind it. -/
def statFind? (cs : List Char) : Option (StatFind × List Char) :=
  let word := cs.takeWhile isAsciiLetter
  let behindWord := cs.dropWhile isAsciiLetter
  match behindWord.dropWhile Text.isAsciiBlank with
  | [] => none
  | c :: behindSign =>
    match Sign.ofChar? c with
    | none => none
    | some sign =>
      let number := behindSign.dropWhile Text.isAsciiBlank
      let minus := number.takeWhile (· = '-') |>.take 1
      let digits := (number.drop minus.length).takeWhile Char.isDigit
      let behind := (number.drop minus.length).dropWhile Char.isDigit
      if word = [] ∨ digits = [] then none
      else
        let whole := word ++ behindWord.takeWhile Text.isAsciiBlank ++
          c :: behindSign.takeWhile Text.isAsciiBlank ++ minus ++ digits
        some (⟨word, sign, minus ++ digits, whole⟩, behind)

/-- A trait as it stands in a line: its name, and the word in front of the plus sign. -/
structure TraitFind where
  scope : List Char
  name : List Char
deriving DecidableEq, Repr

/-- The trait that starts at the front of some text, and the text behind it. -/
def traitFind? (cs : List Char) : Option (TraitFind × List Char) :=
  match (cs.dropWhile isAsciiLetter).dropWhile Text.isAsciiBlank with
  | '+' :: behindSign =>
    match behindSign.dropWhile Text.isAsciiBlank with
    | '"' :: quoted =>
      match quoted.dropWhile (· ≠ '"') with
      | _ :: behind => some (⟨cs.takeWhile isAsciiLetter, quoted.takeWhile (· ≠ '"')⟩, behind)
      | [] => none
    | _ => none
  | _ => none

theorem length_statFind? {cs rest : List Char} {f : StatFind} (h : statFind? cs = some (f, rest)) :
    rest.length < cs.length := by
  unfold statFind? at h
  simp only at h
  split at h
  · simp at h
  · rename_i c behindSign hsign
    split at h
    · simp at h
    · split at h
      · simp at h
      · simp only [Option.some.injEq, Prod.mk.injEq] at h
        obtain ⟨-, rfl⟩ := h
        have h₁ := (List.dropWhile_sublist isAsciiLetter (l := cs)).length_le
        have h₂ := (List.dropWhile_sublist Text.isAsciiBlank
          (l := cs.dropWhile isAsciiLetter)).length_le
        have h₃ := (List.dropWhile_sublist Text.isAsciiBlank (l := behindSign)).length_le
        have h₄ := (List.dropWhile_sublist Char.isDigit
          (l := (behindSign.dropWhile Text.isAsciiBlank).drop
            (((behindSign.dropWhile Text.isAsciiBlank).takeWhile (· = '-')).take 1).length)
          ).length_le
        have h₅ := congrArg List.length hsign
        simp only [List.length_drop, List.length_cons] at h₄ h₅
        omega

theorem length_traitFind? {cs rest : List Char} {f : TraitFind}
    (h : traitFind? cs = some (f, rest)) : rest.length < cs.length := by
  unfold traitFind? at h
  split at h
  · rename_i behindSign hsign
    split at h
    · rename_i quoted hquote
      split at h
      · rename_i behind hend
        simp only [Option.some.injEq, Prod.mk.injEq] at h
        obtain ⟨-, rfl⟩ := h
        have h₁ := (List.dropWhile_sublist isAsciiLetter (l := cs)).length_le
        have h₂ := (List.dropWhile_sublist Text.isAsciiBlank
          (l := cs.dropWhile isAsciiLetter)).length_le
        have h₃ := (List.dropWhile_sublist Text.isAsciiBlank (l := behindSign)).length_le
        have h₄ := (List.dropWhile_sublist (· ≠ '"') (l := quoted)).length_le
        have h₅ := congrArg List.length hsign
        have h₆ := congrArg List.length hquote
        have h₇ := congrArg List.length hend
        simp only [List.length_cons] at h₅ h₆ h₇
        omega
      · simp at h
    · simp at h
  · simp at h

/-- All stat changes of a text, from left to right. -/
def statFinds : List Char → List StatFind
  | [] => []
  | c :: rest =>
    match _h : statFind? (c :: rest) with
    | some (find, behind) => find :: statFinds behind
    | none => statFinds rest
termination_by cs => cs.length
decreasing_by
  · exact length_statFind? _h
  · simp

/-- All traits of a text, from left to right. -/
def traitFinds : List Char → List TraitFind
  | [] => []
  | c :: rest =>
    match _h : traitFind? (c :: rest) with
    | some (find, behind) => find :: traitFinds behind
    | none => traitFinds rest
termination_by cs => cs.length
decreasing_by
  · exact length_traitFind? _h
  · simp

/-- What a find of a stat change means: a change, or an issue. The word is looked at before the
value. -/
def StatFind.change (f : StatFind) : Except Issue StatChange :=
  match Stat.ofWord? (String.ofList f.word) with
  | none => .error (.unknownStat (String.ofList f.word))
  | some stat =>
    match (Decimal.read? f.value).bind Score.ofInt? with
    | none => .error (.invalidValue (String.ofList f.whole))
    | some value => .ok (f.sign.change stat value)

/-- Whose trait it is. -/
inductive TraitOwner where
  | character
  | encounter
  | session
deriving DecidableEq, Repr

/-- Whose trait a find brings, or an issue. A trait without a word in front is the characters'
own. -/
def TraitFind.owner (f : TraitFind) : Except Issue TraitOwner :=
  if f.scope = [] then .ok .character
  else
    let word := String.ofList (Text.asciiLower f.scope)
    if word = "encounter" then .ok .encounter
    else if word = "session" then .ok .session
    else .error (.unknownTraitScope word)

/-- The names of the finds whose trait belongs to `owner`. -/
def traitsOf (owner : TraitOwner) (finds : List TraitFind) : List String :=
  finds.filterMap fun f =>
    match f.owner with
    | .ok o => if o = owner then some (String.ofList f.name) else none
    | .error _ => none

/-- The errors among some results. -/
def issuesOf {α : Type} (results : List (Except Issue α)) : List Issue :=
  results.filterMap fun
    | .ok _ => none
    | .error i => some i

/-- The effect of a line, and the parts of it that have none: first those that look like stat
changes, then those that look like traits. -/
def ofLine (line : String) : Effect × List Issue :=
  let changes := (statFinds line.toList).map StatFind.change
  let traits := traitFinds line.toList
  ({ statChanges := changes.filterMap Except.toOption
     characterTraits := traitsOf .character traits
     encounterTraits := traitsOf .encounter traits
     sessionTraits := traitsOf .session traits },
    issuesOf changes ++ issuesOf (traits.map TraitFind.owner))

end Adventure.Effect

import Adventure.Condition.Token.Scan

/-!
Folding words into phrases: a stat, a comparison and a number become one token, and so do `trait`
and the quoted names after it, with the `has` or `has not` in front of it.
-/

namespace Adventure.Condition

namespace Token

/-- The quoted names at the front of some tokens, and the tokens behind them. -/
def takeNames : List Token → List String × List Token
  | quote text :: rest =>
    let (names, behind) := takeNames rest
    (text :: names, behind)
  | ts => ([], ts)

theorem length_takeNames (ts : List Token) : (takeNames ts).2.length ≤ ts.length := by
  fun_induction takeNames ts with
  | case1 text rest names behind h ih =>
    rw [h] at ih
    simp only [List.length_cons] at ih ⊢
    omega
  | case2 => simp

/-- Folds the words of each phrase into one token. All other tokens stay as they are. -/
def foldPhrases : List Token → Except Error (List Token)
  | [] => .ok []
  | stat s :: rest =>
    match rest with
    | comparison c :: number n :: behind => do
      return phrase (.stat ⟨s, c, n⟩) :: (← foldPhrases behind)
    | comparison _ :: behind => .error (.brokenPhrase .number behind.head?)
    | behind => .error (.brokenPhrase .comparison behind.head?)
  | hasWord :: rest =>
    match rest with
    | notWord :: traitWord :: behind =>
      match _h : takeNames behind with
      | ([], others) => .error (.brokenPhrase .traitName others.head?)
      | (names, others) => do return phrase (.traits ⟨true, names⟩) :: (← foldPhrases others)
    | notWord :: behind => .error (.brokenPhrase .traitWord behind.head?)
    | traitWord :: behind =>
      match _h : takeNames behind with
      | ([], others) => .error (.brokenPhrase .traitName others.head?)
      | (names, others) => do return phrase (.traits ⟨false, names⟩) :: (← foldPhrases others)
    | behind => .error (.brokenPhrase .traitWord behind.head?)
  | traitWord :: rest =>
    match _h : takeNames rest with
    | ([], others) => .error (.brokenPhrase .traitName others.head?)
    | (names, others) => do return phrase (.traits ⟨false, names⟩) :: (← foldPhrases others)
  | t :: rest => do return t :: (← foldPhrases rest)
termination_by ts => ts.length
decreasing_by
  · simp only [List.length_cons]; omega
  · have := length_takeNames behind
    simp only [_h, List.length_cons] at this ⊢; omega
  · have := length_takeNames behind
    simp only [_h, List.length_cons] at this ⊢; omega
  · have := length_takeNames rest
    simp only [_h, List.length_cons] at this ⊢; omega
  · simp

/-- The tokens of a script with its phrases folded. -/
def ofScript (script : String) : Except Error (List Token) := do foldPhrases (← scan script)

end Token

end Adventure.Condition

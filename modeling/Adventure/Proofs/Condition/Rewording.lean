import Adventure.Condition.Script
import Adventure.Proofs.Condition.Folding
import Adventure.Proofs.Condition.Reading
import Adventure.Proofs.Condition.SoleCharacter
import Mathlib.Data.List.Forall2

/-!
Building a condition in other words.

Every pass that turns tokens into a tree treats the scopes `character` and `party` as one. Where the
tokens of two conditions are the same but for such scopes, the passes end in trees that are the same
but for them, or they refuse both conditions for the same reason (`Token.foldPhrases_alike`,
`Tree.ofTokens_alike`). Which scopes stand for which is left open: they are related by some `R`, and
what is said of the tokens with `R` is said of the tree, and of an error that names a scope, with the
same `R`. Errors that tell a place in the script are compared by some `P` in the same way.

Of the check of scopes it matters that scopes that are related have both stats, or both none.
-/

namespace Adventure.Condition

/-! ### The same but for scopes -/

/-- Tokens that are the same but for the scope they name. -/
inductive Token.Alike (R : Scope → Scope → Prop) : Token → Token → Prop where
  | scope {s s' : Scope} (h : R s s') : Alike R (.scope s) (.scope s')
  | same {t : Token} (h : ∀ s, t ≠ .scope s) : Alike R t t

/-- What waits, the same but for the scope. -/
inductive Waiting.Alike (R : Scope → Scope → Prop) : Waiting → Waiting → Prop where
  | connective (c : Connective) : Alike R (.connective c) (.connective c)
  | scope {s s' : Scope} (h : R s s') : Alike R (.scope s) (.scope s')
  | openParen : Alike R .openParen .openParen

/-- Steps that are the same but for the scope. -/
inductive Step.Alike (R : Scope → Scope → Prop) : Step → Step → Prop where
  | phrase (p : Phrase) : Alike R (.phrase p) (.phrase p)
  | join (c : Connective) : Alike R (.join c) (.join c)
  | within {s s' : Scope} (h : R s s') : Alike R (.within s) (.within s')

/-- Trees that are the same but for their scopes. -/
inductive Tree.Alike (R : Scope → Scope → Prop) : Tree → Tree → Prop where
  | phrase (p : Phrase) : Alike R (.phrase p) (.phrase p)
  | join (c : Connective) {lhs lhs' rhs rhs' : Tree} (hl : Alike R lhs lhs')
    (hr : Alike R rhs rhs') : Alike R (.join c lhs rhs) (.join c lhs' rhs')
  | within {s s' : Scope} (h : R s s') {inner inner' : Tree} (hi : Alike R inner inner') :
    Alike R (.within s inner) (.within s' inner')

/-- Errors that are the same but for the scope they name and the place they tell. -/
inductive Error.Alike (R : Scope → Scope → Prop) (P : Nat → Nat → Prop) : Error → Error → Prop where
  | invalidCharacter (c : Char) {p p' : Nat} (h : P p p') :
    Alike R P (.invalidCharacter c p) (.invalidCharacter c p')
  | loneBang {p p' : Nat} (h : P p p') : Alike R P (.loneBang p) (.loneBang p')
  | invalidNumber (digits : String) {p p' : Nat} (h : P p p') :
    Alike R P (.invalidNumber digits p) (.invalidNumber digits p')
  | unknownWord (word : String) : Alike R P (.unknownWord word) (.unknownWord word)
  | unclosedQuote {p p' : Nat} (h : P p p') : Alike R P (.unclosedQuote p) (.unclosedQuote p')
  | brokenPhrase (missing : Missing) {found found' : Option Token}
    (h : Option.Rel (Token.Alike R) found found') :
    Alike R P (.brokenPhrase missing found) (.brokenPhrase missing found')
  | strayToken {t t' : Token} (h : Token.Alike R t t') : Alike R P (.strayToken t) (.strayToken t')
  | commaWithoutScope : Alike R P .commaWithoutScope .commaWithoutScope
  | strayClose : Alike R P .strayClose .strayClose
  | unclosedOpen : Alike R P .unclosedOpen .unclosedOpen
  | missingSide (c : Connective) : Alike R P (.missingSide c) (.missingSide c)
  | emptyScope {s s' : Scope} (h : R s s') : Alike R P (.emptyScope s) (.emptyScope s')
  | tooDeep : Alike R P .tooDeep .tooDeep
  | noPhrase : Alike R P .noPhrase .noPhrase
  | notJoined : Alike R P .notJoined .notJoined
  | statUnderTraits (stat : Stat) {s s' : Scope} (h : R s s') :
    Alike R P (.statUnderTraits stat s) (.statUnderTraits stat s')

/-- Two passes that agree: both succeed, with results that are related, or both are refused, with
errors that are. -/
inductive Agree {α β : Type} (err : Error → Error → Prop) (r : α → β → Prop) :
    Except Error α → Except Error β → Prop where
  | ok {a : α} {b : β} (h : r a b) : Agree err r (.ok a) (.ok b)
  | error {e e' : Error} (h : err e e') : Agree err r (.error e) (.error e')

/-- Passes that agree still do so when others that agree come after them. -/
theorem Agree.bind {α β γ δ : Type} {err : Error → Error → Prop} {r : α → β → Prop}
    {s : γ → δ → Prop} {x : Except Error α} {y : Except Error β} {k : α → Except Error γ}
    {k' : β → Except Error δ} (h : Agree err r x y) (hk : ∀ a b, r a b → Agree err s (k a) (k' b)) :
    Agree err s (x >>= k) (y >>= k') := by
  cases h with
  | ok h => exact hk _ _ h
  | error h => exact .error h

/-- Results that are put together from results that agree. -/
theorem Agree.map {α β γ δ : Type} {err : Error → Error → Prop} {r : α → β → Prop}
    {s : γ → δ → Prop} {x : Except Error α} {y : Except Error β} {f : α → γ} {g : β → δ}
    (h : Agree err r x y) (hfg : ∀ a b, r a b → s (f a) (g b)) :
    Agree err s (do return f (← x)) (do return g (← y)) :=
  h.bind fun a b hab => .ok (hfg a b hab)

theorem Agree.mono {α β : Type} {err : Error → Error → Prop} {r s : α → β → Prop}
    {x : Except Error α} {y : Except Error β} (h : Agree err r x y) (hrs : ∀ a b, r a b → s a b) :
    Agree err s x y := by
  cases h with
  | ok h => exact .ok (hrs _ _ h)
  | error h => exact .error h

section

variable {R : Scope → Scope → Prop} {P : Nat → Nat → Prop}

/-! ### Folding -/

namespace Token

/-- A token is like itself, where each scope is related to itself. -/
theorem alike_refl (h : ∀ s, R s s) (t : Token) : t.Alike R t := by
  cases t with
  | scope s => exact .scope (h s)
  | _ => exact .same (by simp)

/-- A token that names no scope stands in both rows. -/
theorem of_alike_cons {t : Token} {rest ts : List Token} (ht : ∀ s, t ≠ scope s)
    (h : List.Forall₂ (Alike R) (t :: rest) ts) :
    ∃ rest', ts = t :: rest' ∧ List.Forall₂ (Alike R) rest rest' := by
  cases h with
  | cons hfirst hrest =>
    cases hfirst with
    | scope => exact absurd rfl (ht _)
    | same => exact ⟨_, rfl, hrest⟩

theorem of_cons_alike {t : Token} {rest ts : List Token} (ht : ∀ s, t ≠ scope s)
    (h : List.Forall₂ (Alike R) ts (t :: rest)) :
    ∃ rest', ts = t :: rest' ∧ List.Forall₂ (Alike R) rest' rest := by
  cases h with
  | cons hfirst hrest =>
    cases hfirst with
    | scope => exact absurd rfl (ht _)
    | same => exact ⟨_, rfl, hrest⟩

theorem head?_alike {ts ts' : List Token} (h : List.Forall₂ (Alike R) ts ts') :
    Option.Rel (Alike R) ts.head? ts'.head? := by
  cases h with
  | nil => exact .none
  | cons h _ => exact .some h

theorem takeNames_alike {ts ts' others : List Token} {names : List String}
    (h : List.Forall₂ (Alike R) ts ts') (hnames : takeNames ts = (names, others)) :
    ∃ others', takeNames ts' = (names, others') ∧ List.Forall₂ (Alike R) others others' := by
  fun_induction takeNames ts generalizing names ts' with
  | case1 text rest names' behind hrest ih =>
    cases hnames
    obtain ⟨rest', rfl, hrest'⟩ := of_alike_cons (by simp) h
    obtain ⟨others', hothers, hbehind⟩ := ih hrest' hrest
    exact ⟨others', by rw [takeNames, hothers], hbehind⟩
  | case2 ts hts =>
    cases hnames
    have hts' : ∀ text rest, ts' = quote text :: rest → False := by
      rintro text rest rfl
      obtain ⟨rest₀, rfl, -⟩ := of_cons_alike (by simp) h
      exact hts text rest₀ rfl
    exact ⟨ts', by rw [takeNames]; exact hts', h⟩

/-- A phrase about traits that names none breaks off, whether it starts with `has not` or not. -/
theorem foldPhrases_nameless {rest others : List Token} (h : takeNames rest = ([], others)) :
    foldPhrases (traitWord :: rest) = .error (.brokenPhrase .traitName others.head?) ∧
      foldPhrases (hasWord :: notWord :: traitWord :: rest) =
        .error (.brokenPhrase .traitName others.head?) := by
  constructor
  · rw [foldPhrases]
    split <;> simp_all
  · rw [foldPhrases]
    split <;> simp_all

/-- A phrase about traits takes the names behind it, whether it starts with `has not` or not. -/
theorem foldPhrases_named {rest others : List Token} {names : List String}
    (h : takeNames rest = (names, others)) (hne : names ≠ []) :
    foldPhrases (traitWord :: rest) =
        (do return phrase (.traits ⟨false, names⟩) :: (← foldPhrases others)) ∧
      foldPhrases (hasWord :: notWord :: traitWord :: rest) =
        (do return phrase (.traits ⟨true, names⟩) :: (← foldPhrases others)) := by
  constructor
  · rw [foldPhrases]
    split <;> simp_all
  · rw [foldPhrases]
    split <;> simp_all

/-- **Rows of tokens that are alike are folded alike.** -/
theorem foldPhrases_alike {ts ts' : List Token} (h : List.Forall₂ (Alike R) ts ts') :
    Agree (Error.Alike R P) (List.Forall₂ (Alike R)) (foldPhrases ts) (foldPhrases ts') := by
  have hphrase : ∀ p, Alike R (phrase p) (phrase p) := fun p => .same (by simp)
  fun_induction foldPhrases ts generalizing ts' with
  | case1 =>
    cases h
    rw [foldPhrases]
    exact .ok .nil
  | case2 s c n behind ih =>
    obtain ⟨_, rfl, h₁⟩ := of_alike_cons (by simp) h
    obtain ⟨_, rfl, h₂⟩ := of_alike_cons (by simp) h₁
    obtain ⟨behind', rfl, hbehind⟩ := of_alike_cons (by simp) h₂
    rw [foldPhrases]
    exact (ih hbehind).map fun _ _ => .cons (hphrase _)
  | case3 s c behind hnumber =>
    obtain ⟨_, rfl, h₁⟩ := of_alike_cons (by simp) h
    obtain ⟨behind', rfl, hbehind⟩ := of_alike_cons (by simp) h₁
    rw [foldPhrases]
    · exact .error (.brokenPhrase _ (head?_alike hbehind))
    · rintro n rest rfl
      obtain ⟨rest₀, rfl, -⟩ := of_cons_alike (by simp) hbehind
      exact hnumber n rest₀ rfl
  | case4 s behind hnumber hcomparison =>
    obtain ⟨behind', rfl, hbehind⟩ := of_alike_cons (by simp) h
    have hcomparison' : ∀ c rest, behind' = comparison c :: rest → False := by
      rintro c rest rfl
      obtain ⟨rest₀, rfl, -⟩ := of_cons_alike (by simp) hbehind
      exact hcomparison c rest₀ rfl
    rw [foldPhrases]
    · exact .error (.brokenPhrase _ (head?_alike hbehind))
    · exact fun c n rest => hcomparison' c (number n :: rest)
    · exact hcomparison'
  | case5 behind others hnames =>
    obtain ⟨_, rfl, h₁⟩ := of_alike_cons (by simp) h
    obtain ⟨_, rfl, h₂⟩ := of_alike_cons (by simp) h₁
    obtain ⟨behind', rfl, hbehind⟩ := of_alike_cons (by simp) h₂
    obtain ⟨others', hnames', hothers⟩ := takeNames_alike hbehind hnames
    rw [(foldPhrases_nameless hnames').2]
    exact .error (.brokenPhrase _ (head?_alike hothers))
  | case6 behind names others hne hnames ih =>
    obtain ⟨_, rfl, h₁⟩ := of_alike_cons (by simp) h
    obtain ⟨_, rfl, h₂⟩ := of_alike_cons (by simp) h₁
    obtain ⟨behind', rfl, hbehind⟩ := of_alike_cons (by simp) h₂
    obtain ⟨others', hnames', hothers⟩ := takeNames_alike hbehind hnames
    rw [(foldPhrases_named hnames' hne).2]
    exact (ih hothers).map fun _ _ => .cons (hphrase _)
  | case7 behind htrait =>
    obtain ⟨_, rfl, h₁⟩ := of_alike_cons (by simp) h
    obtain ⟨behind', rfl, hbehind⟩ := of_alike_cons (by simp) h₁
    rw [foldPhrases]
    · exact .error (.brokenPhrase _ (head?_alike hbehind))
    · rintro rest rfl
      obtain ⟨rest₀, rfl, -⟩ := of_cons_alike (by simp) hbehind
      exact htrait rest₀ rfl
  | case8 behind others hnames =>
    obtain ⟨_, rfl, h₁⟩ := of_alike_cons (by simp) h
    obtain ⟨behind', rfl, hbehind⟩ := of_alike_cons (by simp) h₁
    obtain ⟨others', hnames', hothers⟩ := takeNames_alike hbehind hnames
    rw [foldPhrases_has, (foldPhrases_nameless hnames').1]
    exact .error (.brokenPhrase _ (head?_alike hothers))
  | case9 behind names others hne hnames ih =>
    obtain ⟨_, rfl, h₁⟩ := of_alike_cons (by simp) h
    obtain ⟨behind', rfl, hbehind⟩ := of_alike_cons (by simp) h₁
    obtain ⟨others', hnames', hothers⟩ := takeNames_alike hbehind hnames
    rw [foldPhrases_has, (foldPhrases_named hnames' hne).1]
    exact (ih hothers).map fun _ _ => .cons (hphrase _)
  | case10 behind hboth hnot htrait =>
    obtain ⟨behind', rfl, hbehind⟩ := of_alike_cons (by simp) h
    have hnot' : ∀ rest, behind' = notWord :: rest → False := by
      rintro rest rfl
      obtain ⟨rest₀, rfl, -⟩ := of_cons_alike (by simp) hbehind
      exact hnot rest₀ rfl
    have htrait' : ∀ rest, behind' = traitWord :: rest → False := by
      rintro rest rfl
      obtain ⟨rest₀, rfl, -⟩ := of_cons_alike (by simp) hbehind
      exact htrait rest₀ rfl
    rw [foldPhrases]
    · exact .error (.brokenPhrase _ (head?_alike hbehind))
    · exact fun rest => hnot' (traitWord :: rest)
    · exact hnot'
    · exact htrait'
  | case11 behind others hnames =>
    obtain ⟨behind', rfl, hbehind⟩ := of_alike_cons (by simp) h
    obtain ⟨others', hnames', hothers⟩ := takeNames_alike hbehind hnames
    rw [(foldPhrases_nameless hnames').1]
    exact .error (.brokenPhrase _ (head?_alike hothers))
  | case12 behind names others hne hnames ih =>
    obtain ⟨behind', rfl, hbehind⟩ := of_alike_cons (by simp) h
    obtain ⟨others', hnames', hothers⟩ := takeNames_alike hbehind hnames
    rw [(foldPhrases_named hnames' hne).1]
    exact (ih hothers).map fun _ _ => .cons (hphrase _)
  | case13 t rest hstat hhas htrait ih =>
    have hstart : t.startsPhrase = false := by
      cases t with
      | stat s => exact (hstat s rfl).elim
      | hasWord => exact (hhas rfl).elim
      | traitWord => exact (htrait rfl).elim
      | _ => rfl
    cases h with
    | @cons _ t' _ rest' hfirst hrest =>
      have hstart' : t'.startsPhrase = false := by
        cases hfirst with
        | scope => rfl
        | same => exact hstart
      rw [foldPhrases_cons hstart']
      exact (ih hrest).map fun _ _ => .cons hfirst

end Token

/-! ### The steps -/

namespace Steps

/-- Runs that make steps that are alike, and leave the like waiting. -/
def RunAlike (R : Scope → Scope → Prop) (r r' : List Step × List Waiting) : Prop :=
  List.Forall₂ (Step.Alike R) r.1 r'.1 ∧ List.Forall₂ (Waiting.Alike R) r.2 r'.2

theorem RunAlike.cons {s s' : Step} {r r' : List Step × List Waiting} (hs : s.Alike R s')
    (h : RunAlike R r r') : RunAlike R (s :: r.1, r.2) (s' :: r'.1, r'.2) :=
  ⟨.cons hs h.1, h.2⟩

theorem await_alike (c : Connective) {w w' : List Waiting}
    (h : List.Forall₂ (Waiting.Alike R) w w') : RunAlike R (await c w) (await c w') := by
  induction h with
  | nil => exact ⟨.nil, .cons (.connective c) .nil⟩
  | cons hfirst hrest ih =>
    cases hfirst with
    | connective top =>
      rw [await, await]
      split
      · exact ih.cons (.join top)
      · exact ⟨.nil, .cons (.connective c) (.cons (.connective top) hrest)⟩
    | scope h => exact ⟨.nil, .cons (.connective c) (.cons (.scope h) hrest)⟩
    | openParen => exact ⟨.nil, .cons (.connective c) (.cons .openParen hrest)⟩

theorem closeClause_alike {w w' : List Waiting} (h : List.Forall₂ (Waiting.Alike R) w w') :
    Agree (Error.Alike R P) (RunAlike R) (closeClause w) (closeClause w') := by
  induction h with
  | nil => exact .error .commaWithoutScope
  | cons hfirst hrest ih =>
    cases hfirst with
    | connective c => exact ih.map fun _ _ => RunAlike.cons (.join c)
    | scope h => exact .ok ⟨.cons (.within h) .nil, hrest⟩
    | openParen => exact .error .commaWithoutScope

theorem closeParen_alike {w w' : List Waiting} (h : List.Forall₂ (Waiting.Alike R) w w') :
    Agree (Error.Alike R P) (RunAlike R) (closeParen w) (closeParen w') := by
  induction h with
  | nil => exact .error .strayClose
  | cons hfirst hrest ih =>
    cases hfirst with
    | connective c => exact ih.map fun _ _ => RunAlike.cons (.join c)
    | scope h => exact ih.map fun _ _ => RunAlike.cons (.within h)
    | openParen => exact .ok ⟨.nil, hrest⟩

theorem finish_alike {w w' : List Waiting} (h : List.Forall₂ (Waiting.Alike R) w w') :
    Agree (Error.Alike R P) (List.Forall₂ (Step.Alike R)) (finish w) (finish w') := by
  induction h with
  | nil => exact .ok .nil
  | cons hfirst hrest ih =>
    cases hfirst with
    | connective c => exact ih.map fun _ _ => .cons (.join c)
    | scope h => exact ih.map fun _ _ => .cons (.within h)
    | openParen => exact .error .unclosedOpen

theorem read_alike {w w' : List Waiting} (h : List.Forall₂ (Waiting.Alike R) w w') {t t' : Token}
    (ht : t.Alike R t') : Agree (Error.Alike R P) (RunAlike R) (read w t) (read w' t') := by
  cases ht with
  | scope hs => exact .ok ⟨.nil, .cons (.scope hs) h⟩
  | same hscope =>
    cases t with
    | phrase p => exact .ok ⟨.cons (.phrase p) .nil, h⟩
    | scope s => exact absurd rfl (hscope s)
    | openParen => exact .ok ⟨.nil, .cons .openParen h⟩
    | connective c => exact .ok (await_alike c h)
    | comma =>
      refine (closeClause_alike h).bind fun r r' hr => .ok ?_
      have hleft := await_alike .and hr.2
      exact ⟨List.rel_append hr.1 hleft.1, hleft.2⟩
    | closeParen => exact closeParen_alike h
    | _ => exact .error (.strayToken (.same hscope))

/-- **The first pass agrees** on tokens that are alike. -/
theorem ofTokens_alike {w w' : List Waiting} (h : List.Forall₂ (Waiting.Alike R) w w')
    {ts ts' : List Token} (hts : List.Forall₂ (Token.Alike R) ts ts') :
    Agree (Error.Alike R P) (List.Forall₂ (Step.Alike R)) (ofTokens w ts) (ofTokens w' ts') := by
  induction hts generalizing w w' with
  | nil => exact finish_alike h
  | cons hfirst _ ih =>
    exact (read_alike h hfirst).bind fun r r' hr =>
      (ih hr.2).map fun _ _ hsteps => List.rel_append hr.1 hsteps

end Steps

/-! ### The tree -/

namespace Tree

/-- Trees that are alike are as deep as each other. -/
theorem Alike.depth_eq {t t' : Tree} (h : t.Alike R t') : t.depth = t'.depth := by
  induction h with
  | phrase p => rfl
  | join c _ _ ihl ihr => rw [depth, depth, ihl, ihr]
  | within _ _ ih => rw [depth, depth, ih]

/-- Trees whose scopes are related as by one word for both differ in such words alone. -/
theorem Alike.reworded {t t' : Tree} (h : t.Alike R t')
    (hR : ∀ s s', R s s' → s.plain = s'.plain) : t.Reworded t' := by
  unfold Reworded
  induction h with
  | phrase p => rfl
  | join c _ _ ihl ihr => rw [plain, plain, ihl, ihr]
  | within hs _ ih => rw [plain, plain, ih, hR _ _ hs]

/-- **The check of scopes agrees**, where scopes that are related have both stats or both none. -/
theorem misplacedStat?_alike (hR : ∀ s s', R s s' → s.hasStats = s'.hasStats) {t t' : Tree}
    (h : t.Alike R t') {around around' : Option Scope} (haround : Option.Rel R around around') :
    Option.Rel (Error.Alike R P) (t.misplacedStat? around) (t'.misplacedStat? around') := by
  induction h generalizing around around' with
  | phrase p =>
    cases p with
    | traits p => exact .none
    | stat p =>
      cases haround with
      | none => exact .none
      | some hs =>
        rw [misplacedStat?, misplacedStat?, hR _ _ hs]
        split
        · exact .none
        · exact .some (.statUnderTraits p.stat hs)
  | join c _ _ ihl ihr =>
    have hleft := ihl haround
    rw [misplacedStat?, misplacedStat?]
    generalize Tree.misplacedStat? around _ = left at hleft
    generalize Tree.misplacedStat? around' _ = left' at hleft
    cases hleft with
    | none => exact ihr haround
    | some h => exact .some h
  | within hs _ ih => exact ih (.some hs)

end Tree

namespace Steps

/-- Trees on the stack that are alike, one by one. -/
def StackAlike (R : Scope → Scope → Prop) : List Measured → List Measured → Prop :=
  List.Forall₂ fun m m' => m.tree.Alike R m'.tree

/-- A new tree is put on both stacks, or it is too deep for both. -/
theorem push_alike {m m' : Measured} {rest rest' : List Measured} (h : m.tree.Alike R m'.tree)
    (hrest : StackAlike R rest rest') :
    Agree (Error.Alike R P) (StackAlike R)
      (if m.depth > maxDepth then .error .tooDeep else .ok (m :: rest))
      (if m'.depth > maxDepth then .error .tooDeep else .ok (m' :: rest')) := by
  rw [m.depth_eq, m'.depth_eq, h.depth_eq]
  split
  · exact .error .tooDeep
  · exact .ok (.cons h hrest)

theorem take_alike {trees trees' : List Measured} (h : StackAlike R trees trees') {s s' : Step}
    (hs : s.Alike R s') :
    Agree (Error.Alike R P) (StackAlike R) (take trees s) (take trees' s') := by
  cases hs with
  | phrase p => exact .ok (.cons (.phrase p) h)
  | join c =>
    cases h with
    | nil => exact .error (.missingSide c)
    | cons hright h =>
      cases h with
      | nil => exact .error (.missingSide c)
      | cons hleft hrest => exact push_alike (.join c hleft hright) hrest
  | within hscope =>
    cases h with
    | nil => exact .error (.emptyScope hscope)
    | cons hinner hrest => exact push_alike (.within hscope hinner) hrest

/-- **The second pass agrees** on steps that are alike. -/
theorem build_alike {trees trees' : List Measured} (h : StackAlike R trees trees')
    {steps steps' : List Step} (hsteps : List.Forall₂ (Step.Alike R) steps steps') :
    Agree (Error.Alike R P) (Tree.Alike R) (build trees steps) (build trees' steps') := by
  induction hsteps generalizing trees trees' with
  | nil =>
    cases h with
    | nil => exact .error .noPhrase
    | cons hfirst hrest =>
      cases hrest with
      | nil => exact .ok hfirst
      | cons => exact .error .notJoined
  | cons hs _ ih => exact (take_alike h hs).bind fun _ _ htrees => ih htrees

end Steps

/-- **Trees are built alike** from tokens that are alike. -/
theorem Tree.ofTokens_alike (hR : ∀ s s', R s s' → s.hasStats = s'.hasStats) {ts ts' : List Token}
    (h : List.Forall₂ (Token.Alike R) ts ts') :
    Agree (Error.Alike R P) (Tree.Alike R) (Tree.ofTokens ts) (Tree.ofTokens ts') := by
  refine (Steps.ofTokens_alike .nil h).bind fun steps steps' hsteps => ?_
  refine (Steps.build_alike .nil hsteps).bind fun t t' ht => ?_
  have hplaced := misplacedStat?_alike (P := P) hR ht .none
  generalize t.misplacedStat? none = misplaced at hplaced
  generalize t'.misplacedStat? none = misplaced' at hplaced
  cases hplaced with
  | none => exact .ok ht
  | some h => exact .error h

end

end Adventure.Condition

import Adventure.Condition.Script
import Adventure.Proofs.Condition.Folding
import Adventure.Proofs.Condition.Reading

/-!
Scripts in parentheses. Whatever an accepted script holds, it means the same inside parentheses, so it
can be joined with others and put under a scope (`parse_grouped`).

Every pass treats what is in the parentheses as it treats it alone. Scanning cuts at the parentheses
(`Spells.group`), which are no characters of words and no digits, and folding ends no phrase there
that it would not have ended at the end. The first pass never looks below an open parenthesis
(`Steps.run_below`), so that it makes the same steps inside as it makes alone (`Steps.run_group`).
-/

namespace Adventure.Condition

namespace Steps

/-! ### What waits below -/

section Below

variable {ws left : List Waiting} {e : List Step} {t : Token} {ts : List Token}

theorem closeParen_below (h : closeParen ws = .ok (e, left)) (below : List Waiting) :
    closeParen (ws ++ below) = .ok (e, left ++ below) := by
  induction ws generalizing e with
  | nil => cases h
  | cons x ws ih =>
    cases x with
    | openParen =>
      cases h
      rfl
    | connective c =>
      obtain ⟨⟨e', left'⟩, hws, h⟩ := exists_of_bind_eq_ok h
      cases h
      rw [List.cons_append, closeParen, ih hws]
      rfl
    | scope s =>
      obtain ⟨⟨e', left'⟩, hws, h⟩ := exists_of_bind_eq_ok h
      cases h
      rw [List.cons_append, closeParen, ih hws]
      rfl

theorem closeClause_below (h : closeClause ws = .ok (e, left)) (below : List Waiting) :
    closeClause (ws ++ below) = .ok (e, left ++ below) := by
  induction ws generalizing e with
  | nil => cases h
  | cons x ws ih =>
    cases x with
    | openParen => cases h
    | connective c =>
      obtain ⟨⟨e', left'⟩, hws, h⟩ := exists_of_bind_eq_ok h
      cases h
      rw [List.cons_append, closeClause, ih hws]
      rfl
    | scope s =>
      cases h
      rfl

/-- A connective ends none of what waits below the start of a clause. -/
theorem await_below (c : Connective) (ws : List Waiting) {below : List Waiting}
    (hb : Barrier below) :
    await c (ws ++ below) = ((await c ws).1, (await c ws).2 ++ below) := by
  induction ws with
  | nil => rw [List.nil_append, await_barrier hb]; rfl
  | cons x ws ih =>
    cases x with
    | connective top =>
      rw [List.cons_append, await, await, ih]
      split <;> rfl
    | scope s => rfl
    | openParen => rfl

/-- **A token is read without a look below the start of a clause.** -/
theorem read_below (h : read ws t = .ok (e, left)) {below : List Waiting} (hb : Barrier below) :
    read (ws ++ below) t = .ok (e, left ++ below) := by
  cases t with
  | closeParen => exact closeParen_below h below
  | connective c =>
    have hawait := Except.ok.inj h
    rw [read_connective, await_below c ws hb, hawait]
  | comma =>
    obtain ⟨⟨e', left'⟩, hclose, h⟩ := exists_of_bind_eq_ok h
    cases h
    rw [read_comma (closeClause_below hclose below), await_below .and left' hb]
  | phrase p => cases h; rfl
  | scope s => cases h; rfl
  | openParen => cases h; rfl
  | _ => cases h

/-- So is a row of tokens. -/
theorem run_below (h : run ws ts = .ok (e, left)) {below : List Waiting} (hb : Barrier below) :
    run (ws ++ below) ts = .ok (e, left ++ below) := by
  induction ts generalizing ws e with
  | nil =>
    cases h
    rfl
  | cons t ts ih =>
    obtain ⟨s, ws', s', hread, hrun, rfl⟩ := exists_of_run_cons h
    exact run_cons (read_below hread hb) (ih hrun)

end Below

/-! ### A row in parentheses -/

/-- At the end of a row nothing is open. -/
theorem openParen_not_mem_of_finish {ws : List Waiting} {steps : List Step}
    (h : finish ws = .ok steps) : .openParen ∉ ws := by
  induction ws generalizing steps with
  | nil => exact List.not_mem_nil
  | cons x ws ih =>
    cases x with
    | openParen => cases h
    | connective c =>
      obtain ⟨rest, hws, -⟩ := exists_of_bind_eq_ok h
      exact List.not_mem_cons_of_ne_of_not_mem nofun (ih hws)
    | scope s =>
      obtain ⟨rest, hws, -⟩ := exists_of_bind_eq_ok h
      exact List.not_mem_cons_of_ne_of_not_mem nofun (ih hws)

/-- The pass over a whole row is a run, and then everything that waits ends. -/
theorem exists_run_of_ofTokens {w : List Waiting} {ts : List Token} {steps : List Step}
    (h : ofTokens w ts = .ok steps) :
    ∃ e left, run w ts = .ok (e, left) ∧ .openParen ∉ left ∧ steps = e ++ flush left := by
  induction ts generalizing w steps with
  | nil =>
    have hopen := openParen_not_mem_of_finish h
    rw [ofTokens, finish_eq_flush hopen] at h
    cases h
    exact ⟨[], w, rfl, hopen, rfl⟩
  | cons t ts ih =>
    obtain ⟨⟨e, w'⟩, hread, h⟩ := exists_of_bind_eq_ok h
    obtain ⟨more, hmore, h⟩ := exists_of_bind_eq_ok h
    cases h
    obtain ⟨e', left, hrun, hopen, rfl⟩ := ih hmore
    exact ⟨e ++ e', left, run_cons hread hrun, hopen, (List.append_assoc ..).symm⟩

/-- **In parentheses a row makes the steps that it makes alone**, whatever waits before it. -/
theorem run_group {ts : List Token} {steps : List Step} (h : ofTokens [] ts = .ok steps)
    (w : List Waiting) : run w (.openParen :: ts ++ [.closeParen]) = .ok (steps, w) := by
  obtain ⟨e, left, hrun, hopen, rfl⟩ := exists_run_of_ofTokens h
  have hbarrier : Barrier (.openParen :: w) := nofun
  have hinside : run (.openParen :: w) ts = .ok (e, left ++ .openParen :: w) :=
    run_below hrun hbarrier
  have hclose : run (left ++ .openParen :: w) [.closeParen] = .ok (flush left, w) :=
    run_singleton (closeParen_append hopen w)
  have hgroup := run_cons (read_openParen w) (run_append hinside hclose)
  exact hgroup

/-- Behind the parentheses the pass goes on with what waited before them. -/
theorem ofTokens_group {ts : List Token} {steps : List Step} (h : ofTokens [] ts = .ok steps)
    (w : List Waiting) (us : List Token) :
    ofTokens w (.openParen :: ts ++ .closeParen :: us) = (ofTokens w us).map (steps ++ ·) := by
  have hrow : .openParen :: ts ++ .closeParen :: us = (.openParen :: ts ++ [.closeParen]) ++ us := by
    simp
  rw [hrow, ofTokens_append (run_group h w)]

end Steps

open Steps

/-- The trees that come out: the row gives their postorder, they are not too deep, and they test no
stat where there are only traits. -/
theorem Tree.ofTokens_eq_ok_iff {ts : List Token} {t : Tree} :
    Tree.ofTokens ts = .ok t ↔ Steps.ofTokens [] ts = .ok t.postorder ∧ t.depth ≤ maxDepth ∧
      t.misplacedStat? none = none := by
  constructor
  · intro h
    have hsteps := Tree.steps_of_ofTokens h
    have hresult := Tree.ofTokens_of_steps hsteps
    rw [h] at hresult
    by_cases hdeep : maxDepth < t.depth
    · rw [if_pos hdeep] at hresult
      cases hresult
    rw [if_neg hdeep] at hresult
    cases hm : t.misplacedStat? none with
    | some e =>
      rw [hm] at hresult
      cases hresult
    | none => exact ⟨hsteps, Nat.not_lt.mp hdeep, rfl⟩
  · rintro ⟨hsteps, hdepth, hplaced⟩
    rw [Tree.ofTokens_of_steps hsteps, if_neg (Nat.not_lt.mpr hdepth), hplaced]

/-! ### Texts that spell folded tokens -/

/-- Whether the words of a text are folded to a row of tokens. -/
def Spells (cs : List Char) (out : List Token) : Prop :=
  ∃ ts, Cut cs ts ∧ Token.foldPhrases ts = .ok out

theorem ofScript_eq_ok_iff {script : String} {out : List Token} :
    Token.ofScript script = .ok out ↔ Spells script.toList out := by
  constructor
  · intro h
    obtain ⟨ts, hscan, hfold⟩ := exists_of_bind_eq_ok h
    exact ⟨ts, cut_of_scanFrom hscan, hfold⟩
  · rintro ⟨ts, hcut, hfold⟩
    have hscan : Token.scan script = .ok ts := scanFrom_of_cut hcut 0
    rw [Token.ofScript, hscan]
    exact hfold

/-- The words of a script are no phrases. -/
theorem Cut.phrase_not_mem {cs : List Char} {ts : List Token} (h : Cut cs ts) (p : Phrase) :
    .phrase p ∉ ts := by
  have hsigns : ∀ q ∈ signs, q.2 ≠ .phrase p := by
    simp [signs]
  have hwords : ∀ q ∈ keywords, q.2 ≠ .phrase p := by
    intro q hq
    rcases List.mem_append.mp hq with hq | hq
    · rintro heq
      have hnone : ∀ q ∈ Token.words, q.2 ≠ .phrase p := by simp [Token.words]
      exact hnone q hq heq
    · obtain ⟨w, -, rfl⟩ := List.mem_map.mp hq
      rintro ⟨⟩
  induction h with
  | nothing => exact List.not_mem_nil
  | blank hc h ih => exact ih
  | sign ht h ih => exact List.not_mem_cons_of_ne_of_not_mem (hsigns _ ht).symm ih
  | quote hname h ih => exact List.not_mem_cons_of_ne_of_not_mem (by simp) ih
  | number hne hdigits hn hend h ih => exact List.not_mem_cons_of_ne_of_not_mem (by simp) ih
  | negative hne hdigits hn hend h ih => exact List.not_mem_cons_of_ne_of_not_mem (by simp) ih
  | word hfirst hothers ht hend h ih =>
    exact List.not_mem_cons_of_ne_of_not_mem (hwords _ ht).symm ih

/-- Texts that are cut are cut one after the other, where the second does not make a lexeme of the
first longer. -/
theorem Cut.append {cs rest : List Char} {ts us : List Token} (h : Cut cs ts) (hrest : Cut rest us)
    (hend : ∀ c ∈ rest.head?, c.isDigit = false ∧ isWordChar c = false) :
    Cut (cs ++ rest) (ts ++ us) := by
  -- What stops a lexeme of the first text stops it there too, or else the second text does.
  have hstop : ∀ {p : Char → Bool} {more : List Char}, (∀ c ∈ rest.head?, p c = false) →
      (∀ c ∈ more.head?, p c = false) → ∀ c ∈ (more ++ rest).head?, p c = false := by
    intro p more hp hmore
    cases more with
    | nil => exact hp
    | cons d more => exact hmore
  induction h with
  | nothing => exact hrest
  | blank hc h ih => exact .blank hc ih
  | sign ht h ih =>
    rw [List.append_assoc]
    exact .sign ht ih
  | quote hname h ih =>
    rw [List.append_assoc]
    exact .quote hname ih
  | number hne hdigits hn hnext h ih =>
    rw [List.append_assoc]
    exact .number hne hdigits hn (hstop (fun c hc => (hend c hc).1) hnext) ih
  | negative hne hdigits hn hnext h ih =>
    rw [List.append_assoc]
    exact .negative hne hdigits hn (hstop (fun c hc => (hend c hc).1) hnext) ih
  | word hfirst hothers ht hnext h ih =>
    rw [List.append_assoc]
    exact .word hfirst hothers ht (hstop (fun c hc => (hend c hc).2) hnext) ih

namespace Spells

theorem nil : Spells [] [] := ⟨[], .nothing, by rw [Token.foldPhrases]⟩

theorem blank {rest : List Char} {out : List Token} (h : Spells rest out) :
    Spells (' ' :: rest) out := by
  obtain ⟨ts, hcut, hfold⟩ := h
  exact ⟨ts, .blank rfl hcut, hfold⟩

/-- Texts spell their tokens one after the other, unless the second goes on with what the first ends
in: a word, a number or the names of a phrase. -/
theorem append {cs rest : List Char} {out out' : List Token} (h : Spells cs out)
    (hrest : Spells rest out')
    (hend : ∀ c ∈ rest.head?, c.isDigit = false ∧ isWordChar c = false)
    (hhead : ∀ text, out'.head? ≠ some (.quote text)) : Spells (cs ++ rest) (out ++ out') := by
  obtain ⟨ts, hcut, hfold⟩ := h
  obtain ⟨us, hcut', hfold'⟩ := hrest
  obtain ⟨hfolded, hspells⟩ := Token.spellsOut_of_foldPhrases hcut.phrase_not_mem hfold
  obtain ⟨hfolded', hspells'⟩ := Token.spellsOut_of_foldPhrases hcut'.phrase_not_mem hfold'
  exact ⟨ts ++ us, hcut.append hcut' hend,
    Token.foldPhrases_of_spellsOut (hfolded.append hfolded' hhead) (hspells.append hspells')⟩

/-- A lexeme stands in front of a text, when its token starts no phrase. -/
theorem cons {lexeme rest : List Char} {t : Token} {out : List Token}
    (ht : t.startsPhrase = false)
    (hcut : ∀ {ts}, Cut rest ts → Cut (lexeme ++ rest) (t :: ts)) (h : Spells rest out) :
    Spells (lexeme ++ rest) (t :: out) := by
  obtain ⟨ts, hrest, hfold⟩ := h
  refine ⟨t :: ts, hcut hrest, ?_⟩
  rw [Token.foldPhrases_cons ht, hfold]
  rfl

/-- A word that stands for a scope or a connective, with a blank behind it. -/
theorem word {lexeme rest : List Char} {t : Token} {out : List Token} (hlexeme : Lexeme t lexeme)
    (ht : (∃ s, t = .scope s) ∨ ∃ c, t = .connective c) (h : Spells rest out) :
    Spells (lexeme ++ ' ' :: rest) (t :: out) := by
  have hstart : t.startsPhrase = false := by
    rcases ht with ⟨s, rfl⟩ | ⟨c, rfl⟩ <;> rfl
  apply cons hstart _ h.blank
  intro ts hcut
  cases hlexeme with
  | word hc hcs hword =>
    have hkeyword := mem_keywords_of_ofWord? (Text.asciiLower_lowercase _) hword
    refine .word hc (List.all_eq_true.mp hcs) hkeyword ?_ hcut
    rintro c ⟨⟩
    rfl
  | symbol hsymbol =>
    have hsign := mem_signs_of_symbol? hsymbol
    rcases ht with ⟨s, rfl⟩ | ⟨c, rfl⟩ <;> simp [signs] at hsign
  | _ => rcases ht with ⟨s, ⟨⟩⟩ | ⟨c, ⟨⟩⟩

/-- **A script in parentheses** spells what it spells alone. -/
theorem group {cs rest : List Char} {out out' : List Token} (h : Spells cs out)
    (hrest : Spells rest out') :
    Spells ('(' :: cs ++ ')' :: rest) (.openParen :: out ++ .closeParen :: out') := by
  have hclose : Spells (')' :: rest) (.closeParen :: out') :=
    .cons rfl (fun hcut => .sign (by decide : ([')'], _) ∈ signs) hcut) hrest
  have hopen : ∀ {cs out}, Spells cs out → Spells ('(' :: cs) (.openParen :: out) :=
    .cons rfl (fun hcut => .sign (by decide : (['('], _) ∈ signs) hcut)
  apply hopen
  apply h.append hclose
  · rintro c ⟨⟩
    exact ⟨rfl, rfl⟩
  · nofun

end Spells

/-! ### Trees under a scope -/

namespace Tree

/-- Where a whole tree stands under a scope, the phrases that stand under no other come under it. -/
theorem placements_eq_map (t : Tree) (around : Option Scope) :
    t.placements around = (t.placements none).map fun q => (q.1, q.2.or around) := by
  induction t generalizing around with
  | phrase p => rfl
  | join c lhs rhs ihl ihr =>
    rw [placements, ihl around, ihr around, ← List.map_append]
    rfl
  | within s inner ih =>
    rw [placements, placements, ih (some s), List.map_map]
    apply List.map_congr_left
    rintro ⟨p, below⟩ -
    cases below <;> rfl

/-- Whether a test of a stat stands under no scope at all. -/
def TestsStatAtTop (t : Tree) : Prop := ∃ p, (Phrase.stat p, none) ∈ t.placements none

/-- **A scope may be put over a tree** whose tests of stats are all in place, unless the scope has no
stats and a test of one would come directly under it. -/
theorem misplacedStat?_some_eq_none_iff {t : Tree} (h : t.misplacedStat? none = none) (s : Scope) :
    t.misplacedStat? (some s) = none ↔
      ¬((s = .encounter ∨ s = .session) ∧ t.TestsStatAtTop) := by
  rw [misplacedStat?_eq_none_iff] at h ⊢
  rw [placements_eq_map]
  constructor
  · rintro hplaced ⟨hs, p, hp⟩
    have hstats := hplaced p s (List.mem_map.mpr ⟨_, hp, rfl⟩)
    rcases hs with rfl | rfl <;> cases hstats
  · intro hno p s' hp
    obtain ⟨⟨q, below⟩, hq, heq⟩ := List.mem_map.mp hp
    cases below with
    | some s'' =>
      cases heq
      exact h p s' hq
    | none =>
      cases heq
      rw [hasStats_iff]
      constructor
      · rintro rfl
        exact hno ⟨Or.inl rfl, p, hq⟩
      · rintro rfl
        exact hno ⟨Or.inr rfl, p, hq⟩

end Tree

/-! ### Scripts -/

theorem parse_eq_ok_iff {script : String} {t : Tree} :
    parse script = .ok t ↔ ∃ out, Spells script.toList out ∧ Tree.ofTokens out = .ok t := by
  constructor
  · intro h
    obtain ⟨out, hout, htree⟩ := exists_of_bind_eq_ok h
    exact ⟨out, ofScript_eq_ok_iff.mp hout, htree⟩
  · rintro ⟨out, hout, htree⟩
    rw [parse, ofScript_eq_ok_iff.mpr hout]
    exact htree

theorem scanFrom_blanks {cs : List Char} (h : cs.all Text.isBlank = true) (position : Nat) :
    scanFrom position cs = .ok [] := by
  induction cs generalizing position with
  | nil => rw [scanFrom]
  | cons c cs ih =>
    rw [List.all_cons, Bool.and_eq_true] at h
    rw [scanFrom_blank h.1, ih h.2]

/-- A blank script is no condition. -/
theorem parse_of_isBlankText {script : String} (h : Text.isBlankText script = true) :
    parse script = .error .noPhrase := by
  have hscan : Token.scan script = .ok [] := scanFrom_blanks h 0
  have hfold : Token.foldPhrases [] = .ok [] := by rw [Token.foldPhrases]
  rw [parse, Token.ofScript, hscan]
  simp only [bind, Except.bind, hfold]
  rfl

/-- A script that can be parsed says what its tree says. -/
theorem evaluate_of_parse {script : String} {t : Tree} (h : parse script = .ok t) (d : GameData) :
    evaluate script d = .ok (t.holds d) := by
  have hfilled : Text.isBlankText script = false := by
    cases hblank : Text.isBlankText script with
    | false => rfl
    | true =>
      rw [parse_of_isBlankText hblank] at h
      cases h
  rw [evaluate, hfilled, h]
  rfl

/-- A script in parentheses. -/
def grouped (script : String) : String := "(" ++ script ++ ")"

/-- Two scripts in parentheses with a connective between them. -/
def joined (c : Connective) (a b : String) : String :=
  grouped a ++ " " ++ c.word ++ " " ++ grouped b

/-- A script in parentheses behind a word that stands for a scope. -/
def under (word : List Char) (a : String) : String := String.ofList word ++ " " ++ grouped a

section Joined

variable {a b : String} {ta tb : Tree}

theorem parse_grouped (ha : parse a = .ok ta) : parse (grouped a) = .ok ta := by
  obtain ⟨out, hspells, htree⟩ := parse_eq_ok_iff.mp ha
  obtain ⟨hsteps, hrest⟩ := Tree.ofTokens_eq_ok_iff.mp htree
  have htext : (grouped a).toList = '(' :: a.toList ++ ')' :: [] := by simp [grouped]
  refine parse_eq_ok_iff.mpr ⟨_, htext ▸ hspells.group .nil,
    Tree.ofTokens_eq_ok_iff.mpr ⟨?_, hrest⟩⟩
  rw [ofTokens_group hsteps]
  exact congrArg Except.ok (List.append_nil _)

/-- Scripts that are joined give the join of their trees, unless it is too deep. -/
theorem parse_joined (ha : parse a = .ok ta) (hb : parse b = .ok tb) (c : Connective)
    (hdepth : (Tree.join c ta tb).depth ≤ maxDepth) : parse (joined c a b) = .ok (.join c ta tb) := by
  obtain ⟨outa, hspellsa, htreea⟩ := parse_eq_ok_iff.mp ha
  obtain ⟨outb, hspellsb, htreeb⟩ := parse_eq_ok_iff.mp hb
  obtain ⟨hstepsa, -, hplaceda⟩ := Tree.ofTokens_eq_ok_iff.mp htreea
  obtain ⟨hstepsb, -, hplacedb⟩ := Tree.ofTokens_eq_ok_iff.mp htreeb
  have htext : (joined c a b).toList = '(' :: a.toList ++ ')' :: ' ' ::
      (c.word.toList ++ ' ' :: ('(' :: b.toList ++ ')' :: [])) := by
    simp [joined, grouped]
  have hword : Lexeme (.connective c) c.word.toList := Token.lexeme_spelling trivial
  have hright := Spells.word hword (Or.inr ⟨c, rfl⟩) (hspellsb.group .nil)
  have hplaced : (Tree.join c ta tb).misplacedStat? none = none := by
    rw [Tree.misplacedStat?, hplaceda, hplacedb]
    rfl
  refine parse_eq_ok_iff.mpr ⟨_, htext ▸ hspellsa.group hright.blank,
    Tree.ofTokens_eq_ok_iff.mpr ⟨?_, hdepth, hplaced⟩⟩
  rw [ofTokens_group hstepsa, ofTokens_cons (read_connective [] c), ofTokens_group hstepsb,
    Tree.postorder, List.append_assoc]
  rfl

/-- What becomes of a script under a scope, unless it is too deep. -/
theorem parse_under (ha : parse a = .ok ta) {word : List Char} {s : Scope}
    (hword : Lexeme (.scope s) word) (hdepth : (Tree.within s ta).depth ≤ maxDepth) :
    parse (under word a) = match ta.misplacedStat? (some s) with
      | some e => .error e
      | none => .ok (.within s ta) := by
  obtain ⟨out, hspells, htree⟩ := parse_eq_ok_iff.mp ha
  obtain ⟨hsteps, -, -⟩ := Tree.ofTokens_eq_ok_iff.mp htree
  have htext : (under word a).toList = word ++ ' ' :: ('(' :: a.toList ++ ')' :: []) := by
    simp [under, grouped]
  have hscript : Token.ofScript (under word a) =
      .ok (.scope s :: (.openParen :: out ++ .closeParen :: [])) :=
    ofScript_eq_ok_iff.mpr (htext ▸ Spells.word hword (Or.inl ⟨s, rfl⟩) (hspells.group .nil))
  have hunder : Steps.ofTokens [] (.scope s :: (.openParen :: out ++ .closeParen :: [])) =
      .ok (Tree.within s ta).postorder := by
    rw [ofTokens_cons (read_scope [] s), ofTokens_group hsteps]
    rfl
  rw [parse, hscript]
  have hresult := Tree.ofTokens_of_steps hunder
  rw [if_neg (Nat.not_lt.mpr hdepth)] at hresult
  exact hresult

end Joined

/-- **Grouping law.** Scripts that are accepted, with trees at most 255 levels deep, mean in
parentheses what they mean alone. Joined by a connective they are the join of their trees, and hold
when both of them do or when one does. Behind the word for a scope a script is its tree under that
scope, but for a script that tests a stat outside every scope of its own: it is refused under an
encounter or a session, and only there. -/
theorem grouping_law {a b : String} {ta tb : Tree} (ha : parse a = .ok ta) (hb : parse b = .ok tb)
    (hdeptha : ta.depth ≤ 255) (hdepthb : tb.depth ≤ 255) :
    parse (grouped a) = .ok ta ∧
      (∀ c, parse (joined c a b) = .ok (.join c ta tb)) ∧
      (∀ word s, Lexeme (.scope s) word →
        (¬((s = .encounter ∨ s = .session) ∧ ta.TestsStatAtTop) →
          parse (under word a) = .ok (.within s ta)) ∧
        ((s = .encounter ∨ s = .session) ∧ ta.TestsStatAtTop →
          ∃ e, parse (under word a) = .error e ∧ e.isLexing = true)) ∧
      ∀ d, ∃ va vb, evaluate a d = .ok va ∧ evaluate b d = .ok vb ∧
        evaluate (joined .and a b) d = .ok (va && vb) ∧
        evaluate (joined .or a b) d = .ok (va || vb) := by
  have hjoined : ∀ c, parse (joined c a b) = .ok (.join c ta tb) := by
    intro c
    apply parse_joined ha hb c
    rw [Tree.depth, maxDepth]
    omega
  have hplaced : ta.misplacedStat? none = none := by
    obtain ⟨out, -, htree⟩ := parse_eq_ok_iff.mp ha
    exact (Tree.ofTokens_eq_ok_iff.mp htree).2.2
  refine ⟨parse_grouped ha, hjoined, ?_, ?_⟩
  · intro word s hword
    have hdepth : (Tree.within s ta).depth ≤ maxDepth := Nat.succ_le_succ hdeptha
    have hunder := parse_under ha hword hdepth
    have hfits := Tree.misplacedStat?_some_eq_none_iff hplaced s
    constructor
    · intro hno
      rw [hunder, hfits.mpr hno]
    · intro hat
      cases hm : ta.misplacedStat? (some s) with
      | none => exact absurd hat (hfits.mp hm)
      | some e =>
        rw [hm] at hunder
        exact ⟨e, hunder, Tree.isLexing_of_misplacedStat? hm⟩
  · intro d
    exact ⟨ta.holds d, tb.holds d, evaluate_of_parse ha d, evaluate_of_parse hb d,
      evaluate_of_parse (hjoined .and) d, evaluate_of_parse (hjoined .or) d⟩

/-- A script with a comma and with parentheses in a name, and one that is accepted with its `or` in
front: neither reaches out of its parentheses. The second tests a stat outside every scope, so it is
refused under an encounter. -/
theorem grouping_law_debts :
    let inn := "character has trait \"Barred (twice)\", session has trait \"Inn\""
    let debts := "or MONEY < -5 trait \"Poor\""
    let tinn : Tree := .join .and
      (.within .character (.phrase (.traits ⟨false, ["Barred (twice)"]⟩)))
      (.within .session (.phrase (.traits ⟨false, ["Inn"]⟩)))
    let tdebts : Tree := .join .or
      (.phrase (.stat ⟨.money, .less, ⟨-5, by decide, by decide⟩⟩))
      (.phrase (.traits ⟨false, ["Poor"]⟩))
    parse (joined .and inn debts) = .ok (.join .and tinn tdebts) ∧
      parse (under "Storyboard".toList inn) = .ok (.within .encounter tinn) ∧
      ∃ e, parse (under "Storyboard".toList debts) = .error e ∧ e.isLexing = true := by
  intro inn debts tinn tdebts
  have hread : ∀ {script t}, (parse script).toOption = some t → parse script = .ok t := by
    intro script t h
    cases hparse : parse script with
    | error e => rw [hparse] at h; cases h
    | ok u => rw [hparse] at h; cases h; rfl
  have hinn : parse inn = .ok tinn := hread (by decide +kernel)
  have hdebts : parse debts = .ok tdebts := hread (by decide +kernel)
  have hword : Lexeme (.scope .encounter) "Storyboard".toList :=
    .word (by decide +kernel) (by decide +kernel) (by decide +kernel)
  obtain ⟨-, hjoined, hunder, -⟩ := grouping_law hinn hdebts (by decide) (by decide)
  obtain ⟨-, -, hrefused, -⟩ := grouping_law hdebts hinn (by decide) (by decide)
  refine ⟨hjoined .and, (hunder _ _ hword).1 ?_, (hrefused _ _ hword).2 ?_⟩
  · rintro ⟨-, p, hp⟩
    simp [tinn, Tree.placements] at hp
  · exact ⟨Or.inl rfl, _, List.mem_cons_self⟩

end Adventure.Condition

import Adventure.Proofs.Condition.Reading

/-!
Which rows of tokens are accepted.

The two passes count operands and never look at where they stand: phrases are written down as they
come, and a connective takes the two newest trees. So rows such as `A B and` are accepted although
they are no conditions. What the passes miss is exactly that operands and joiners alternate: of the
rows that are accepted, the well-formed conditions are those that pass `alternates`, which looks at
neighbours only.

Behind this stands the grammar itself: a row is a well-formed condition exactly if it alternates and
the first pass gets through it (`isCondition_iff`). An operand and a clause are cut off the front of
the row, and what the pass lets wait, by `Clause.run_tokens`, says what may follow them.
-/

namespace Adventure.Condition

open Steps

/-- Whether operands and joiners alternate in a row of tokens, of which an operand is the first if it
is `wanted`: no joiner or end without an operand before it, and no operand right after another. -/
def alternates (wanted : Bool) : List Token → Bool
  | [] => !wanted
  | t :: ts =>
    match wanted, t with
    | true, .phrase _ => alternates false ts
    | true, .scope _ => alternates true ts
    | true, .openParen => alternates true ts
    | false, .connective _ => alternates true ts
    | false, .comma => alternates true ts
    | false, .closeParen => alternates false ts
    | _, _ => false

theorem alternates_joiner (j : Joiner) (ts : List Token) :
    alternates false (j.token :: ts) = alternates true ts := by
  cases j <;> rfl

/-- Where an operand is wanted, one starts. -/
theorem operand_of_alternates {ts : List Token} (h : alternates true ts = true) :
    (∃ p rest, ts = .phrase p :: rest ∧ alternates false rest = true) ∨
      (∃ s rest, ts = .scope s :: rest ∧ alternates true rest = true) ∨
      ∃ rest, ts = .openParen :: rest ∧ alternates true rest = true := by
  cases ts with
  | nil => cases h
  | cons t rest =>
    cases t with
    | phrase p => exact Or.inl ⟨p, rest, rfl, h⟩
    | scope s => exact Or.inr (Or.inl ⟨s, rest, rfl, h⟩)
    | openParen => exact Or.inr (Or.inr ⟨rest, rfl, h⟩)
    | _ => cases h

/-- Behind an operand comes a joiner, or the clause around it ends. -/
theorem joiner_of_alternates {ts : List Token} (h : alternates false ts = true) :
    ts = [] ∨ (∃ rest, ts = .closeParen :: rest) ∨
      ∃ j rest, ts = Joiner.token j :: rest ∧ alternates true rest = true := by
  cases ts with
  | nil => exact Or.inl rfl
  | cons t rest =>
    cases t with
    | closeParen => exact Or.inr (Or.inl ⟨rest, rfl⟩)
    | connective k => exact Or.inr (Or.inr ⟨.connective k, rest, rfl, h⟩)
    | comma => exact Or.inr (Or.inr ⟨.comma, rest, rfl, h⟩)
    | _ => cases h

/-! ### Conditions alternate -/

mutual

theorem Operand.alternates_tokens (o : Operand) (rest : List Token) :
    alternates true (o.tokens ++ rest) = alternates false rest := by
  match o with
  | .phrase p =>
    rw [Operand.tokens]
    rfl
  | .group c =>
    rw [Operand.tokens]
    have hc := Clause.alternates_tokens c (.closeParen :: rest)
    simp only [List.cons_append, List.append_assoc, List.nil_append]
    exact hc
  | .within s c =>
    rw [Operand.tokens]
    exact Clause.alternates_tokens c rest

theorem Clause.alternates_tokens (c : Clause) (rest : List Token) :
    alternates true (c.tokens ++ rest) = alternates false rest := by
  match c with
  | .first o =>
    rw [Clause.tokens]
    exact Operand.alternates_tokens o rest
  | .more c j o =>
    rw [Clause.tokens, List.append_assoc, Clause.alternates_tokens c, List.cons_append,
      alternates_joiner]
    exact Operand.alternates_tokens o rest

end

theorem alternates_of_isCondition {ts : List Token} (h : IsCondition ts) :
    alternates true ts = true := by
  obtain ⟨c, -, rfl⟩ := h
  have hc := c.alternates_tokens []
  rw [List.append_nil] at hc
  rw [hc]
  rfl

/-! ### What may follow a clause -/

/-- Whether the first pass gets through a row of tokens. -/
def Passes (w : List Waiting) (ts : List Token) : Prop := ∃ steps, ofTokens w ts = .ok steps

/-- What is behind a run is passed when the whole row is. -/
theorem Passes.of_run {w w₁ : List Waiting} {ts us : List Token} {e : List Step}
    (h : Passes w (ts ++ us)) (hrun : run w ts = .ok (e, w₁)) : Passes w₁ us := by
  obtain ⟨steps, h⟩ := h
  rw [ofTokens_append hrun] at h
  cases hus : ofTokens w₁ us with
  | error x =>
    rw [hus] at h
    cases h
  | ok s => exact ⟨s, hus⟩

theorem Passes.of_read {w w₁ : List Waiting} {t : Token} {ts : List Token} {e : List Step}
    (h : Passes w (t :: ts)) (hread : read w t = .ok (e, w₁)) : Passes w₁ ts := by
  have hrow : Passes w ([t] ++ ts) := h
  exact hrow.of_run (run_singleton hread)

/-- A row that stops the pass at its first token is not passed. -/
theorem not_passes_cons {w : List Waiting} {t : Token} {ts : List Token} {x : Error}
    (h : read w t = .error x) : ¬Passes w (t :: ts) := by
  rintro ⟨steps, hs⟩
  simp [ofTokens, h, bind, Except.bind] at hs

/-- Where a clause can end: at the end of the row, at a closing parenthesis, or at a comma that ends a
scope around the clause, not one inside it. -/
def Clause.EndsAt (c : Clause) (rest : List Token) : Prop :=
  rest = [] ∨ (∃ ts, rest = .closeParen :: ts) ∨ c.isClosed = true ∧ ∃ ts, rest = .comma :: ts

theorem closeParen_eq_error {ws : List Waiting} (h : .openParen ∉ ws) :
    closeParen ws = .error .strayClose := by
  induction ws with
  | nil => rfl
  | cons x ws ih =>
    rw [List.mem_cons, not_or] at h
    have hw := ih h.2
    cases x with
    | openParen => exact absurd rfl h.1
    | connective c => simp only [closeParen, hw, bind, Except.bind]
    | scope s => simp only [closeParen, hw, bind, Except.bind]

theorem finish_append_openParen {ws : List Waiting} (h : .openParen ∉ ws) (rest : List Waiting) :
    finish (ws ++ .openParen :: rest) = .error .unclosedOpen := by
  induction ws with
  | nil => rfl
  | cons x ws ih =>
    rw [List.mem_cons, not_or] at h
    have hw := ih h.2
    cases x with
    | openParen => exact absurd rfl h.1
    | connective c => simp only [List.cons_append, finish, hw, bind, Except.bind]
    | scope s => simp only [List.cons_append, finish, hw, bind, Except.bind]

/-- A comma that meets no scope in its parentheses is refused. -/
theorem read_comma_eq_error (cs : List Connective) {w : List Waiting}
    (h : w = [] ∨ ∃ rest, w = .openParen :: rest) :
    read (cs.map .connective ++ w) .comma = .error .commaWithoutScope := by
  have hclose : closeClause (cs.map .connective ++ w) = .error .commaWithoutScope := by
    induction cs with
    | nil =>
      rcases h with rfl | ⟨rest, rfl⟩
      · rfl
      · rfl
    | cons c cs ih => simp only [List.map_cons, List.cons_append, closeClause, ih, bind, Except.bind]
  rw [Steps.read, hclose]
  rfl

/-- A clause in parentheses is followed by the parenthesis that closes them. -/
theorem Clause.closeParen_of_passes {c : Clause} (hc : c.Proper) {w : List Waiting}
    {rest : List Token} (hend : c.EndsAt rest)
    (h : Passes (.openParen :: w) (c.tokens ++ rest)) : ∃ rest', rest = .closeParen :: rest' := by
  have hpass := h.of_run (run_tokens hc (by simp [Barrier]))
  rcases hend with rfl | hclose | ⟨hclosed, ts, rfl⟩
  · obtain ⟨steps, hs⟩ := hpass
    rw [ofTokens, finish_append_openParen c.openParen_not_mem_pending] at hs
    cases hs
  · exact hclose
  · rw [pending_of_isClosed hclosed] at hpass
    exact absurd hpass (not_passes_cons (read_comma_eq_error _ (Or.inr ⟨w, rfl⟩)))

/-- A clause that is not in parentheses is followed by nothing. -/
theorem Clause.nil_of_passes {c : Clause} (hc : c.Proper) {rest : List Token}
    (hend : c.EndsAt rest) (h : Passes [] (c.tokens ++ rest)) : rest = [] := by
  have hpass := h.of_run (run_tokens hc (by simp [Barrier]))
  rcases hend with hnil | ⟨ts, rfl⟩ | ⟨hclosed, ts, rfl⟩
  · exact hnil
  · rw [List.append_nil] at hpass
    exact absurd hpass (not_passes_cons (closeParen_eq_error c.openParen_not_mem_pending))
  · rw [pending_of_isClosed hclosed] at hpass
    exact absurd hpass (not_passes_cons (read_comma_eq_error _ (Or.inl rfl)))

/-! ### Cutting a row into operands -/

/-- Whether `rest` may stand behind an operand: behind a scope only where its clause can end. -/
def Operand.EndsAt (o : Operand) (rest : List Token) : Prop :=
  ∀ s c, o = .within s c → c.EndsAt rest

theorem Operand.length_lt_of_tokens_append (o : Operand) {rest ts : List Token}
    (h : o.tokens ++ rest = ts) : rest.length < ts.length := by
  have hpos : 0 < o.tokens.length := by cases o <;> simp [tokens]
  rw [← h, List.length_append]
  omega

/-- A joiner that the last operand does not admit ends the clause: it is a comma behind a phrase or a
closing parenthesis. -/
theorem Clause.endsAt_of_not_admits {c : Clause} {j : Joiner} {ts : List Token}
    (hend : c.last.EndsAt (j.token :: ts)) (h : ¬c.last.Admits j) : c.EndsAt (j.token :: ts) := by
  refine Or.inr (Or.inr ?_)
  unfold isClosed
  cases hl : c.last with
  | phrase p =>
    rw [hl] at h
    cases j with
    | connective k => exact absurd nofun h
    | comma => exact ⟨rfl, ts, rfl⟩
  | group d =>
    rw [hl] at h
    cases j with
    | connective k => exact absurd nofun h
    | comma => exact ⟨rfl, ts, rfl⟩
  | within s d =>
    rw [hl] at h
    rcases hend s d hl with hnil | ⟨us, hclose⟩ | ⟨hclosed, us, hcomma⟩
    · cases hnil
    · cases j <;> cases hclose
    · cases j with
      | connective k => cases hcomma
      | comma => exact absurd ⟨rfl, hclosed⟩ h

mutual

/-- An operand stands at the front of every row that is passed and in which one is wanted. -/
theorem exists_operand (ts : List Token) {w : List Waiting} (ha : alternates true ts = true)
    (hp : Passes w ts) :
    ∃ (o : Operand) (rest : List Token), o.Proper ∧ o.tokens ++ rest = ts ∧
      alternates false rest = true ∧ o.EndsAt rest := by
  rcases operand_of_alternates ha with ⟨p, rest, rfl, hrest⟩ | ⟨s, us, rfl, hus⟩ | ⟨us, rfl, hus⟩
  · exact ⟨.phrase p, rest, trivial, by simp [Operand.tokens], hrest, nofun⟩
  · obtain ⟨c, rest, hc, rfl, hrest, hend⟩ :=
      exists_clause us hus (by simp [Barrier]) (hp.of_read (read_scope w s))
    refine ⟨.within s c, rest, hc, by simp [Operand.tokens], hrest, ?_⟩
    rintro s' c' h
    cases h
    exact hend
  · have hpus := hp.of_read (read_openParen w)
    obtain ⟨c, rest, hc, rfl, hrest, hend⟩ := exists_clause us hus (by simp [Barrier]) hpus
    obtain ⟨rest, rfl⟩ := Clause.closeParen_of_passes hc hend hpus
    exact ⟨.group c, rest, hc, by simp [Operand.tokens], hrest, nofun⟩
termination_by (ts.length, 0)

/-- A clause stands there as well, as long as it can be. -/
theorem exists_clause (ts : List Token) {w : List Waiting} (ha : alternates true ts = true)
    (hw : Barrier w) (hp : Passes w ts) :
    ∃ (c : Clause) (rest : List Token), c.Proper ∧ c.tokens ++ rest = ts ∧
      alternates false rest = true ∧ c.EndsAt rest := by
  obtain ⟨o, rest, ho, hts, hrest, hend⟩ := exists_operand ts ha hp
  have hfirst : (Clause.first o).tokens ++ rest = ts := by rwa [Clause.tokens]
  have hlength : rest.length < ts.length := o.length_lt_of_tokens_append hts
  rw [← hfirst] at hp
  have hlonger := exists_longer (.first o) rest ho hrest hend hw hp
  rwa [hfirst] at hlonger
termination_by (ts.length, 1)

/-- A clause and what stands behind it make up a clause that is as long as it can be. -/
theorem exists_longer (c : Clause) (ts : List Token) {w : List Waiting} (hc : c.Proper)
    (ha : alternates false ts = true) (hend : c.last.EndsAt ts) (hw : Barrier w)
    (hp : Passes w (c.tokens ++ ts)) :
    ∃ (d : Clause) (rest : List Token), d.Proper ∧ d.tokens ++ rest = c.tokens ++ ts ∧
      alternates false rest = true ∧ d.EndsAt rest := by
  rcases joiner_of_alternates ha with rfl | hclose | ⟨j, us, rfl, hus⟩
  · exact ⟨c, [], hc, rfl, ha, Or.inl rfl⟩
  · exact ⟨c, ts, hc, rfl, ha, Or.inr (Or.inl hclose)⟩
  by_cases hj : c.last.Admits j
  · -- The joiner goes on with the clause.
    obtain ⟨e, hread, -⟩ := read_joiner hj hw
    have hpus := (hp.of_run (Clause.run_tokens hc hw)).of_read hread
    obtain ⟨o, rest, ho, hts, hrest, hoend⟩ := exists_operand us hus hpus
    have hmore : (Clause.more c j o).tokens ++ rest = c.tokens ++ j.token :: us := by
      rw [Clause.tokens, List.append_assoc, List.cons_append, hts]
    have hlength : rest.length < us.length := o.length_lt_of_tokens_append hts
    rw [← hmore] at hp ⊢
    exact exists_longer (.more c j o) rest ⟨hc, hj, ho⟩ hrest hoend hw hp
  · -- It is a comma that ends a scope further out.
    exact ⟨c, _, hc, rfl, ha, Clause.endsAt_of_not_admits hend hj⟩
termination_by (ts.length, 2)

end

/-- **The well-formed conditions** are the rows that alternate and that the first pass gets
through. -/
theorem isCondition_iff {ts : List Token} :
    IsCondition ts ↔ alternates true ts = true ∧ Passes [] ts := by
  constructor
  · intro h
    constructor
    · exact alternates_of_isCondition h
    · obtain ⟨c, hc, rfl⟩ := h
      exact ⟨c.tree.postorder, Clause.steps_tokens hc⟩
  · rintro ⟨ha, hp⟩
    obtain ⟨c, rest, hc, rfl, -, hend⟩ := exists_clause ts ha (by simp [Barrier]) hp
    rw [Clause.nil_of_passes hc hend hp, List.append_nil]
    exact ⟨c, hc, rfl⟩

/-- **Which accepted rows are conditions.** Both passes accept the row of a tree; it is a well-formed
condition exactly if operands and joiners alternate in it. -/
theorem isCondition_iff_of_accepted {ts : List Token} {t : Tree} (h : Tree.ofTokens ts = .ok t) :
    IsCondition ts ↔ alternates true ts = true := by
  rw [isCondition_iff]
  exact and_iff_left ⟨t.postorder, Tree.steps_of_ofTokens h⟩

/-- A condition with parentheses, two scopes and a comma is accepted, and its row alternates. -/
theorem isCondition_of_accepted_scopes :
    Tree.ofTokens [.openParen, .phrase (.ofTrait "A"), .connective .or, .scope .party,
        .phrase (.ofTrait "B"), .closeParen, .connective .and, .scope .character,
        .phrase (.ofTrait "C"), .comma, .scope .session, .phrase (.ofTrait "D")] =
      .ok (.join .and
        (.join .and
          (.join .or (.phrase (.ofTrait "A")) (.within .party (.phrase (.ofTrait "B"))))
          (.within .character (.phrase (.ofTrait "C"))))
        (.within .session (.phrase (.ofTrait "D")))) ∧
      IsCondition [.openParen, .phrase (.ofTrait "A"), .connective .or, .scope .party,
        .phrase (.ofTrait "B"), .closeParen, .connective .and, .scope .character,
        .phrase (.ofTrait "C"), .comma, .scope .session, .phrase (.ofTrait "D")] :=
  ⟨rfl, (isCondition_iff_of_accepted rfl).mpr rfl⟩

/-- **Rows that are accepted and are no conditions**: a connective behind both operands, one before
them, a scope with nothing behind it, and empty parentheses. -/
theorem ofTokens_accepts_disorder :
    let a := Token.phrase (.ofTrait "A")
    let b := Token.phrase (.ofTrait "B")
    ∀ ts ∈ [[a, b, .connective .and], [.connective .or, a, b], [a, .scope .party],
      [.openParen, .closeParen, a]], (∃ t, Tree.ofTokens ts = .ok t) ∧ ¬IsCondition ts := by
  intro a b ts hts
  have haccepted : ∃ t, Tree.ofTokens ts = .ok t := by
    simp only [List.mem_cons, List.not_mem_nil, or_false] at hts
    rcases hts with rfl | rfl | rfl | rfl
    · exact ⟨.join .and (.phrase (.ofTrait "A")) (.phrase (.ofTrait "B")), rfl⟩
    · exact ⟨.join .or (.phrase (.ofTrait "A")) (.phrase (.ofTrait "B")), rfl⟩
    · exact ⟨.within .party (.phrase (.ofTrait "A")), rfl⟩
    · exact ⟨.phrase (.ofTrait "A"), rfl⟩
  have hdisorder : alternates true ts = false := by
    simp only [List.mem_cons, List.not_mem_nil, or_false] at hts
    rcases hts with rfl | rfl | rfl | rfl <;> rfl
  constructor
  · exact haccepted
  · intro hc
    rw [alternates_of_isCondition hc] at hdisorder
    cases hdisorder

end Adventure.Condition

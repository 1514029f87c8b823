import Adventure.Proofs.Record.Fields
import Adventure.Proofs.Record.Ron.Documented

/-!
Game data survives its text form. All data has texts, every text of it is read as it, and no text is
read in which a field is there twice or a stat is out of range (`GameData.ofRon?_texts`). Of the
format nothing is used but what is documented of it.
-/

namespace Adventure

open Record Record.Format Record.Ron

variable {F : Format} {G : F.Grammar}

/-! ### Writing game data -/

/-- A score as a whole number. -/
def Score.toValue (G : F.Grammar) (x : Score) : F.Value :=
  G.whole (if x.val < 0 then some .minus else none) x.val.natAbs

/-- Texts in a list. -/
def Record.textsToValue (G : F.Grammar) (texts : List String) : F.Value :=
  G.list (texts.map G.text)

/-- A stat block with all its fields. -/
def StatBlock.toValue (G : F.Grammar) (b : StatBlock) : F.Value :=
  G.record none (Stat.all.map fun s => (s.fieldName, (b.get s).toValue G))

/-- Thresholds with all their fields. -/
def Thresholds.toValue (G : F.Grammar) (t : Thresholds) : F.Value :=
  G.record none [("physical", t.physical.toValue G), ("mental", t.mental.toValue G),
    ("debt", t.debt.toValue G)]

/-- A character with all its fields. -/
def Character.toValue (G : F.Grammar) (c : Character) : F.Value :=
  G.record none [("name", G.text c.name), ("title", G.text c.title), ("stats", c.stats.toValue G),
    ("traits", textsToValue G c.traits), ("thresholds", c.thresholds.toValue G)]

/-- Game data with all its fields. -/
def GameData.toValue (G : F.Grammar) (d : GameData) : F.Value :=
  G.record none [("characters", G.list (d.characters.map (Character.toValue G))),
    ("encounter_traits", textsToValue G d.encounterTraits),
    ("session_traits", textsToValue G d.sessionTraits)]

/-! ### What is written records the data -/

namespace Record

theorem ListOf.map {α : Type} {recordedAs : α → F.Value → Prop} {toValue : α → F.Value}
    (h : ∀ x, recordedAs x (toValue x)) (xs : List α) :
    ListOf G recordedAs xs (G.list (xs.map toValue)) :=
  ⟨_, rfl, by rw [List.forall₂_map_right_iff]; exact List.forall₂_same.mpr fun x _ => h x⟩

theorem listOf_textsToValue (texts : List String) :
    ListOf G (TextAs G) texts (textsToValue G texts) := by
  have htext : ∀ s, TextAs G s (G.text s) := fun _ => rfl
  exact .map htext texts

end Record

theorem Score.signed_natAbs (x : Score) :
    Grammar.signed (if x.val < 0 then some .minus else none) x.val.natAbs = x.val := by
  unfold Grammar.signed
  by_cases h : x.val < 0
  · rw [if_pos h, if_pos rfl]
    omega
  · rw [if_neg h, if_neg (by decide)]
    omega

theorem Score.recordedAs (x : Score) : ScoreAs G x (x.toValue G) :=
  ⟨_, _, rfl, x.signed_natAbs⟩

theorem StatBlock.recordedAs (b : StatBlock) : b.RecordedAs G (b.toValue G) := by
  refine ⟨_, Or.inl rfl, fun s => .of_mem ?_ (List.mem_map_of_mem (Stat.mem_all s))
    (b.get s).recordedAs⟩
  have hnodup : (Stat.all.map Stat.fieldName).Nodup := by decide
  rw [List.map_map]
  exact hnodup

theorem Thresholds.recordedAs (t : Thresholds) : t.RecordedAs G (t.toValue G) :=
  ⟨_, Or.inl rfl, .of_mem (by simp) (by simp) t.physical.recordedAs,
    .of_mem (by simp) (by simp) t.mental.recordedAs, .of_mem (by simp) (by simp) t.debt.recordedAs⟩

theorem Character.recordedAs (c : Character) : c.RecordedAs G (c.toValue G) :=
  ⟨_, Or.inl rfl, .of_mem (by simp) (by simp) rfl, .of_mem (by simp) (by simp) rfl,
    .of_mem (by simp) (by simp) c.stats.recordedAs,
    .of_mem (by simp) (by simp) (listOf_textsToValue c.traits),
    .of_mem (by simp) (by simp) c.thresholds.recordedAs⟩

theorem GameData.recordedAs (d : GameData) : d.RecordedAs G (d.toValue G) :=
  ⟨_, Or.inl rfl, .of_mem (by simp) (by simp) (.map Character.recordedAs d.characters),
    .of_mem (by simp) (by simp) (listOf_textsToValue d.encounterTraits),
    .of_mem (by simp) (by simp) (listOf_textsToValue d.sessionTraits)⟩

/-! ### What is written is plain -/

theorem Score.plain (x : Score) (k : Nat) : G.Plain k (x.toValue G) := .score x x.signed_natAbs k

theorem Record.plain_texts (texts : List String) (k : Nat) :
    G.Plain (k + 1) (textsToValue G texts) := by
  apply Grammar.Plain.list
  intro v hv
  obtain ⟨s, -, rfl⟩ := List.mem_map.mp hv
  exact .text s k

theorem Stat.isIdentifier (s : Stat) : Grammar.IsIdentifier s.fieldName := by cases s <;> decide

theorem StatBlock.plain (b : StatBlock) (k : Nat) : G.Plain (k + 1) (b.toValue G) := by
  apply Grammar.Plain.record
  · intro e he
    obtain ⟨s, -, rfl⟩ := List.mem_map.mp he
    exact s.isIdentifier
  · intro e he
    obtain ⟨s, -, rfl⟩ := List.mem_map.mp he
    exact (b.get s).plain k

theorem Thresholds.plain (t : Thresholds) (k : Nat) : G.Plain (k + 1) (t.toValue G) := by
  apply Grammar.Plain.record
  · simp only [List.forall_mem_cons]
    exact ⟨by decide, by decide, by decide, fun _ h => by cases h⟩
  · simp only [List.forall_mem_cons]
    exact ⟨t.physical.plain k, t.mental.plain k, t.debt.plain k, fun _ h => by cases h⟩

theorem Character.plain (c : Character) (k : Nat) : G.Plain (k + 2) (c.toValue G) := by
  apply Grammar.Plain.record
  · simp only [List.forall_mem_cons]
    exact ⟨by decide, by decide, by decide, by decide, by decide, fun _ h => by cases h⟩
  · simp only [List.forall_mem_cons]
    exact ⟨.text c.name _, .text c.title _, c.stats.plain k, plain_texts c.traits k,
      c.thresholds.plain k, fun _ h => by cases h⟩

namespace GameData

theorem plain (d : GameData) (k : Nat) : G.Plain (k + 4) (d.toValue G) := by
  have hcharacters : G.Plain (k + 3) (G.list (d.characters.map (Character.toValue G))) := by
    apply Grammar.Plain.list
    intro v hv
    obtain ⟨c, -, rfl⟩ := List.mem_map.mp hv
    exact c.plain k
  apply Grammar.Plain.record
  · simp only [List.forall_mem_cons]
    exact ⟨by decide, by decide, by decide, fun _ h => by cases h⟩
  · simp only [List.forall_mem_cons]
    exact ⟨hcharacters, plain_texts d.encounterTraits (k + 2), plain_texts d.sessionTraits (k + 2),
      fun _ h => by cases h⟩

/-! ### Texts of game data -/

/-- A text of game data: of a value that records it. -/
def IsTextOf (G : F.Grammar) (d : GameData) (s : String) : Prop :=
  ∃ v, d.RecordedAs G v ∧ G.Spells s v

/-- **Game data survives its text form,** with whatever reads RON as documented. All data has texts,
and every text of it is read as it, with its fields in any order, among fields of other names and
without those that hold their defaults. A text in which a field is there twice or a stat is out of
range is not read, whatever else is in it. -/
theorem ofRon?_texts [Formats] {G : Formats.ron.Grammar} (doc : G.Documented) :
    (∀ d, ∃ s, IsTextOf G d s) ∧ (∀ d s, IsTextOf G d s → ofRon? s = some d) ∧
      ∀ v s, G.Spells s v → Faulty G v → ofRon? s = none := by
  refine ⟨fun d => ?_, fun d s h => ?_, fun v s hs hv => ?_⟩
  · obtain ⟨s, hs⟩ := doc.spelled (d.plain 0)
    exact ⟨s, d.toValue G, d.recordedAs, hs⟩
  · obtain ⟨v, hv, hs⟩ := h
    rw [ofRon?, doc.parse hs]
    exact hv.read? doc
  · rw [ofRon?, doc.parse hs]
    exact read?_faulty doc hv

/-- With RON as the programs read it: a field of another name is skipped, and neither a list that is
there twice nor more money than a score can hold is read. -/
theorem ofRon?_texts_night :
    Ron.grammar.Documented ∧
      ofRon? "(x: true, session_traits: [\"Night\"])" = some { sessionTraits := ["Night"] } ∧
      ofRon? "(session_traits: [], session_traits: [])" = none ∧
      ofRon? "(characters: [(stats: (money: 2147483648))])" = none := by
  have hblank : IsGap [' '] := .blank rfl .nil
  have hx : SpellsName "x" "x".toList := .plain rfl rfl rfl
  have hsession : SpellsName "session_traits" "session_traits".toList := .plain rfl rfl rfl
  have hcharacters : SpellsName "characters" "characters".toList := .plain rfl rfl rfl
  have hstats : SpellsName "stats" "stats".toList := .plain rfl rfl rfl
  have hmoney : SpellsName "money" "money".toList := .plain rfl rfl rfl
  obtain ⟨-, hread, hrefused⟩ := ofRon?_texts (G := grammar) documented
  refine ⟨documented, hread _ _ ?_, hrefused
    (.record none [("session_traits", .list []), ("session_traits", .list [])]) _ ?_ ?_,
    hrefused (.record none [("characters", .list [.record none [("stats",
      .record none [("money", .number (.ofWhole none 2147483648))])]])]) _ ?_ ?_⟩
  · have hnight : SpellsInside "Night".toList "Night".toList := by
      repeat' first | exact .nil | apply SpellsInside.plain (by decide) (by decide)
    have hlist : Written (.list [.text "Night"]) 126 "[\"Night\"]".toList :=
      .list (.last .nil (Written.text (.quoted hnight)) .nil)
    let fields : List (String × Value) :=
      [("x", .bool true), ("session_traits", .list [.text "Night"])]
    have hwritten : Written (.record none fields) 128 _ :=
      .record .none (.more .nil (.intro hx .nil hblank .true) .nil
        (.last hblank (.intro hsession .nil hblank hlist) .nil))
    have hothers : ∀ e ∈ fields, e.1 ≠ "characters" ∧ e.1 ≠ "encounter_traits" := by simp [fields]
    have hbefore : ∀ e ∈ [("x", Value.bool true)], e.1 ≠ "session_traits" := by simp
    exact ⟨_, ⟨fields, Or.inl rfl, .absent fun e he => (hothers e he).1,
      .absent fun e he => (hothers e he).2,
      .present hbefore (fun _ h => by cases h) (listOf_textsToValue ["Night"])⟩,
      .of_written hwritten rfl⟩
  · have hlist : Written (.list []) 126 "[]".toList := .list (.closed .nil)
    have hwritten : Written (.record none _) 128 _ :=
      .record .none (.more .nil (.intro hsession .nil hblank hlist) .nil
        (.last hblank (.intro hsession .nil hblank hlist) .nil))
    exact .of_written hwritten rfl
  · exact .twice ⟨"session_traits", by decide, .list [], .list [], [], [], [], rfl⟩
  · have hnumber : SpellsNumber (.ofWhole none 2147483648) "2147483648".toList :=
      .whole .none (.plain ⟨rfl, by decide, rfl⟩) (Or.inl (by decide))
    have hscores : Written _ 122 _ :=
      .record .none (.last .nil (.intro hmoney .nil hblank (.number hnumber)) .nil)
    have hcharacter : Written _ 124 _ :=
      .record .none (.last .nil (.intro hstats .nil hblank hscores) .nil)
    have hwritten : Written _ 128 _ :=
      .record .none (.last .nil (.intro hcharacters .nil hblank
        (.list (.last .nil hcharacter .nil))) .nil)
    exact .of_written hwritten rfl
  · have hrange : OutOfRange grammar (.number (.ofWhole none 2147483648)) := by
      refine ⟨none, 2147483648, rfl, fun x hx => ?_⟩
      have hhigh := x.high
      rw [hx] at hhigh
      exact absurd hhigh (by decide)
    exact .character List.mem_cons_self List.mem_cons_self
      (.stats List.mem_cons_self (.range (by decide) List.mem_cons_self hrange))

end GameData

end Adventure

import Adventure.Proofs.Record.Documented
import Adventure.Record.Schema
import Mathlib.Data.List.Forall2

/-!
Game data as it is recorded in values of a documented format, with its fields in any order, among
fields of other names, and without those that hold their defaults (`GameData.RecordedAs`); such a
value is read as the data (`GameData.RecordedAs.read?`).

A field that is there twice and a score out of range make the value around them unreadable
(`GameData.Faulty`, `GameData.read?_faulty`).
-/

namespace Adventure

open Record Record.Format

variable {F : Format} {G : F.Grammar}

/-! ### Kinds of values -/

namespace Record

/-- A record with certain fields, under the name of its kind or none. -/
def IsRecord (G : F.Grammar) (kind : String) (fields : List (String × F.Value)) (v : F.Value) :
    Prop :=
  v = G.record none fields ∨ v = G.record (some kind) fields

theorem IsRecord.fields? (doc : G.Documented) {kind : String} {fields : List (String × F.Value)}
    {v : F.Value} (h : IsRecord G kind fields v) (known : List String) :
    F.fields? kind known v = some fields := by
  rcases h with rfl | rfl
  · exact doc.fields kind known none fields
  · exact (doc.fields kind known (some kind) fields).trans (if_pos (by simp))

/-- What a list records: what its items record, in their order. -/
def ListOf {α : Type} (G : F.Grammar) (recordedAs : α → F.Value → Prop) (xs : List α)
    (v : F.Value) : Prop :=
  ∃ items, v = G.list items ∧ List.Forall₂ recordedAs xs items

def TextAs (G : F.Grammar) (s : String) (v : F.Value) : Prop := v = G.text s

def ScoreAs (G : F.Grammar) (x : Score) (v : F.Value) : Prop :=
  ∃ sign size, v = G.whole sign size ∧ Grammar.signed sign size = x.val

/-- A whole number that is no score. -/
def OutOfRange (G : F.Grammar) (v : F.Value) : Prop :=
  ∃ sign size, v = G.whole sign size ∧ ∀ x : Score, x.val ≠ Grammar.signed sign size

theorem TextAs.text? (doc : G.Documented) {s : String} {v : F.Value} (h : TextAs G s v) :
    F.text? v = some s := h ▸ doc.text s

theorem ScoreAs.score? (doc : G.Documented) {x : Score} {v : F.Value} (h : ScoreAs G x v) :
    F.score? v = some x := by
  obtain ⟨sign, size, rfl, hx⟩ := h
  rw [doc.score, hx, Score.ofInt?_val]

theorem OutOfRange.score? (doc : G.Documented) {v : F.Value} (h : OutOfRange G v) :
    F.score? v = none := by
  obtain ⟨sign, size, rfl, hn⟩ := h
  rw [doc.score, Option.eq_none_iff_forall_ne_some]
  exact fun x hx => hn x (Score.ofInt?_eq_some_iff.mp hx)

theorem mapM_of_forall₂ {α β : Type} {r : α → β → Prop} {f : β → Option α} {xs : List α}
    {ys : List β} (h : List.Forall₂ r xs ys) (hf : ∀ x y, r x y → f y = some x) :
    ys.mapM f = some xs := by
  induction h with
  | nil => rfl
  | cons hxy _ ih =>
    rw [List.mapM_cons, hf _ _ hxy, ih]
    rfl

theorem mapM_eq_none {α β : Type} {f : β → Option α} {ys : List β} {y : β} (hy : y ∈ ys)
    (hf : f y = none) : ys.mapM f = none := by
  induction ys with
  | nil => cases hy
  | cons z zs ih =>
    rw [List.mapM_cons]
    rcases List.mem_cons.mp hy with rfl | hy
    · rw [hf]
      rfl
    · rw [ih hy]
      cases f z <;> rfl

theorem ListOf.list? {α : Type} (doc : G.Documented) {recordedAs : α → F.Value → Prop}
    {read? : F.Value → Option α} {xs : List α} {v : F.Value} (h : ListOf G recordedAs xs v)
    (hread : ∀ x v, recordedAs x v → read? v = some x) : F.list? read? v = some xs := by
  obtain ⟨items, rfl, hitems⟩ := h
  rw [doc.list]
  exact mapM_of_forall₂ hitems hread

end Record

/-! ### Game data -/

namespace StatBlock

/-- The values of a stat block: each stat holds its score. -/
def RecordedAs (G : F.Grammar) (b : StatBlock) (v : F.Value) : Prop :=
  ∃ fields, IsRecord G "StatBlock" fields v ∧
    ∀ s : Stat, FieldHolds (ScoreAs G) 0 s.fieldName (b.get s) fields

theorem ext_get {a b : StatBlock} (h : ∀ s, a.get s = b.get s) : a = b := by
  cases a
  cases b
  simp only [StatBlock.mk.injEq]
  exact ⟨h .strength, h .toughness, h .dexterity, h .perception, h .magic, h .knowledge,
    h .charisma, h .willpower, h .lethality, h .money⟩

/-- The stats that are read take the places of those in the block. -/
theorem readInto?_eq_some {fields : List (String × F.Value)} {b target : StatBlock}
    {stats : List Stat}
    (h : ∀ s ∈ stats, F.field? fields s.fieldName 0 F.score? = some (target.get s)) :
    ∃ result, readInto? F fields b stats = some result ∧
      ∀ s, result.get s = if s ∈ stats then target.get s else b.get s := by
  induction stats generalizing b with
  | nil => exact ⟨b, rfl, fun s => by simp⟩
  | cons t stats ih =>
    obtain ⟨result, hread, hget⟩ := ih (b := b.set t (target.get t))
      fun s hs => h s (List.mem_cons_of_mem _ hs)
    refine ⟨result, ?_, fun s => ?_⟩
    · rw [readInto?, h t List.mem_cons_self]
      exact hread
    · rw [hget, get_set]
      by_cases hst : s = t
      · subst hst
        simp
      · simp [hst]

theorem RecordedAs.read? (doc : G.Documented) {b : StatBlock} {v : F.Value}
    (h : b.RecordedAs G v) : StatBlock.read? F v = some b := by
  obtain ⟨fields, hrecord, hfields⟩ := h
  have hstats : ∀ s ∈ Stat.all, F.field? fields s.fieldName 0 F.score? = some (b.get s) :=
    fun s _ => (hfields s).field? doc fun _ _ => ScoreAs.score? doc
  obtain ⟨result, hread, hget⟩ := readInto?_eq_some hstats
  have hb : result = b := ext_get fun s => by rw [hget, if_pos (Stat.mem_all s)]
  rw [StatBlock.read?, hrecord.fields? doc]
  exact hread.trans (congrArg some hb)

theorem readInto?_eq_none {fields : List (String × F.Value)} {b : StatBlock} {stats : List Stat}
    {s : Stat} (hs : s ∈ stats) (h : F.field? fields s.fieldName 0 F.score? = none) :
    readInto? F fields b stats = none := by
  induction stats generalizing b with
  | nil => cases hs
  | cons t stats ih =>
    rw [readInto?]
    rcases List.mem_cons.mp hs with rfl | hs
    · rw [h]
      rfl
    · cases hfield : F.field? fields t.fieldName 0 F.score? with
      | none => rfl
      | some x => exact ih hs

end StatBlock

namespace Thresholds

def RecordedAs (G : F.Grammar) (t : Thresholds) (v : F.Value) : Prop :=
  ∃ fields, IsRecord G "Thresholds" fields v ∧
    FieldHolds (ScoreAs G) 0 "physical" t.physical fields ∧
    FieldHolds (ScoreAs G) 0 "mental" t.mental fields ∧
    FieldHolds (ScoreAs G) 0 "debt" t.debt fields

theorem RecordedAs.read? (doc : G.Documented) {t : Thresholds} {v : F.Value}
    (h : t.RecordedAs G v) : Thresholds.read? F v = some t := by
  obtain ⟨fields, hrecord, hphysical, hmental, hdebt⟩ := h
  have hscore : ∀ x v, ScoreAs G x v → F.score? v = some x := fun _ _ => ScoreAs.score? doc
  rw [Thresholds.read?, hrecord.fields? doc]
  simp only [Option.bind_eq_bind, Option.bind_some, hphysical.field? doc hscore,
    hmental.field? doc hscore, hdebt.field? doc hscore]
  rfl

end Thresholds

namespace Character

def RecordedAs (G : F.Grammar) (c : Character) (v : F.Value) : Prop :=
  ∃ fields, IsRecord G "CharacterState" fields v ∧
    FieldHolds (TextAs G) "" "name" c.name fields ∧
    FieldHolds (TextAs G) "" "title" c.title fields ∧
    FieldHolds (StatBlock.RecordedAs G) {} "stats" c.stats fields ∧
    FieldHolds (ListOf G (TextAs G)) [] "traits" c.traits fields ∧
    FieldHolds (Thresholds.RecordedAs G) {} "thresholds" c.thresholds fields

theorem RecordedAs.read? (doc : G.Documented) {c : Character} {v : F.Value}
    (h : c.RecordedAs G v) : Character.read? F v = some c := by
  obtain ⟨fields, hrecord, hname, htitle, hstats, htraits, hthresholds⟩ := h
  have htext : ∀ s v, TextAs G s v → F.text? v = some s := fun _ _ => TextAs.text? doc
  rw [Character.read?, hrecord.fields? doc]
  simp only [Option.bind_eq_bind, Option.bind_some, hname.field? doc htext,
    htitle.field? doc htext, hstats.field? doc fun _ _ => StatBlock.RecordedAs.read? doc,
    htraits.field? doc fun _ _ h => ListOf.list? doc h htext,
    hthresholds.field? doc fun _ _ => Thresholds.RecordedAs.read? doc]
  rfl

end Character

namespace GameData

def RecordedAs (G : F.Grammar) (d : GameData) (v : F.Value) : Prop :=
  ∃ fields, IsRecord G "GameData" fields v ∧
    FieldHolds (ListOf G (Character.RecordedAs G)) [] "characters" d.characters fields ∧
    FieldHolds (ListOf G (TextAs G)) [] "encounter_traits" d.encounterTraits fields ∧
    FieldHolds (ListOf G (TextAs G)) [] "session_traits" d.sessionTraits fields

/-- **Game data is read from each value that it is recorded as.** -/
theorem RecordedAs.read? (doc : G.Documented) {d : GameData} {v : F.Value}
    (h : d.RecordedAs G v) : GameData.read? F v = some d := by
  obtain ⟨fields, hrecord, hcharacters, hencounter, hsession⟩ := h
  have htexts : ∀ xs v, ListOf G (TextAs G) xs v → F.list? F.text? v = some xs := fun _ _ h =>
    h.list? doc fun _ _ => TextAs.text? doc
  rw [GameData.read?, hrecord.fields? doc]
  simp only [Option.bind_eq_bind, Option.bind_some,
    hcharacters.field? doc fun _ _ h => ListOf.list? doc h fun _ _ =>
      Character.RecordedAs.read? doc,
    hencounter.field? doc htexts, hsession.field? doc htexts]
  rfl

end GameData

/-! ### Faults -/

/-- A record of scores with a field that is there twice, or with a score out of range. -/
inductive FaultyScores (G : F.Grammar) (names : List String) : F.Value → Prop where
  | twice {n : Option String} {fields : List (String × F.Value)} : Twice names fields →
      FaultyScores G names (G.record n fields)
  | range {n : Option String} {fields : List (String × F.Value)} {name : String} {v : F.Value} :
      name ∈ names → (name, v) ∈ fields → OutOfRange G v →
      FaultyScores G names (G.record n fields)

/-- A character with a field that is there twice, or with faulty scores. -/
inductive Character.Faulty (G : F.Grammar) : F.Value → Prop where
  | twice {n : Option String} {fields : List (String × F.Value)} :
      Twice ["name", "title", "stats", "traits", "thresholds"] fields →
      Character.Faulty G (G.record n fields)
  | stats {n : Option String} {fields : List (String × F.Value)} {v : F.Value} :
      ("stats", v) ∈ fields → FaultyScores G (Stat.all.map Stat.fieldName) v →
      Character.Faulty G (G.record n fields)
  | thresholds {n : Option String} {fields : List (String × F.Value)} {v : F.Value} :
      ("thresholds", v) ∈ fields → FaultyScores G ["physical", "mental", "debt"] v →
      Character.Faulty G (G.record n fields)

/-- Game data with a field that is there twice, or with a faulty character. -/
inductive GameData.Faulty (G : F.Grammar) : F.Value → Prop where
  | twice {n : Option String} {fields : List (String × F.Value)} :
      Twice ["characters", "encounter_traits", "session_traits"] fields →
      GameData.Faulty G (G.record n fields)
  | character {n : Option String} {fields : List (String × F.Value)} {items : List F.Value}
      {c : F.Value} : ("characters", G.list items) ∈ fields → c ∈ items →
      Character.Faulty G c → GameData.Faulty G (G.record n fields)

/-- The field of faulty scores that cannot be read. -/
theorem FaultyScores.field? (doc : G.Documented) {kind : String} {known names : List String}
    {v : F.Value} {fields : List (String × F.Value)} (h : FaultyScores G names v)
    (hfields : F.fields? kind known v = some fields) :
    ∃ name ∈ names, F.field? fields name (0 : Score) F.score? = none := by
  cases h with
  | twice htwice =>
    cases eq_of_fields? doc hfields
    obtain ⟨name, hname, hnone⟩ := htwice.field? doc
    exact ⟨name, hname, hnone 0 F.score?⟩
  | range hname hv hrange =>
    cases eq_of_fields? doc hfields
    exact ⟨_, hname, field?_eq_none doc hv (hrange.score? doc)⟩

theorem StatBlock.read?_faulty (doc : G.Documented) {v : F.Value}
    (h : FaultyScores G (Stat.all.map Stat.fieldName) v) : StatBlock.read? F v = none := by
  unfold StatBlock.read?
  cases hfields : F.fields? "StatBlock" (Stat.all.map Stat.fieldName) v with
  | none => rfl
  | some fields =>
    obtain ⟨name, hname, hnone⟩ := h.field? doc hfields
    obtain ⟨s, hs, rfl⟩ := List.mem_map.mp hname
    exact readInto?_eq_none hs hnone

/-- Thresholds that are read were read of each of their fields. -/
theorem Thresholds.exists_fields_of_read? {v : F.Value} {t : Thresholds}
    (h : Thresholds.read? F v = some t) :
    ∃ fields, F.fields? "Thresholds" ["physical", "mental", "debt"] v = some fields ∧
      ∀ name ∈ ["physical", "mental", "debt"],
        (F.field? fields name (0 : Score) F.score?).isSome := by
  simp only [Thresholds.read?, Option.bind_eq_bind, Option.bind_eq_some_iff] at h
  obtain ⟨fields, hfields, x, hx, y, hy, z, hz, -⟩ := h
  exact ⟨fields, hfields, by simp [hx, hy, hz]⟩

theorem Thresholds.read?_faulty (doc : G.Documented) {v : F.Value}
    (h : FaultyScores G ["physical", "mental", "debt"] v) : Thresholds.read? F v = none := by
  cases hread : Thresholds.read? F v with
  | none => rfl
  | some t =>
    obtain ⟨fields, hfields, hsome⟩ := exists_fields_of_read? hread
    obtain ⟨name, hname, hnone⟩ := h.field? doc hfields
    have hfield := hsome name hname
    rw [hnone] at hfield
    cases hfield

/-- A character that is read was read of each of its fields. -/
theorem Character.exists_fields_of_read? {v : F.Value} {c : Character}
    (h : Character.read? F v = some c) :
    ∃ fields, F.fields? "CharacterState" ["name", "title", "stats", "traits", "thresholds"] v =
        some fields ∧
      (F.field? fields "name" "" F.text?).isSome ∧ (F.field? fields "title" "" F.text?).isSome ∧
      (F.field? fields "stats" {} (StatBlock.read? F)).isSome ∧
      (F.field? fields "traits" [] (F.list? F.text?)).isSome ∧
      (F.field? fields "thresholds" {} (Thresholds.read? F)).isSome := by
  simp only [Character.read?, Option.bind_eq_bind, Option.bind_eq_some_iff] at h
  obtain ⟨fields, hfields, x, hx, y, hy, z, hz, u, hu, w, hw, -⟩ := h
  exact ⟨fields, hfields, by simp [hx], by simp [hy], by simp [hz], by simp [hu], by simp [hw]⟩

theorem Character.read?_faulty (doc : G.Documented) {v : F.Value} (h : Character.Faulty G v) :
    Character.read? F v = none := by
  cases hread : Character.read? F v with
  | none => rfl
  | some c =>
    obtain ⟨fields, hfields, hname, htitle, hstats, htraits, hthresholds⟩ :=
      exists_fields_of_read? hread
    cases h with
    | twice htwice =>
      cases eq_of_fields? doc hfields
      obtain ⟨name, hmem, hnone⟩ := htwice.field? doc
      simp only [List.mem_cons, List.not_mem_nil, or_false] at hmem
      rcases hmem with rfl | rfl | rfl | rfl | rfl
      · simp [hnone] at hname
      · simp [hnone] at htitle
      · simp [hnone] at hstats
      · simp [hnone] at htraits
      · simp [hnone] at hthresholds
    | stats hv hscores =>
      cases eq_of_fields? doc hfields
      rw [field?_eq_none doc hv (StatBlock.read?_faulty doc hscores)] at hstats
      cases hstats
    | thresholds hv hscores =>
      cases eq_of_fields? doc hfields
      rw [field?_eq_none doc hv (Thresholds.read?_faulty doc hscores)] at hthresholds
      cases hthresholds

namespace GameData

/-- Game data that is read was read of each of its fields. -/
theorem exists_fields_of_read? {v : F.Value} {d : GameData} (h : GameData.read? F v = some d) :
    ∃ fields,
      F.fields? "GameData" ["characters", "encounter_traits", "session_traits"] v = some fields ∧
      (F.field? fields "characters" [] (F.list? (Character.read? F))).isSome ∧
      (F.field? fields "encounter_traits" [] (F.list? F.text?)).isSome ∧
      (F.field? fields "session_traits" [] (F.list? F.text?)).isSome := by
  simp only [GameData.read?, Option.bind_eq_bind, Option.bind_eq_some_iff] at h
  obtain ⟨fields, hfields, x, hx, y, hy, z, hz, -⟩ := h
  exact ⟨fields, hfields, by simp [hx], by simp [hy], by simp [hz]⟩

/-- **Faulty game data is not read.** -/
theorem read?_faulty (doc : G.Documented) {v : F.Value} (h : Faulty G v) :
    GameData.read? F v = none := by
  cases hread : GameData.read? F v with
  | none => rfl
  | some d =>
    obtain ⟨fields, hfields, hcharacters, hencounter, hsession⟩ := exists_fields_of_read? hread
    cases h with
    | twice htwice =>
      cases eq_of_fields? doc hfields
      obtain ⟨name, hmem, hnone⟩ := htwice.field? doc
      simp only [List.mem_cons, List.not_mem_nil, or_false] at hmem
      rcases hmem with rfl | rfl | rfl
      · simp [hnone] at hcharacters
      · simp [hnone] at hencounter
      · simp [hnone] at hsession
    | @character _ _ items c hv hc hfault =>
      cases eq_of_fields? doc hfields
      have hitems : F.list? (Character.read? F) (G.list items) = none := by
        rw [doc.list]
        exact mapM_eq_none hc (Character.read?_faulty doc hfault)
      rw [field?_eq_none doc hv hitems] at hcharacters
      cases hcharacters

end GameData

end Adventure

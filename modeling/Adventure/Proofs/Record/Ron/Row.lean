import Adventure.Proofs.Record.Ron.Number
import Adventure.Record.Ron

/-!
Rows of parts with commas between them (`Row`) and pairs with a colon inside (`Pair`), and that they
are read if their parts are (`Row.reads`, `Pair.reads`).

A part is read up to the gap behind it (`Reads`).
-/

namespace Adventure.Record.Ron

open Text

/-- Parts with commas between them, up to and with a closing character. A comma may stand behind the
last part. What the parts hold nests one level less deep. -/
inductive Row {α : Type} (item : α → Nat → List Char → Prop) (close : Char) :
    List α → Nat → List Char → Prop where
  | closed {k : Nat} {g : List Char} : IsGap g → Row item close [] k (g ++ [close])
  | last {k : Nat} {v : α} {g t g' : List Char} : IsGap g → item v k t → IsGap g' →
      Row item close [v] (k + 1) (g ++ (t ++ (g' ++ [close])))
  | more {k : Nat} {v : α} {vs : List α} {g t g' ts : List Char} : IsGap g → item v k t →
      IsGap g' → Row item close vs (k + 1) ts →
      Row item close (v :: vs) (k + 1) (g ++ (t ++ (g' ++ ',' :: ts)))

/-- A key, a colon and a value. -/
inductive Pair {α β : Type} (key : α → Nat → List Char → Prop)
    (value : β → Nat → List Char → Prop) : α × β → Nat → List Char → Prop where
  | intro {k : Nat} {a : α} {b : β} {s t g g' : List Char} : key a k s → IsGap g → IsGap g' →
      value b k t → Pair key value (a, b) k (s ++ (g ++ ':' :: (g' ++ t)))

/-- A value is read from a text, up to the gap behind it. -/
def Reads {α : Type} (read : Reader α) (v : α) (t : List Char) : Prop :=
  ∀ rest, Ended rest →
    ∃ left, read.run (t ++ rest) = some (v, left) ∧ gap.run left = gap.run rest

/-- A text starts with something that is neither a gap nor a mark, nor the sign of an attribute. -/
def Starts (t : List Char) : Prop :=
  ∃ c cs, t = c :: cs ∧ isBlank c = false ∧ c ≠ '/' ∧ c ∉ marks ∧ c ≠ '#'

theorem Starts.append {t : List Char} (h : Starts t) (rest : List Char) : Starts (t ++ rest) := by
  obtain ⟨c, cs, rfl, hc⟩ := h
  exact ⟨c, cs ++ rest, rfl, hc⟩

theorem Starts.run_gap {t : List Char} (h : Starts t) : gap.run t = some t := by
  obtain ⟨c, cs, rfl, hblank, hslash, -⟩ := h
  apply run_gap_solid
  intro d hd
  cases hd
  exact ⟨hblank, hslash⟩

theorem Ended.of_mark {c : Char} (h : c ∈ marks) {g : List Char} (hg : IsGap g)
    (rest : List Char) : Ended (g ++ c :: rest) := by
  apply ended_append hg
  intro d hd
  cases hd
  exact h

theorem run_gap_mark {c : Char} (h : c ∈ marks) {g : List Char} (hg : IsGap g)
    (rest : List Char) : gap.run (g ++ c :: rest) = some (c :: rest) := by
  rw [run_gap_append hg, run_gap_solid]
  intro d hd
  cases hd
  exact solid_of_mem_marks c h

theorem Starts.of_not_stop {c : Char} (h : c ∉ stops) (hsign : c ≠ '#') (cs : List Char) :
    Starts (c :: cs) := by
  refine ⟨c, cs, rfl, Bool.eq_false_iff.mpr fun hblank => h (isBlank_mem_stops hblank), ?_,
    fun hmark => h (marks_subset_stops c hmark), hsign⟩
  rintro rfl
  exact h (by decide)

theorem Starts.of_startsName {c : Char} (h : startsName c = true) (cs : List Char) :
    Starts (c :: cs) := by
  have hnone : ∀ d ∈ stops, startsName d = false := List.all_iff_forall_prop.mp (by decide)
  refine .of_not_stop (fun hstop => ?_) ?_ cs
  · rw [hnone c hstop] at h
    cases h
  · rintro rfl
    cases h

theorem Starts.of_startsNumber {c : Char} (h : startsNumber c = true) (cs : List Char) :
    Starts (c :: cs) := by
  have hnone : ∀ d ∈ stops, startsNumber d = false :=
    List.all_iff_forall_prop.mp (by decide)
  refine .of_not_stop (fun hstop => ?_) ?_ cs
  · rw [hnone c hstop] at h
    cases h
  · rintro rfl
    cases h

/-- A value that is read is read up to where it ends. -/
theorem Reads.of_run {α : Type} {read : Reader α} {v : α} {t : List Char}
    (h : ∀ rest, Stops rest → read.run (t ++ rest) = some (v, rest)) : Reads read v t :=
  fun rest hrest => ⟨rest, h rest hrest.stops, rfl⟩

/-! ### Pairs -/

section Pair

variable {α β : Type} {read : Reader α} {read' : Reader β}

theorem run_pair (cs : List Char) :
    (pair read read').run cs = (read.run cs).bind fun p =>
      (gap.run p.2).bind fun r => (after? [':'] r).bind fun r =>
        (gap.run r).bind fun r => (read'.run r).map fun q => ((p.1, q.1), q.2) := by
  rw [pair, Reader.run_andThen]
  congr 1
  funext p
  rw [Reader.run_andThen, Reader.run_behind, Option.bind_assoc]
  congr 1
  funext r
  rw [Reader.run_word (by simp), Option.bind_map]
  congr 1
  funext r
  rw [Function.comp_apply, Reader.run_map, Reader.run_behind, Option.map_bind]
  rfl

/-- **A pair is read if its key and its value are.** -/
theorem Pair.reads {a : α} {b : β} {s t g g' : List Char} (ha : Reads read a s)
    (hb : Reads read' b t) (hstart : Starts t) (hg : IsGap g) (hg' : IsGap g') :
    Reads (pair read read') (a, b) (s ++ (g ++ ':' :: (g' ++ t))) := by
  intro rest hrest
  have hshape : s ++ (g ++ ':' :: (g' ++ t)) ++ rest = s ++ (g ++ ':' :: (g' ++ (t ++ rest))) := by
    simp
  have hcolon : after? [':'] (':' :: (g' ++ (t ++ rest))) = some (g' ++ (t ++ rest)) :=
    after?_eq_some_iff.mpr rfl
  obtain ⟨left, hread, hleft⟩ := ha _ (Ended.of_mark (c := ':') (by decide) hg _)
  rw [hshape, run_pair, hread, Option.bind_some, hleft, run_gap_mark (by decide) hg,
    Option.bind_some, hcolon, Option.bind_some, run_gap_append hg', (hstart.append rest).run_gap,
    Option.bind_some]
  obtain ⟨left, hread, hleft⟩ := hb rest hrest
  rw [hread]
  exact ⟨left, rfl, hleft⟩

end Pair

/-! ### Rows -/

section Row

variable {α β : Type} {item : α → Nat → List Char → Prop} {close : Char} {read : Reader β}
  {f : α → β}

/-- A row that is not empty starts with a part, behind which a comma stands or the row is closed. -/
theorem Row.first {vs : List α} {k : Nat} {t : List Char} (h : Row item close vs k t)
    (hne : vs ≠ []) :
    ∃ v j g s g' c more, j < k ∧ item v j s ∧ IsGap g ∧ IsGap g' ∧ (c = ',' ∨ c = close) ∧
      t = g ++ (s ++ (g' ++ c :: more)) := by
  cases h with
  | closed => exact absurd rfl hne
  | @last k v g s g' hg hv hg' =>
    exact ⟨v, k, g, s, g', close, [], Nat.lt_succ_self k, hv, hg, hg', Or.inr rfl, rfl⟩
  | @more k v vs g s g' ts hg hv hg' _ =>
    exact ⟨v, k, g, s, g', ',', ts, Nat.lt_succ_self k, hv, hg, hg', Or.inl rfl, rfl⟩

theorem Row.ne_nil {vs : List α} {k : Nat} {t : List Char} (h : Row item close vs k t) :
    t ≠ [] := by
  cases h <;> simp

/-- A row that starts with its closing character is empty. -/
theorem Row.eq_nil {vs : List α} {k : Nat} {more : List Char} (hclose : close ∈ marks)
    (h : Row item close vs k (close :: more)) (hitem : ∀ v j t, item v j t → Starts t) :
    vs = [] ∧ more = [] := by
  have hsolid : gap.run (close :: more) = some (close :: more) := run_gap_mark hclose .nil more
  by_cases hne : vs = []
  · refine ⟨hne, ?_⟩
    subst hne
    generalize ht : close :: more = t at h
    cases h with
    | closed hg =>
      rw [ht, run_gap_mark hclose hg, ← ht] at hsolid
      cases hsolid
      rfl
  · obtain ⟨v, j, g, s, g', c, behind, -, hv, hg, -, -, ht⟩ := h.first hne
    have hstart := (hitem v j s hv).append (g' ++ c :: behind)
    rw [ht, run_gap_append hg, hstart.run_gap, ← ht] at hsolid
    obtain ⟨d, ds, hds, -, -, hd, -⟩ := hstart
    rw [hds] at hsolid
    cases hsolid
    exact absurd hclose hd

/-- At its closing character, a row ends. -/
theorem run_upTo_closed {g : List Char} (hclose : close ∈ marks) (hg : IsGap g)
    (rest : List Char) :
    Reader.run (Reader.upTo close gap true read true) (g ++ close :: rest) = some ([], rest) := by
  rw [Reader.run_upTo, run_gap_mark hclose hg]
  simp

/-- At the start of a part, the part is read and then what is behind it. -/
theorem run_upTo_part {mayClose : Bool} {g t more : List Char} (hclose : close ∈ marks)
    (hg : IsGap g) (ht : Starts t) :
    Reader.run (Reader.upTo close gap true read mayClose) (g ++ (t ++ more)) =
      (read.run (t ++ more)).bind fun p =>
        Reader.runBehind close gap (Reader.run (Reader.upTo close gap true read true)) p.1 p.2 := by
  rw [Reader.run_upTo, run_gap_append hg, (ht.append more).run_gap]
  obtain ⟨c, cs, rfl, -, -, hc, -⟩ := ht
  have hne : c ≠ close := by rintro rfl; exact hc hclose
  simp [hne]

/-- **A row is read if its parts are,** as what `f` makes of them. -/
theorem Row.reads {vs : List α} {k : Nat} {t : List Char} (h : Row item close vs k t)
    (hclose : close ∈ marks) (hcomma : close ≠ ',')
    (hitem : ∀ v j t, j < k → item v j t → Starts t ∧ Reads read (f v) t)
    {mayClose : Bool} (hempty : vs = [] → mayClose = true) (rest : List Char) :
    Reader.run (Reader.upTo close gap true read mayClose) (t ++ rest) = some (vs.map f, rest) := by
  induction h generalizing mayClose with
  | @closed k g hg =>
    rw [hempty rfl, List.append_assoc, List.singleton_append, run_upTo_closed hclose hg]
    rfl
  | @last k v g t g' hg hv hg' =>
    obtain ⟨hstart, hread⟩ := hitem v k t (Nat.lt_succ_self k) hv
    have hshape : g ++ (t ++ (g' ++ [close])) ++ rest = g ++ (t ++ (g' ++ close :: rest)) := by simp
    obtain ⟨left, hread, hleft⟩ := hread _ (Ended.of_mark hclose hg' rest)
    rw [hshape, run_upTo_part hclose hg hstart, hread, Option.bind_some, Reader.runBehind, hleft,
      run_gap_mark hclose hg']
    simp [hcomma]
  | @more k v vs g t g' ts hg hv hg' _ ih =>
    obtain ⟨hstart, hread⟩ := hitem v k t (Nat.lt_succ_self k) hv
    have hshape : g ++ (t ++ (g' ++ ',' :: ts)) ++ rest =
        g ++ (t ++ (g' ++ ',' :: (ts ++ rest))) := by simp
    have hmark : ',' ∈ marks := by decide
    obtain ⟨left, hread, hleft⟩ := hread _ (Ended.of_mark hmark hg' (ts ++ rest))
    rw [hshape, run_upTo_part hclose hg hstart, hread, Option.bind_some, Reader.runBehind, hleft,
      run_gap_mark hmark hg']
    simp [ih hitem fun _ => rfl]

end Row

end Adventure.Record.Ron

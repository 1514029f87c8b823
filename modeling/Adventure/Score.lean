/-!
Scores: the whole numbers that stats, thresholds, effects and the order of options hold. They lie
between -2147483648 and 2147483647, and arithmetic on them stops at these limits instead of leaving
the range.
-/

namespace Adventure

/-- A whole number between -2147483648 and 2147483647. -/
@[ext]
structure Score where
  val : Int
  low : -2147483648 ≤ val := by decide
  high : val ≤ 2147483647 := by decide
deriving DecidableEq, Repr

namespace Score

/-- The least score. -/
def least : Score := ⟨-2147483648, by decide, by decide⟩

/-- The greatest score. -/
def greatest : Score := ⟨2147483647, by decide, by decide⟩

instance : Zero Score := ⟨⟨0, by decide, by decide⟩⟩

instance : Inhabited Score := ⟨0⟩

@[simp] theorem val_zero : (0 : Score).val = 0 := rfl

instance : LE Score := ⟨fun a b => a.val ≤ b.val⟩

instance (a b : Score) : Decidable (a ≤ b) := inferInstanceAs (Decidable (a.val ≤ b.val))

theorem le_iff {a b : Score} : a ≤ b ↔ a.val ≤ b.val := Iff.rfl

/-- A whole number as a score, if it is in range. -/
def ofInt? (n : Int) : Option Score :=
  if h : -2147483648 ≤ n ∧ n ≤ 2147483647 then some ⟨n, h.1, h.2⟩ else none

theorem ofInt?_eq_some_iff {n : Int} {s : Score} : ofInt? n = some s ↔ s.val = n := by
  unfold ofInt?
  split
  · simp only [Option.some.injEq, Score.ext_iff]
    exact eq_comm
  · rename_i h
    simp only [reduceCtorEq, false_iff]
    rintro rfl
    exact h ⟨s.low, s.high⟩

@[simp] theorem ofInt?_val (s : Score) : ofInt? s.val = some s := ofInt?_eq_some_iff.mpr rfl

/-- The score nearest to a whole number. -/
def clamp (n : Int) : Score :=
  if hl : n < -2147483648 then least
  else if hh : 2147483647 < n then greatest
  else ⟨n, by omega, by omega⟩

theorem val_clamp (n : Int) :
    (clamp n).val = max (-2147483648) (min n 2147483647) := by
  unfold clamp least greatest
  split
  · simp only; omega
  · split
    · simp only; omega
    · simp only; omega

@[simp] theorem clamp_val (s : Score) : clamp s.val = s := by
  have := s.low
  have := s.high
  ext
  rw [val_clamp]
  omega

theorem clamp_mono {m n : Int} (h : m ≤ n) : clamp m ≤ clamp n := by
  rw [le_iff, val_clamp, val_clamp]
  omega

/-- The sum, stopped at the limits. -/
def add (a b : Score) : Score := clamp (a.val + b.val)

/-- The difference, stopped at the limits. -/
def sub (a b : Score) : Score := clamp (a.val - b.val)

/-- The negative, stopped at the limits: that of the least score is the greatest. -/
def neg (a : Score) : Score := clamp (-a.val)

instance : Add Score := ⟨add⟩

instance : Sub Score := ⟨sub⟩

instance : Neg Score := ⟨neg⟩

theorem add_eq_clamp (a b : Score) : a + b = clamp (a.val + b.val) := rfl

theorem sub_eq_clamp (a b : Score) : a - b = clamp (a.val - b.val) := rfl

theorem neg_eq_clamp (a : Score) : -a = clamp (-a.val) := rfl

end Score

end Adventure

import Adventure.Markup.Report
import Adventure.Proofs.Markup.Written
import Adventure.Proofs.Text.Cuts

/-!
Option lines that are written are read back, an option of a decision as one and an option of a branch
as one (`Entry.decisionOption?_written`, `Entry.branchOption?_written`).

The text of a decision ends at the first arrow. It holds none itself, and the arrow behind it makes
none with its end, so it is cut off whole (`Text.splitAround?_append`). The target of a branch holds none,
and so does not read as the text of a decision.
-/

namespace Adventure

namespace Markup

/-! ### The parts of an option line -/

theorem signed_of_nonneg {n : Int} (h : 0 ≤ n) : Decimal.signed n = Decimal.digits n.natAbs := by
  rw [Decimal.signed, if_neg (by omega)]

namespace OptionParts

/-- The order of an option line ends at the minus sign behind it. -/
theorem order?_written {n : Int} (h : 0 ≤ n) (rest : List Char) :
    order? ('-' :: (Decimal.signed n ++ '-' :: rest)) =
      some (Decimal.signed n, '-' :: rest) := by
  rw [signed_of_nonneg h]
  have hall := Decimal.all_digits n.natAbs
  obtain ⟨d, ds, hcons⟩ := Decimal.digits_eq_cons n.natAbs
  have hd : d.isDigit = true := by
    rw [hcons, List.all_cons, Bool.and_eq_true] at hall
    exact hall.1
  have hstart : (Decimal.digits n.natAbs ++ '-' :: rest).dropWhile Text.isAsciiBlank =
      Decimal.digits n.natAbs ++ '-' :: rest := by
    rw [hcons, List.cons_append]
    exact List.dropWhile_cons_of_neg (by simp [Text.isAsciiBlank_of_isDigit hd])
  have hminus : ∀ c ∈ ('-' :: rest).head?, c.isDigit = false := by
    intro c hc
    cases hc
    rfl
  have hend : ('-' :: rest).dropWhile Text.isAsciiBlank = '-' :: rest := rfl
  rw [order?, hstart, Text.takeWhile_run hall hminus, Text.dropWhile_run hall hminus, hend,
    if_neg (Decimal.digits_ne_nil _)]

theorem ofDecision?_written {o : DecisionOption} (h : o.WellFormed) :
    ofDecision? (decisionLine o) =
      some ⟨Decimal.signed o.order.val, o.text.toList, o.targetUri.toList⟩ := by
  rw [ofDecision?, decisionLine, order?_written h.order]
  simp only
  have hcut := Text.splitAround?_append (show '-' ∉ ['<'] by decide) h.no_arrow o.targetUri.toList
  rw [List.cons_append, List.singleton_append] at hcut
  rw [hcut]
  rfl

theorem ofBranch?_written {o : BranchOption} (h : o.WellFormed) :
    ofBranch? (branchLine o) = some ⟨Decimal.signed o.order.val, [], o.targetUri.toList⟩ := by
  rw [ofBranch?, branchLine, order?_written h.order]
  rfl

/-- An option of a branch does not read as one of a decision. -/
theorem ofDecision?_branchLine {o : BranchOption} (h : o.WellFormed) :
    ofDecision? (branchLine o) = none := by
  have hcut : Text.splitAround? ['-', '<'] ('<' :: o.targetUri.toList) = none := by
    apply Text.splitAround?_eq_none
    intro hinfix
    rcases List.infix_cons_iff.mp hinfix with ⟨rest, hprefix⟩ | hinfix
    · cases hprefix
    · exact h.no_arrow hinfix
  rw [ofDecision?, branchLine, order?_written h.order]
  simp only
  rw [hcut]
  rfl

/-- An order and a reference that were written can be used. -/
theorem usable?_written {order : Score} (text : List Char) {target : String}
    (htarget : IsReference target) :
    usable? ⟨Decimal.signed order.val, text, target.toList⟩ = some (order, target) := by
  obtain ⟨⟨htrim, -⟩, hcolon⟩ := htarget
  have hne : target.toList ≠ [] := List.ne_nil_of_mem hcolon
  rw [usable?, Decimal.read?_signed, Option.bind_some, Score.ofInt?_val]
  simp only
  rw [htrim, if_neg hne, String.ofList_toList]

end OptionParts

theorem OptionShape.ofLine_decisionLine {o : DecisionOption} (h : o.WellFormed) (n : Nat) :
    ofLine ⟨n, decisionLine o⟩ = .decision := by
  rw [ofLine, OptionParts.ofDecision?_written h]
  rfl

theorem OptionShape.ofLine_branchLine {o : BranchOption} (h : o.WellFormed) (n : Nat) :
    ofLine ⟨n, branchLine o⟩ = .branch := by
  rw [ofLine, OptionParts.ofDecision?_branchLine h, OptionParts.ofBranch?_written h]
  rfl

/-! ### Options -/

/-- A full reference stands for itself in every asset. -/
theorem resolve_of_isReference (asset : String) {target : String} (h : IsReference target) :
    Uri.resolve asset target = target := by
  obtain ⟨⟨htrim, -⟩, hcolon⟩ := h
  have htrimmed : Text.trimmed target = target := by
    rw [Text.trimmed, htrim, String.ofList_toList]
  rw [Uri.resolve, htrimmed]
  exact if_pos (List.contains_iff_mem.mpr hcolon)

/-- **An option of a decision that was written is read back.** -/
theorem Entry.decisionOption?_written (asset : String) {o : DecisionOption} (h : o.WellFormed)
    {bracket : Bracket} (hguard : bracket.guard? = o.guard) (n : Nat) :
    decisionOption? asset ⟨bracket, ⟨n, decisionLine o⟩⟩ = some o := by
  rw [decisionOption?, OptionParts.ofDecision?_written h]
  simp only
  rw [OptionParts.usable?_written _ h.target, Option.map_some, h.text.1, String.ofList_toList,
    resolve_of_isReference asset h.target, hguard]

/-- **An option of a branch that was written is read back.** -/
theorem Entry.branchOption?_written (asset : String) {o : BranchOption} (h : o.WellFormed)
    {bracket : Bracket} (hguard : bracket.guard? = o.guard) (n : Nat) :
    branchOption? asset ⟨bracket, ⟨n, branchLine o⟩⟩ = some o := by
  rw [branchOption?, OptionParts.ofBranch?_written h]
  simp only
  rw [OptionParts.usable?_written _ h.target, Option.map_some,
    resolve_of_isReference asset h.target, hguard]

theorem Entry.isBranchOption_written {o : BranchOption} (h : o.WellFormed) (bracket : Bracket)
    (n : Nat) : isBranchOption ⟨bracket, ⟨n, branchLine o⟩⟩ = true := by
  rw [isBranchOption, OptionParts.ofBranch?_written h, Option.bind_some,
    OptionParts.usable?_written _ h.target]
  rfl

end Markup

end Adventure

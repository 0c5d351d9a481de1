import Mathlib.Data.String.Basic
import Scriptlet.Proofs.Number.Order

/-! One order behind all comparisons. Two numbers stand in the order of doubles and two strings in
that of their code points; values of other types, or of two types, stand in none. The relations look
this order up and equality agrees with it, although it is computed by other means. -/
namespace Scriptlet

/-- Characters stand in the order of their code points, and texts in that of their characters. -/
theorem Text.lex_codePoints (s t : List Char) :
    List.Lex (· < ·) s t ↔ List.Lex (· < ·) (s.map Char.toNat) (t.map Char.toNat) := by
  induction s generalizing t with
  | nil => cases t <;> simp
  | cons c s ih =>
    cases t with
    | nil => simp
    | cons d t =>
      rw [List.map_cons, List.map_cons, List.cons_lex_cons_iff, List.cons_lex_cons_iff, ih,
        Char.toNat_inj]
      rfl

namespace Value

/-- Only numbers and strings are related to one another, each to their own kind. -/
def Comparable : Value → Value → Prop
  | number _, number _ | string _, string _ => True
  | _, _ => False

def isNaN : Value → Bool
  | number x => x.isNaN
  | _ => false

/-- The order of two values, if they have one. -/
def order? : Value → Value → Option Ordering
  | number x, number y => Number.order? x y
  | string s, string t => some (compare s t)
  | _, _ => none

variable {a b c : Value}

theorem order?_eq_none (comparable : a.Comparable b) :
    a.order? b = none ↔ a.isNaN = true ∨ b.isNaN = true := by
  cases a <;> cases b <;> try contradiction
  case number x y =>
    simp only [order?, Number.order?_eq, isNaN]
    split <;> simp_all
  case string s t => simp [order?, isNaN]

/-- Seen from the other side, the order is the opposite one. -/
theorem order?_swap (a b : Value) : b.order? a = (a.order? b).map Ordering.swap := by
  cases a <;> cases b <;> try rfl
  case number x y =>
    simp only [order?, Number.order?_eq, or_comm]
    split
    · rfl
    · rw [Option.map_some, Int.compare_swap]
  case string s t => exact congrArg some Std.OrientedCmp.eq_swap

/-- What is transitive in every order is so for values. -/
theorem order?_trans {accepts : Ordering → Bool}
    (trans : ∀ {α : Type} [Ord α] [Std.TransOrd α] {x y z : α}, accepts (compare x y) = true →
      accepts (compare y z) = true → accepts (compare x z) = true)
    (first : (a.order? b).any accepts = true) (second : (b.order? c).any accepts = true) :
    (a.order? c).any accepts = true := by
  cases a <;> cases b <;> cases c <;> try contradiction
  case number x y z =>
    simp only [order?, Number.order?_eq] at *
    split at first
    · contradiction
    split at second
    · contradiction
    rename_i xy yz
    rw [if_neg fun undefined => undefined.elim (fun x => xy (.inl x)) fun z => yz (.inr z)]
    exact trans first second
  case string s t u => exact trans first second

/-- Equality is that of the order. -/
theorem equals_eq_order? (comparable : a.Comparable b) :
    a.equals b = (a.order? b == some .eq) := by
  cases a <;> cases b <;> try contradiction
  case number x y => exact Number.beq_eq_order? x y
  case string s t =>
    rw [equals, order?, Bool.eq_iff_iff, beq_iff_eq, beq_iff_eq, Option.some_inj,
      compare_eq_iff_eq]

theorem equals_of_typeName (differ : a.typeName ≠ b.typeName) : a.equals b = false := by
  cases a <;> cases b <;> first | rfl | contradiction

end Value

namespace Operator

def relations : List Operator := [less, lessEqual, greater, greaterEqual]

/-- A comparison comes out true. -/
def Holds (op : Operator) (a b : Value) : Prop := op.apply a b = .ok (.boolean true)

instance (op : Operator) (a b : Value) : Decidable (op.Holds a b) :=
  inferInstanceAs (Decidable (_ = _))

variable {op : Operator} {accepts : Ordering → Bool} {a b : Value}

theorem apply_comparable (known : op.accepts? = some accepts) (comparable : a.Comparable b) :
    op.apply a b = .ok (.boolean ((a.order? b).any accepts)) := by
  rw [apply, known]
  cases a <;> cases b <;> first | rfl | contradiction

theorem apply_incomparable (known : op.accepts? = some accepts) (apart : ¬ a.Comparable b) :
    op.apply a b = .error (.invalidOperands op a b) := by
  rw [apply, known]
  cases a <;> cases b <;> first | rfl | exact absurd trivial apart

theorem holds_iff (known : op.accepts? = some accepts) :
    op.Holds a b ↔ (a.order? b).any accepts = true := by
  by_cases comparable : a.Comparable b
  · rw [Holds, apply_comparable known comparable, Except.ok.injEq, Value.boolean.injEq]
  · rw [Holds, apply_incomparable known comparable]
    refine iff_of_false nofun fun found => ?_
    cases a <;> cases b <;> first | contradiction | exact comparable trivial

theorem holds_less : less.Holds a b ↔ a.order? b = some .lt := by
  rw [holds_iff rfl]
  rcases a.order? b with _ | _ | _ | _ <;> simp

theorem holds_greater : greater.Holds a b ↔ a.order? b = some .gt := by
  rw [holds_iff rfl]
  rcases a.order? b with _ | _ | _ | _ <;> simp

theorem holds_equal (comparable : a.Comparable b) : equal.Holds a b ↔ a.order? b = some .eq := by
  change Except.ok (Value.boolean (a.equals b)) = .ok (.boolean true) ↔ _
  rw [Except.ok.injEq, Value.boolean.injEq, Value.equals_eq_order? comparable, beq_iff_eq]

theorem holds_lessEqual : lessEqual.Holds a b ↔ a.order? b = some .lt ∨ a.order? b = some .eq := by
  rw [holds_iff rfl]
  rcases a.order? b with _ | _ | _ | _ <;> simp

/-- A relation between two values is the opposite one between them the other way round. -/
theorem apply_swap {op' : Operator} {accepts' : Ordering → Bool}
    (known : op.accepts? = some accepts) (known' : op'.accepts? = some accepts')
    (opposite : ∀ order, accepts' order.swap = accepts order) (comparable : a.Comparable b) :
    op.apply a b = op'.apply b a := by
  have comparable' : b.Comparable a := by
    cases a <;> cases b <;> trivial
  rw [apply_comparable known comparable, apply_comparable known' comparable', a.order?_swap b,
    Option.any_map]
  simp only [opposite]

end Operator

/-- The comparisons describe one order. The four relations are defined between two numbers and
between two strings, and nowhere else. Where they are, one order decides them and equality alike;
two values have none exactly if one of them is not a number. Equality is defined everywhere and
false across types, and inequality is its negation. Strings are in the order of their code
points. -/
theorem comparisons_describe_one_order (a b c : Value) :
    (a.Comparable b ∧ (∀ op ∈ Operator.relations, ∃ holds, op.apply a b = .ok (.boolean holds)) ∨
      ¬ a.Comparable b ∧
        ∀ op ∈ Operator.relations, op.apply a b = .error (.invalidOperands op a b)) ∧
    (a.Comparable b →
      Operator.less.apply a b = Operator.greater.apply b a ∧
      Operator.lessEqual.apply a b = Operator.greaterEqual.apply b a ∧
      (Operator.lessEqual.Holds a b ↔ Operator.less.Holds a b ∨ Operator.equal.Holds a b) ∧
      ∃ order : Option Ordering,
        (order = none ↔ a.isNaN = true ∨ b.isNaN = true) ∧
        (Operator.less.Holds a b ↔ order = some .lt) ∧
        (Operator.equal.Holds a b ↔ order = some .eq) ∧
        (Operator.greater.Holds a b ↔ order = some .gt)) ∧
    (Operator.less.Holds a b → Operator.less.Holds b c → Operator.less.Holds a c) ∧
    (Operator.lessEqual.Holds a b → Operator.lessEqual.Holds b c →
      Operator.lessEqual.Holds a c) ∧
    (∃ same, Operator.equal.apply a b = .ok (.boolean same) ∧
      Operator.notEqual.apply a b = .ok (.boolean !same) ∧
      (a.typeName ≠ b.typeName → same = false)) ∧
    ∀ s t : String, Operator.less.Holds (.string s) (.string t) ↔
      List.Lex (· < ·) (s.toList.map Char.toNat) (t.toList.map Char.toNat) := by
  refine ⟨?_, fun comparable => ⟨?_, ?_, ?_, ?_⟩, ?_, ?_, ?_, ?_⟩
  · have known : ∀ op ∈ Operator.relations, ∃ accepts, op.accepts? = some accepts := by
      simp [Operator.relations, Operator.accepts?]
    by_cases comparable : a.Comparable b
    · refine .inl ⟨comparable, fun op among => ?_⟩
      obtain ⟨accepts, known⟩ := known op among
      exact ⟨_, Operator.apply_comparable known comparable⟩
    · refine .inr ⟨comparable, fun op among => ?_⟩
      obtain ⟨accepts, known⟩ := known op among
      exact Operator.apply_incomparable known comparable
  · exact Operator.apply_swap rfl rfl (by decide) comparable
  · exact Operator.apply_swap rfl rfl (by decide) comparable
  · rw [Operator.holds_lessEqual, Operator.holds_less, Operator.holds_equal comparable]
  · exact ⟨a.order? b, Value.order?_eq_none comparable, Operator.holds_less,
      Operator.holds_equal comparable, Operator.holds_greater⟩
  · rw [Operator.holds_iff rfl, Operator.holds_iff rfl, Operator.holds_iff rfl]
    refine Value.order?_trans ?_
    intro α _ _ x y z
    simp only [Ordering.isLT_iff_eq_lt]
    exact Std.TransCmp.lt_trans
  · rw [Operator.holds_iff rfl, Operator.holds_iff rfl, Operator.holds_iff rfl]
    exact Value.order?_trans Std.TransCmp.isLE_trans
  · exact ⟨a.equals b, rfl, rfl, Value.equals_of_typeName⟩
  · intro s t
    rw [Operator.holds_less, Value.order?, Option.some_inj, compare_lt_iff_lt, String.lt_iff,
      ← Text.lex_codePoints]
    rfl

/-- Minus zero, the least number that is greater than zero, and infinity. -/
def minusZero : Value := .number (-0.0)

def leastPositive : Value := .number (Number.ofRank false 1)

def infinite : Value := .number (Number.ofRank false Number.infinityRank)

/-- Minus zero is less than the least positive number, and that is less than infinity. -/
theorem leastPositive_ordered : Value.Comparable minusZero leastPositive ∧
    Operator.less.Holds minusZero leastPositive ∧ Operator.less.Holds leastPositive infinite ∧
    Operator.lessEqual.Holds minusZero leastPositive ∧
    Operator.lessEqual.Holds leastPositive infinite ∧
    Operator.less.Holds minusZero infinite ∧ Operator.lessEqual.Holds minusZero infinite ∧
    Operator.greater.apply leastPositive minusZero = .ok (.boolean true) := by
  have comparable : Value.Comparable minusZero leastPositive := trivial
  have below : Operator.less.Holds minusZero leastPositive := by
    decide +kernel
  have above : Operator.less.Holds leastPositive infinite := by
    decide +kernel
  have below' : Operator.lessEqual.Holds minusZero leastPositive := by
    decide +kernel
  have above' : Operator.lessEqual.Holds leastPositive infinite := by
    decide +kernel
  obtain ⟨_, related, less, lessEqual, _⟩ :=
    comparisons_describe_one_order minusZero leastPositive infinite
  obtain ⟨swap, _⟩ := related comparable
  exact ⟨comparable, below, above, below', above', less below above, lessEqual below' above',
    swap.symm.trans below⟩

end Scriptlet

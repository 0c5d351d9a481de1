import Scriptlet.Proofs.Number.Plain
import Scriptlet.Proofs.Tree.WellFormed
import Scriptlet.Tree.OfJson

/-! Trees with finite numbers. A tree that is read from a JSON value has finite numbers, because
JSON values have: doubles that are finite, and whole numbers that fit into a machine word. -/
namespace Scriptlet

/-- Whether every number in an expression is finite. -/
def Expr.Finite : Expr → Prop
  | number value => value.isFinite = true
  | binary _ left right => left.Finite ∧ right.Finite
  | _ => True

namespace Stmt

mutual

/-- Whether every number in a statement is finite. -/
def Finite : Stmt → Prop
  | ifThen condition branch => condition.Finite ∧ branch.Finite
  | ifThenElse condition branch otherwise => condition.Finite ∧ branch.Finite ∧ otherwise.Finite
  | expression value => value.Finite
  | block body => AllFinite body

/-- Statement by statement. -/
def AllFinite : List Stmt → Prop
  | [] => True
  | s :: rest => s.Finite ∧ AllFinite rest

end

end Stmt

theorem Expr.WellFormed.finite {e : Expr} (wellFormed : e.WellFormed) : e.Finite := by
  induction e with
  | number value => exact wellFormed.1
  | binary op left right leftIh rightIh =>
    exact ⟨leftIh wellFormed.1, rightIh wellFormed.2.1⟩
  | _ => trivial

namespace Stmt

mutual

theorem WellFormed.finite : {s : Stmt} → s.WellFormed → s.Finite
  | .ifThen _ _, ⟨condition, branch⟩ => ⟨condition.finite, branch.finite⟩
  | .ifThenElse _ _ _, ⟨condition, branch, otherwise, _⟩ =>
    ⟨condition.finite, branch.finite, otherwise.finite⟩
  | .expression _, value => Expr.WellFormed.finite value
  | .block _, body => AllWellFormed.finite body

theorem AllWellFormed.finite : {body : List Stmt} → AllWellFormed body → AllFinite body
  | [], _ => trivial
  | _ :: _, ⟨s, rest⟩ => ⟨s.finite, rest.finite⟩

end

theorem WellFormedRoot.finite {root : Stmt} (wellFormed : root.WellFormedRoot) : root.Finite := by
  obtain ⟨body, rfl, formed⟩ := wellFormed
  exact formed.finite

end Stmt

namespace Json

mutual

/-- What the numbers of a JSON value can be. -/
def Proper : Json → Prop
  | integer value => -0x8000000000000000 ≤ value ∧ value < 0x10000000000000000
  | float value => value.isFinite = true
  | array items => AllProper items
  | object fields => FieldsProper fields
  | _ => True

/-- Item by item. -/
def AllProper : List Json → Prop
  | [] => True
  | item :: rest => item.Proper ∧ AllProper rest

/-- Field by field. -/
def FieldsProper : List (String × Json) → Prop
  | [] => True
  | (_, value) :: rest => value.Proper ∧ FieldsProper rest

end

theorem allProper_iff {items : List Json} : AllProper items ↔ ∀ item ∈ items, item.Proper := by
  induction items with
  | nil => simp [AllProper]
  | cons item rest ih => simp [AllProper, ih]

theorem fieldsProper_iff {fields : List (String × Json)} :
    FieldsProper fields ↔ ∀ field ∈ fields, field.2.Proper := by
  induction fields with
  | nil => simp [FieldsProper]
  | cons field rest ih => simp [FieldsProper, ih]

theorem FieldsProper.setField {fields : List (String × Json)} (proper : FieldsProper fields)
    (key : String) {value : Json} (new : value.Proper) :
    FieldsProper (setField key value fields) := by
  induction fields with
  | nil => exact ⟨new, trivial⟩
  | cons field rest ih =>
    rw [Json.setField]
    split
    · exact ⟨new, proper.2⟩
    split
    · exact ⟨new, proper⟩
    · exact ⟨proper.1, ih proper.2⟩

theorem mem_of_lookup {fields : List (String × Json)} (found : fields.lookup key = some value) :
    ∃ field ∈ fields, field.2 = value := by
  induction fields with
  | nil => contradiction
  | cons field rest ih =>
    rw [List.lookup_cons] at found
    split at found
    · cases found
      exact ⟨field, List.mem_cons_self, rfl⟩
    · obtain ⟨other, member, same⟩ := ih found
      exact ⟨other, List.mem_cons_of_mem _ member, same⟩

mutual

theorem Proper.rename (source target : String) :
    {value : Json} → value.Proper → (value.renameField source target).Proper
  | .array items, proper => AllProper.rename source target proper
  | .object fields, proper => by
    have inner : FieldsProper (renameInFields source target fields) :=
      FieldsProper.rename source target proper
    rw [renameField]
    split
    · exact inner
    · rename_i found
      obtain ⟨field, member, rfl⟩ := mem_of_lookup found
      have kept : FieldsProper ((renameInFields source target fields).filter (·.1 ≠ source)) :=
        fieldsProper_iff.mpr fun field member =>
          fieldsProper_iff.mp inner field (List.mem_filter.mp member).1
      exact kept.setField target (fieldsProper_iff.mp inner field member)
  | .null, proper | .boolean _, proper | .integer _, proper | .float _, proper
  | .string _, proper => proper

theorem AllProper.rename (source target : String) :
    {items : List Json} → AllProper items → AllProper (renameInItems source target items)
  | [], _ => trivial
  | _ :: _, ⟨item, rest⟩ => ⟨item.rename source target, rest.rename source target⟩

theorem FieldsProper.rename (source target : String) : {fields : List (String × Json)} →
    FieldsProper fields → FieldsProper (renameInFields source target fields)
  | [], _ => trivial
  | (_, _) :: _, ⟨value, rest⟩ => ⟨value.rename source target, rest.rename source target⟩

end

/-- No word rounds to infinity. -/
theorem nearestRank_word {n : Nat} (word : n < 0x10000000000000000) :
    Decimal.nearestRank ⟨n, 0⟩ < Number.infinityRank := by
  have one : Decimal.powerOfTen (-0) = 1 := Decimal.powerOfTen_of_nonpos (Int.le_refl 0)
  have size : Number.scaleSize * 2 ^ 12 = 0x10000000000000000 := rfl
  have worth (k : Nat) : Number.units ((12 + k) * Number.scaleSize + Number.scaleSize) =
      0x10000000000000000 <<< k := by
    rw [Number.units_significand (by decide) (.inr (Nat.le_refl _)), Nat.pow_add, ← Nat.mul_assoc,
      size, Nat.shiftLeft_eq]
  have finite : (12 + 1074) * Number.scaleSize + Number.scaleSize < Number.infinityRank := by
    simp only [Number.infinityRank, Number.scaleSize]
    omega
  have positive : 0 < Number.infinityRank := Nat.lt_of_le_of_lt (Nat.zero_le _) finite
  have shifted (k : Nat) : n <<< k < 0x10000000000000000 <<< k := by
    rw [Nat.shiftLeft_eq, Nat.shiftLeft_eq]
    exact Nat.mul_lt_mul_of_pos_right word (Nat.two_pow_pos k)
  have less : (n * Decimal.powerOfTen 0) <<< 1074 / Decimal.powerOfTen (-0) <
      Number.units ((12 + 1074) * Number.scaleSize + Number.scaleSize) := by
    rw [one, Nat.div_one, worth, Decimal.powerOfTen_of_nonpos (Int.le_refl 0), Nat.mul_one]
    exact shifted 1074
  rw [Decimal.nearestRank]
  dsimp only
  rw [if_neg (show ¬ (309 : Int) < 0 by decide)]
  split
  · exact positive
  split
  · exact positive
  · exact Nat.lt_of_le_of_lt (Number.nearestRank_le_of_lt less) finite

theorem isFinite_floatOfInt {value : Int} (low : -0x8000000000000000 ≤ value)
    (high : value < 0x10000000000000000) : (floatOfInt value).isFinite = true := by
  have rank := nearestRank_word (n := value.natAbs) (by omega)
  rw [Number.isFinite_iff, floatOfInt, Number.rank_ofRank _ (Nat.le_of_lt rank)]
  exact rank

end Json

namespace Tree

open Grammar (bind_eq_ok_iff)

theorem readNumber_finite {value : Json} (proper : value.Proper) (read : readNumber value = .ok x) :
    x.isFinite = true := by
  cases value with
  | integer value =>
    cases read
    exact Json.isFinite_floatOfInt proper.1 proper.2
  | float value =>
    cases read
    exact proper
  | _ => contradiction

theorem leafField_eq_ok {read : Json → Except TreeError α}
    (found : leafField key read fields = .ok a) : ∃ field ∈ fields, read field.2 = .ok a := by
  rw [leafField] at found
  split at found
  · rename_i held
    obtain ⟨field, member, rfl⟩ := Json.mem_of_lookup held
    exact ⟨field, member, found⟩
  · contradiction

theorem leafItem_eq_ok {read : Json → Except TreeError α}
    (found : leafItem kind read items = .ok a) : ∃ item ∈ items, read item = .ok a := by
  cases items with
  | nil => contradiction
  | cons item more =>
    obtain ⟨value, held, rest⟩ := bind_eq_ok_iff.mp found
    split at rest
    · cases rest
      exact ⟨item, List.mem_cons_self, held⟩
    · contradiction

/-- Whether the parts that have been read have finite numbers. -/
structure BinaryParts.Finite (parts : BinaryParts) : Prop where
  left : ∀ e ∈ parts.left, e.Finite
  right : ∀ e ∈ parts.right, e.Finite

namespace BinaryParts.Finite

variable {parts : BinaryParts}

theorem empty : BinaryParts.Finite {} := ⟨by simp, by simp⟩

theorem setOp (finite : parts.Finite) (op : Operator) :
    BinaryParts.Finite { parts with op := some op } := ⟨finite.left, finite.right⟩

theorem setLeft (finite : parts.Finite) (held : e.Finite) :
    BinaryParts.Finite { parts with left := some e } :=
  ⟨fun _ same => Option.some.inj same ▸ held, finite.right⟩

theorem setRight (finite : parts.Finite) (held : e.Finite) :
    BinaryParts.Finite { parts with right := some e } :=
  ⟨finite.left, fun _ same => Option.some.inj same ▸ held⟩

theorem finish (finite : parts.Finite) (whole : parts.finish = .ok e) : e.Finite := by
  rw [BinaryParts.finish] at whole
  split at whole
  · contradiction
  · contradiction
  · contradiction
  · rename_i left right
    cases whole
    exact ⟨finite.left _ left, finite.right _ right⟩

end BinaryParts.Finite

mutual

theorem readExpr_finite : {value : Json} → value.Proper → readExpr value = .ok e → e.Finite
  | .object fields, proper, read => by
    rw [readExpr] at read
    obtain ⟨kind, _, read⟩ := bind_eq_ok_iff.mp read
    split at read
    case h_1 =>
      obtain ⟨x, held, read⟩ := bind_eq_ok_iff.mp read
      cases read
      obtain ⟨field, member, number⟩ := leafField_eq_ok held
      exact readNumber_finite (Json.fieldsProper_iff.mp proper field member) number
    case h_5 => exact readBinaryFields_finite .empty proper read
    all_goals
      obtain ⟨_, _, read⟩ := bind_eq_ok_iff.mp read
      cases read
      trivial
  | .array (tag :: items), proper, read => by
    rw [readExpr] at read
    obtain ⟨kind, _, read⟩ := bind_eq_ok_iff.mp read
    split at read
    case h_1 =>
      obtain ⟨x, held, read⟩ := bind_eq_ok_iff.mp read
      cases read
      obtain ⟨item, member, number⟩ := leafItem_eq_ok held
      exact readNumber_finite (Json.allProper_iff.mp proper.2 item member) number
    case h_5 => exact readBinaryItems_finite proper.2 read
    all_goals
      obtain ⟨_, _, read⟩ := bind_eq_ok_iff.mp read
      cases read
      trivial
  | .array [], _, read | .null, _, read | .boolean _, _, read | .integer _, _, read
  | .float _, _, read | .string _, _, read => by contradiction

theorem readBinaryFields_finite : {parts : BinaryParts} → {fields : List (String × Json)} →
    parts.Finite → Json.FieldsProper fields → readBinaryFields parts fields = .ok e → e.Finite
  | _, [], finite, _, read => finite.finish read
  | parts, (key, value) :: rest, finite, proper, read => by
    rw [readBinaryFields] at read
    split at read
    · obtain ⟨op, _, read⟩ := bind_eq_ok_iff.mp read
      exact readBinaryFields_finite (finite.setOp op) proper.2 read
    split at read
    · obtain ⟨left, held, read⟩ := bind_eq_ok_iff.mp read
      exact readBinaryFields_finite (finite.setLeft (readExpr_finite proper.1 held)) proper.2 read
    split at read
    · obtain ⟨right, held, read⟩ := bind_eq_ok_iff.mp read
      exact readBinaryFields_finite (finite.setRight (readExpr_finite proper.1 held)) proper.2 read
    · exact readBinaryFields_finite finite proper.2 read

theorem readBinaryItems_finite : {items : List Json} → Json.AllProper items →
    readBinaryItems items = .ok e → e.Finite
  | [], _, read => by contradiction
  | [op], _, read => by
    obtain ⟨_, _, read⟩ := bind_eq_ok_iff.mp read
    contradiction
  | [op, left], _, read => by
    obtain ⟨_, _, read⟩ := bind_eq_ok_iff.mp read
    obtain ⟨_, _, read⟩ := bind_eq_ok_iff.mp read
    contradiction
  | op :: left :: right :: more, ⟨_, leftProper, rightProper, _⟩, read => by
    obtain ⟨_, _, read⟩ := bind_eq_ok_iff.mp read
    obtain ⟨_, leftHeld, read⟩ := bind_eq_ok_iff.mp read
    obtain ⟨_, rightHeld, read⟩ := bind_eq_ok_iff.mp read
    split at read
    · cases read
      exact ⟨readExpr_finite leftProper leftHeld, readExpr_finite rightProper rightHeld⟩
    · contradiction

end

/-- Whether the parts that have been read have finite numbers. -/
structure ConditionalParts.Finite (parts : ConditionalParts) : Prop where
  condition : ∀ e ∈ parts.condition, e.Finite
  branch : ∀ s ∈ parts.branch, s.Finite
  otherwise : ∀ s ∈ parts.otherwise, s.Finite

namespace ConditionalParts.Finite

variable {parts : ConditionalParts}

theorem empty : ConditionalParts.Finite {} := ⟨by simp, by simp, by simp⟩

theorem setCondition (finite : parts.Finite) (held : e.Finite) :
    ConditionalParts.Finite { parts with condition := some e } :=
  ⟨fun _ same => Option.some.inj same ▸ held, finite.branch, finite.otherwise⟩

theorem setBranch (finite : parts.Finite) (held : s.Finite) :
    ConditionalParts.Finite { parts with branch := some s } :=
  ⟨finite.condition, fun _ same => Option.some.inj same ▸ held, finite.otherwise⟩

theorem setOtherwise {branch : Option Stmt} (finite : parts.Finite)
    (held : ∀ s ∈ branch, s.Finite) :
    ConditionalParts.Finite { parts with otherwise := branch } :=
  ⟨finite.condition, finite.branch, held⟩

theorem finish (finite : parts.Finite) (whole : parts.finish = .ok s) : s.Finite := by
  rw [ConditionalParts.finish] at whole
  split at whole
  · contradiction
  · contradiction
  · rename_i condition branch _
    cases whole
    exact ⟨finite.condition _ condition, finite.branch _ branch⟩
  · rename_i condition branch otherwise
    cases whole
    exact ⟨finite.condition _ condition, finite.branch _ branch, finite.otherwise _ otherwise⟩

end ConditionalParts.Finite

mutual

theorem readStmt_finite (isRoot : Bool) :
    {value : Json} → value.Proper → readStmt isRoot value = .ok s → s.Finite
  | .object fields, proper, read => by
    rw [readStmt] at read
    obtain ⟨kind, _, read⟩ := bind_eq_ok_iff.mp read
    split at read
    · exact readConditionalFields_finite .empty proper read
    · obtain ⟨value, held, read⟩ := bind_eq_ok_iff.mp read
      cases read
      obtain ⟨field, member, value⟩ := leafField_eq_ok held
      exact readExpr_finite (Json.fieldsProper_iff.mp proper field member) value
    · exact readBlockFields_finite proper read
  | .array (tag :: items), proper, read => by
    rw [readStmt] at read
    obtain ⟨kind, _, read⟩ := bind_eq_ok_iff.mp read
    split at read
    · exact readConditionalItems_finite proper.2 read
    · obtain ⟨value, held, read⟩ := bind_eq_ok_iff.mp read
      cases read
      obtain ⟨item, member, value⟩ := leafItem_eq_ok held
      exact readExpr_finite (Json.allProper_iff.mp proper.2 item member) value
    · exact readBlockItems_finite proper.2 read
  | .array [], _, read | .null, _, read | .boolean _, _, read | .integer _, _, read
  | .float _, _, read | .string _, _, read => by contradiction

theorem readConditionalFields_finite : {parts : ConditionalParts} →
    {fields : List (String × Json)} → parts.Finite → Json.FieldsProper fields →
    readConditionalFields parts fields = .ok s → s.Finite
  | _, [], finite, _, read => finite.finish read
  | parts, (key, value) :: rest, finite, proper, read => by
    unfold readConditionalFields at read
    split at read
    · obtain ⟨condition, held, read⟩ := bind_eq_ok_iff.mp read
      exact readConditionalFields_finite (finite.setCondition (readExpr_finite proper.1 held))
        proper.2 read
    split at read
    · obtain ⟨branch, held, read⟩ := bind_eq_ok_iff.mp read
      exact readConditionalFields_finite (finite.setBranch (readStmt_finite false proper.1 held))
        proper.2 read
    split at read
    · split at read
      · exact readConditionalFields_finite (finite.setOtherwise (by simp)) proper.2 read
      · obtain ⟨otherwise, held, read⟩ := bind_eq_ok_iff.mp read
        refine readConditionalFields_finite (finite.setOtherwise ?_) proper.2 read
        exact fun _ same => Option.some.inj same ▸ readStmt_finite false proper.1 held
    · exact readConditionalFields_finite finite proper.2 read

theorem readConditionalItems_finite : {items : List Json} → Json.AllProper items →
    readConditionalItems items = .ok s → s.Finite
  | [], _, read => by contradiction
  | [condition], _, read => by
    obtain ⟨_, _, read⟩ := bind_eq_ok_iff.mp read
    contradiction
  | [condition, branch], ⟨conditionProper, branchProper, _⟩, read => by
    obtain ⟨_, conditionHeld, read⟩ := bind_eq_ok_iff.mp read
    obtain ⟨_, branchHeld, read⟩ := bind_eq_ok_iff.mp read
    cases read
    exact ⟨readExpr_finite conditionProper conditionHeld,
      readStmt_finite false branchProper branchHeld⟩
  | condition :: branch :: otherwise :: more,
      ⟨conditionProper, branchProper, otherProper, _⟩, read => by
    unfold readConditionalItems at read
    obtain ⟨_, conditionHeld, read⟩ := bind_eq_ok_iff.mp read
    obtain ⟨_, branchHeld, read⟩ := bind_eq_ok_iff.mp read
    have first := readExpr_finite conditionProper conditionHeld
    have second := readStmt_finite false branchProper branchHeld
    dsimp only at read
    split at read
    · obtain ⟨_, whole, read⟩ := bind_eq_ok_iff.mp read
      cases whole
      split at read <;> cases read
      exact ⟨first, second⟩
    · obtain ⟨_, otherHeld, read⟩ := bind_eq_ok_iff.mp read
      obtain ⟨_, whole, read⟩ := bind_eq_ok_iff.mp read
      cases whole
      split at read <;> cases read
      exact ⟨first, second, readStmt_finite false otherProper otherHeld⟩

theorem readBlockFields_finite : {fields : List (String × Json)} → Json.FieldsProper fields →
    readBlockFields fields = .ok s → s.Finite
  | [], _, read => by contradiction
  | (key, .array items) :: rest, proper, read => by
    rw [readBlockFields] at read
    split at read
    · obtain ⟨body, held, read⟩ := bind_eq_ok_iff.mp read
      cases read
      exact readAll_finite proper.1 held
    · exact readBlockFields_finite proper.2 read
  | (key, .null) :: rest, proper, read | (key, .boolean _) :: rest, proper, read
  | (key, .integer _) :: rest, proper, read | (key, .float _) :: rest, proper, read
  | (key, .string _) :: rest, proper, read | (key, .object _) :: rest, proper, read => by
    unfold readBlockFields at read
    split at read
    · contradiction
    · exact readBlockFields_finite proper.2 read

theorem readBlockItems_finite : {items : List Json} → Json.AllProper items →
    readBlockItems items = .ok s → s.Finite
  | [], _, read => by contradiction
  | .array _ :: more, proper, read => by
    obtain ⟨body, held, read⟩ := bind_eq_ok_iff.mp read
    split at read <;> cases read
    exact readAll_finite proper.1 held
  | .null :: _, _, read | .boolean _ :: _, _, read | .integer _ :: _, _, read
  | .float _ :: _, _, read | .string _ :: _, _, read | .object _ :: _, _, read => by contradiction

theorem readAll_finite : {items : List Json} → Json.AllProper items →
    readAll items = .ok body → Stmt.AllFinite body
  | [], _, read => by
    cases read
    trivial
  | item :: rest, proper, read => by
    obtain ⟨s, held, read⟩ := bind_eq_ok_iff.mp read
    obtain ⟨more, others, read⟩ := bind_eq_ok_iff.mp read
    cases read
    exact ⟨readStmt_finite false proper.1 held, readAll_finite proper.2 others⟩

end

end Tree

/-- A tree that is read from a JSON value has finite numbers. -/
theorem Stmt.ofJson_finite {value : Json} (proper : value.Proper)
    (read : Stmt.ofJson discriminant value = .ok s) : s.Finite := by
  rw [Stmt.ofJson] at read
  split at read
  · contradiction
  split at read
  · exact Tree.readStmt_finite true proper read
  · exact Tree.readStmt_finite true (proper.rename _ _) read

end Scriptlet

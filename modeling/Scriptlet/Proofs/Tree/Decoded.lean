import Scriptlet.Proofs.Tree.Finite
import Scriptlet.Proofs.Tree.Renamed

/-! Trees through JSON values and back. The standard field of the tags comes before the parts, so a
node is read from an object that begins with its tag; with the tags in any other field the node has
no tag to begin with. -/
namespace Scriptlet

open Discriminant Scriptlet.Tree

section Node

variable {fields : List (String × Json)} {isRoot : Bool} {family : NodeFamily}

/-- The standard name comes before the names of all parts. -/
theorem arrange_standard (tag : Json) (parts : ∀ field ∈ fields, field.1 ∈ partNames) :
    Json.arrange ((standard, tag) :: fields) = (standard, tag) :: Json.arrange fields := by
  have before : ∀ name ∈ partNames, standard < name := by decide
  suffices general : ∀ sorted,
      fields.foldl (fun sorted field => Json.setField field.1 field.2 sorted)
        ((standard, tag) :: sorted) =
      (standard, tag) ::
        fields.foldl (fun sorted field => Json.setField field.1 field.2 sorted) sorted from
    general []
  induction fields with
  | nil => exact fun _ => rfl
  | cons field rest ih =>
    intro sorted
    obtain ⟨head, tail⟩ := List.forall_mem_cons.mp parts
    rw [List.foldl_cons, Json.setField_after (before _ head), ih tail, List.foldl_cons]

theorem NodeKind.toJson_standard (kind : NodeKind)
    (parts : ∀ field ∈ fields, field.1 ∈ partNames) :
    kind.toJson standard fields =
      .object ((standard, .string kind.tag) :: Json.arrange fields) := by
  rw [NodeKind.toJson, Json.ofFields_eq, arrange_standard _ parts]

theorem readKind_standard {kind : NodeKind} (member : kind ∈ family.kinds) :
    readKind isRoot family ((standard, .string kind.tag) :: fields) = .ok kind := by
  have found : ∀ kind ∈ family.kinds,
      family.kinds.find? (fun other => other.tag = kind.tag) = some kind := by
    cases family <;> decide
  rw [readKind, Json.lookup_cons_ite, if_pos rfl]
  simp only [readTag, found kind member]

/-- With its tag in another field a node has no tag. -/
theorem readKind_other {name : String} (differs : name ≠ standard) (tag : Json)
    (parts : ∀ field ∈ fields, field.1 ∈ partNames) :
    readKind isRoot family (Json.arrange ((name, tag) :: fields)) =
      .error (.missingField standard) := by
  have lacks := usable_standard.lacks parts
  rw [readKind, Json.lookup_arrange, Json.lookup_reverse_cons, lacks.lookup,
    if_neg (Ne.symm differs)]
  rfl

theorem leafField_single {key : String} (differs : key ≠ standard) (tag value : Json)
    (read : Json → Except TreeError α) :
    leafField key read ((standard, tag) :: Json.arrange [(key, value)]) = read value := by
  have single : Json.arrange [(key, value)] = [(key, value)] := rfl
  rw [leafField, Json.lookup_cons_ite, if_neg differs, single, Json.lookup_cons_ite, if_pos rfl]

end Node

theorem readOperator_symbol (op : Operator) : readOperator (.string op.symbol) = .ok op := by
  have found : Operator.ofSymbol? op.symbol = some op := by
    cases op <;> decide
  simp only [readOperator, readSymbol, found]

/-- An object that begins with the tag of an expression is read as that kind of expression. -/
theorem readExpr_toJson {kind : NodeKind} {fields : List (String × Json)}
    (parts : ∀ field ∈ fields, field.1 ∈ partNames) : kind ∈ NodeFamily.expression.kinds →
    readExpr (kind.toJson standard fields) =
      let held := (standard, .string kind.tag) :: Json.arrange fields
      match kind with
      | .number => return .number (← leafField "value" readNumber held)
      | .string => return .string (← leafField "value" readString held)
      | .boolean => return .boolean (← leafField "value" readBoolean held)
      | .identifier => return .identifier (← leafField "name" readString held)
      | _ => readBinaryFields {} held := by
  intro member
  rw [NodeKind.toJson_standard _ parts, readExpr, readKind_standard member]
  rfl

/-- An object that begins with the tag of a statement is read as that kind of statement. -/
theorem readStmt_toJson (isRoot : Bool) {kind : NodeKind} {fields : List (String × Json)}
    (parts : ∀ field ∈ fields, field.1 ∈ partNames) : kind ∈ NodeFamily.statement.kinds →
    readStmt isRoot (kind.toJson standard fields) =
      let held := (standard, .string kind.tag) :: Json.arrange fields
      match kind with
      | .conditional => readConditionalFields {} held
      | .expressionStatement => return .expression (← leafField "expr" readExpr held)
      | _ => readBlockFields held := by
  intro member
  rw [NodeKind.toJson_standard _ parts, readStmt, readKind_standard member]
  rfl

theorem Expr.readExpr_encode (e : Expr) (finite : e.Finite) :
    readExpr (e.encode standard) = .ok e := by
  have value : "value" ≠ standard := by decide
  have name : "name" ≠ standard := by decide
  induction e with
  | number value' =>
    have held : value'.isFinite = true := finite
    rw [encode, if_pos held]
    refine (readExpr_toJson (by simp [partNames]) (by decide)).trans ?_
    simp only [leafField_single value]
    rfl
  | string value' =>
    refine (readExpr_toJson (by simp [partNames]) (by decide)).trans ?_
    simp only [leafField_single value]
    rfl
  | boolean value' =>
    refine (readExpr_toJson (by simp [partNames]) (by decide)).trans ?_
    simp only [leafField_single value]
    rfl
  | identifier name' =>
    refine (readExpr_toJson (by simp [partNames]) (by decide)).trans ?_
    simp only [leafField_single name]
    rfl
  | binary op left right leftIh rightIh =>
    have sorted (a b c : Json) : Json.arrange [("op", a), ("left", b), ("right", c)] =
        [("left", b), ("op", a), ("right", c)] := by
      have left : "left" < "op" := by decide
      have right : "op" < "right" := by decide
      rw [Json.arrange, List.foldl, List.foldl, List.foldl, List.foldl, Json.setField_nil,
        Json.setField_before left, Json.setField_after (left.trans right),
        Json.setField_after right, Json.setField_nil]
    refine (readExpr_toJson (by simp [partNames]) (by decide)).trans ?_
    simp only [sorted, readBinaryFields, leftIh finite.1, rightIh finite.2,
      readOperator_symbol, ↓reduceIte, String.reduceEq]
    rfl

namespace Stmt

theorem encode_object (name : String) (s : Stmt) : ∃ fields, s.encode name = .object fields := by
  cases s <;> exact ⟨_, rfl⟩

mutual

theorem readStmt_encode (isRoot : Bool) (s : Stmt) (finite : s.Finite) :
    readStmt isRoot (s.encode standard) = .ok s := by
  cases s with
  | ifThen condition branch =>
    have sorted (a b : Json) : Json.arrange [("cond", a), ("then", b)] =
        [("cond", a), ("then", b)] := by
      have branch : "cond" < "then" := by decide
      rw [Json.arrange, List.foldl, List.foldl, List.foldl, Json.setField_nil,
        Json.setField_after branch, Json.setField_nil]
    refine (readStmt_toJson isRoot (by simp [partNames]) (by decide)).trans ?_
    simp only [sorted, readConditionalFields,
      condition.readExpr_encode finite.1, readStmt_encode false branch finite.2, ↓reduceIte,
      String.reduceEq]
    rfl
  | ifThenElse condition branch otherwise =>
    have sorted (a b c : Json) : Json.arrange [("cond", a), ("then", b), ("otherwise", c)] =
        [("cond", a), ("otherwise", c), ("then", b)] := by
      have first : "cond" < "otherwise" := by decide
      have last : "otherwise" < "then" := by decide
      rw [Json.arrange, List.foldl, List.foldl, List.foldl, List.foldl, Json.setField_nil,
        Json.setField_after (first.trans last), Json.setField_nil, Json.setField_after first,
        Json.setField_before last]
    have reads := readStmt_encode false otherwise finite.2.2
    refine (readStmt_toJson isRoot (by simp [partNames]) (by decide)).trans ?_
    obtain ⟨fields, object⟩ := otherwise.encode_object standard
    rw [object] at reads ⊢
    simp only [sorted, readConditionalFields,
      condition.readExpr_encode finite.1, readStmt_encode false branch finite.2.1, reads,
      ↓reduceIte, String.reduceEq]
    rfl
  | expression value =>
    have expr : "expr" ≠ standard := by decide
    refine (readStmt_toJson isRoot (by simp [partNames]) (by decide)).trans ?_
    simp only [leafField_single expr, value.readExpr_encode finite]
    rfl
  | block body =>
    refine (readStmt_toJson isRoot (by simp [partNames]) (by decide)).trans ?_
    simp only [Json.arrange, List.foldl, Json.setField, readBlockFields,
      readAll_encodeAll body finite, ↓reduceIte]
    rfl

theorem readAll_encodeAll (body : List Stmt) (finite : AllFinite body) :
    readAll (encodeAll standard body) = .ok body := by
  cases body with
  | nil => rfl
  | cons s rest =>
    rw [encodeAll, readAll, readStmt_encode false s finite.1, readAll_encodeAll rest finite.2]
    rfl

end

/-- With the tags in another field the root has no tag. -/
theorem readStmt_encode_other (isRoot : Bool) {name : String} (differs : name ≠ standard)
    (s : Stmt) : readStmt isRoot (s.encode name) = .error (.missingField standard) := by
  have untagged (kind : NodeKind) {fields : List (String × Json)}
      (parts : ∀ field ∈ fields, field.1 ∈ partNames) :
      readStmt isRoot (kind.toJson name fields) = .error (.missingField standard) := by
    rw [NodeKind.toJson, Json.ofFields_eq, readStmt, readKind_other differs _ parts]
    rfl
  cases s <;> exact untagged _ (by simp [partNames])

theorem toJson_usable (usable : Usable name) (s : Stmt) : s.toJson name = .ok (s.encode name) := by
  rw [toJson, if_pos (isUsable_iff.mpr usable)]

/-- A tree is read back with its own field of the tags, and from the standard one with any. With
any other one it is not read at all. -/
theorem ofJson_encode (name : String) (asked : Usable discriminant) {s : Stmt}
    (finite : s.Finite) : Stmt.ofJson discriminant (s.encode name) =
      if name = discriminant ∨ name = standard then .ok s
      else .error (.missingField standard) := by
  have fetched : Stmt.ofJson discriminant (s.encode name) =
      readStmt true (s.encode (renamed discriminant standard name)) := by
    rw [Stmt.ofJson, isUsable_iff.mpr asked, Bool.not_true, if_neg Bool.false_ne_true]
    split
    · rename_i same
      rw [renamed]
      split
      · rename_i own
        rw [own, same]
      · rfl
    · rw [renameField_encode asked usable_standard]
  rw [fetched]
  split
  · rename_i held
    have moved : renamed discriminant standard name = standard := by
      rw [renamed]
      split
      · rfl
      · rename_i differs
        exact held.resolve_left differs
    rw [moved, readStmt_encode true s finite]
  · rename_i lost
    rw [not_or] at lost
    rw [renamed, if_neg lost.1, readStmt_encode_other true lost.2]

end Stmt

end Scriptlet

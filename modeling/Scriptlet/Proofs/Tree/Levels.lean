import Scriptlet.Proofs.Json.Written
import Scriptlet.Proofs.Tree.Finite
import Scriptlet.Proofs.Tree.Renamed

/-! How deep the JSON value of a tree nests. An object takes one level for every node, and a block
takes one more for the list of its statements. -/
namespace Scriptlet

namespace Json

theorem fieldsLegible_iff {fields : List (String × Json)} :
    FieldsLegible fields ↔ ∀ field ∈ fields, field.2.Legible := by
  induction fields with
  | nil => simp [FieldsLegible]
  | cons field rest ih => rw [FieldsLegible, ih, List.forall_mem_cons]

/-- An object is legible if its fields are, in whatever order they are given. -/
theorem legible_ofFields {fields : List (String × Json)} (legible : FieldsLegible fields) :
    (ofFields fields).Legible := by
  rw [fieldsLegible_iff] at legible
  exact ⟨ordered_arrange fields,
    fieldsLegible_iff.mpr fun field member => legible field (mem_arrange member)⟩

theorem fieldsNesting_setField {fields : List (String × Json)} (lacks : Lacks fields key)
    (value : Json) :
    fieldsNesting (setField key value fields) = max value.nesting (fieldsNesting fields) := by
  induction fields with
  | nil => rfl
  | cons field rest ih =>
    obtain ⟨differs, others⟩ := List.forall_mem_cons.mp lacks
    rw [setField, if_neg differs.symm]
    split
    · rfl
    · rw [fieldsNesting, fieldsNesting, ih others]
      omega

theorem fieldsNesting_arrange {fields : List (String × Json)}
    (distinct : fields.Pairwise (·.1 ≠ ·.1)) :
    fieldsNesting (arrange fields) = fieldsNesting fields := by
  suffices general : ∀ sorted, (∀ field ∈ fields, Lacks sorted field.1) →
      fieldsNesting (fields.foldl (fun sorted field => setField field.1 field.2 sorted) sorted) =
        max (fieldsNesting sorted) (fieldsNesting fields) by
    rw [arrange, general [] (fun _ _ _ absent => by contradiction)]
    exact Nat.zero_max _
  induction fields with
  | nil => exact fun sorted _ => (Nat.max_zero _).symm
  | cons field rest ih =>
    intro sorted free
    obtain ⟨head, tail⟩ := List.pairwise_cons.mp distinct
    obtain ⟨here, later⟩ := List.forall_mem_cons.mp free
    have free : ∀ other ∈ rest, Lacks (setField field.1 field.2 sorted) other.1 := by
      intro other member placed set
      rcases mem_setField set with rfl | earlier
      · exact head other member
      · exact later other member placed earlier
    rw [List.foldl_cons, ih tail _ free, fieldsNesting_setField here, fieldsNesting]
    omega

end Json

/-- How many levels the JSON value of an expression takes. -/
def Expr.jsonLevels : Expr → Nat
  | binary _ left right => max left.jsonLevels right.jsonLevels + 1
  | _ => 1

/-- The numbers in an expression. -/
def Expr.numbers : Expr → List Float
  | number value => [value]
  | binary _ left right => left.numbers ++ right.numbers
  | _ => []

namespace Stmt

mutual

/-- How many levels the JSON value of a statement takes. -/
def jsonLevels : Stmt → Nat
  | ifThen condition branch => max condition.jsonLevels branch.jsonLevels + 1
  | ifThenElse condition branch otherwise =>
    max condition.jsonLevels (max branch.jsonLevels otherwise.jsonLevels) + 1
  | expression value => value.jsonLevels + 1
  | block body => mostJsonLevels body + 2

def mostJsonLevels : List Stmt → Nat
  | [] => 0
  | s :: rest => max s.jsonLevels (mostJsonLevels rest)

end

mutual

/-- The numbers in a statement. -/
def numbers : Stmt → List Float
  | ifThen condition branch => condition.numbers ++ branch.numbers
  | ifThenElse condition branch otherwise =>
    condition.numbers ++ (branch.numbers ++ otherwise.numbers)
  | expression value => value.numbers
  | block body => allNumbers body

def allNumbers : List Stmt → List Float
  | [] => []
  | s :: rest => s.numbers ++ allNumbers rest

end

end Stmt

open Discriminant

/-- Whether a number is read back from its JSON form. -/
def ReadsBack (x : Float) : Prop := Json.read (Number.json x) = .ok (.float x)

section Encode

variable {name : String}

theorem NodeKind.nesting_toJson (kind : NodeKind) (usable : Usable name)
    (parts : ∀ field ∈ fields, field.1 ∈ partNames) (distinct : fields.Pairwise (·.1 ≠ ·.1)) :
    (kind.toJson name fields).nesting = Json.fieldsNesting fields + 1 := by
  have apart : List.Pairwise (·.1 ≠ ·.1) ((name, .string kind.tag) :: fields) :=
    List.pairwise_cons.mpr ⟨fun field member => (usable.lacks parts field member).symm, distinct⟩
  rw [toJson, Json.ofFields_eq, Json.nesting, Json.fieldsNesting_arrange apart,
    Json.fieldsNesting]
  rfl

theorem NodeKind.legible_toJson (kind : NodeKind) (name : String)
    (legible : Json.FieldsLegible fields) : (kind.toJson name fields).Legible :=
  Json.legible_ofFields ⟨trivial, legible⟩

theorem Expr.nesting_encode (usable : Usable name) (e : Expr) :
    (e.encode name).nesting = e.jsonLevels := by
  induction e with
  | number value =>
    refine (NodeKind.nesting_toJson _ usable (by simp [partNames]) (by simp)).trans ?_
    simp only [Json.fieldsNesting, jsonLevels]
    split <;> rfl
  | binary op left right leftIh rightIh =>
    refine (NodeKind.nesting_toJson _ usable (by simp [partNames]) (by simp)).trans ?_
    simp only [Json.fieldsNesting, Json.nesting_string, leftIh, rightIh, jsonLevels, Nat.max_zero,
      Nat.zero_max]
  | _ => exact NodeKind.nesting_toJson _ usable (by simp [partNames]) (by simp)

namespace Stmt

mutual

theorem nesting_encode (usable : Usable name) (s : Stmt) :
    (s.encode name).nesting = s.jsonLevels := by
  cases s with
  | ifThen condition branch =>
    refine (NodeKind.nesting_toJson _ usable (by simp [partNames]) (by simp)).trans ?_
    simp only [Json.fieldsNesting, condition.nesting_encode usable, nesting_encode usable branch,
      jsonLevels, Nat.max_zero]
  | ifThenElse condition branch otherwise =>
    refine (NodeKind.nesting_toJson _ usable (by simp [partNames]) (by simp)).trans ?_
    simp only [Json.fieldsNesting, condition.nesting_encode usable, nesting_encode usable branch,
      nesting_encode usable otherwise, jsonLevels, Nat.max_zero]
  | expression value =>
    refine (NodeKind.nesting_toJson _ usable (by simp [partNames]) (by simp)).trans ?_
    simp only [Json.fieldsNesting, value.nesting_encode usable, jsonLevels, Nat.max_zero]
  | block body =>
    refine (NodeKind.nesting_toJson _ usable (by simp [partNames]) (by simp)).trans ?_
    simp only [Json.fieldsNesting, Json.nesting, mostNesting_encodeAll usable body, jsonLevels,
      Nat.max_zero]

theorem mostNesting_encodeAll (usable : Usable name) (body : List Stmt) :
    Json.mostNesting (encodeAll name body) = mostJsonLevels body := by
  cases body with
  | nil => rfl
  | cons s rest =>
    rw [encodeAll, Json.mostNesting, nesting_encode usable s, mostNesting_encodeAll usable rest]
    rfl

end

end Stmt

theorem Expr.legible_encode (name : String) (e : Expr) (finite : e.Finite)
    (readable : ∀ x ∈ e.numbers, ReadsBack x) : (e.encode name).Legible := by
  induction e with
  | number value =>
    have held : value.isFinite = true := finite
    rw [encode, if_pos held]
    exact NodeKind.legible_toJson _ _ ⟨readable value List.mem_cons_self, trivial⟩
  | binary op left right leftIh rightIh =>
    obtain ⟨leftReads, rightReads⟩ := List.forall_mem_append.mp readable
    exact NodeKind.legible_toJson _ _
      ⟨trivial, leftIh finite.1 leftReads, rightIh finite.2 rightReads, trivial⟩
  | _ => exact NodeKind.legible_toJson _ _ ⟨trivial, trivial⟩

namespace Stmt

mutual

theorem legible_encode (name : String) (s : Stmt) (finite : s.Finite)
    (readable : ∀ x ∈ s.numbers, ReadsBack x) : (s.encode name).Legible := by
  cases s with
  | ifThen condition branch =>
    obtain ⟨first, second⟩ := List.forall_mem_append.mp readable
    exact NodeKind.legible_toJson _ _ ⟨condition.legible_encode name finite.1 first,
      legible_encode name branch finite.2 second, trivial⟩
  | ifThenElse condition branch otherwise =>
    obtain ⟨first, more⟩ := List.forall_mem_append.mp readable
    obtain ⟨second, third⟩ := List.forall_mem_append.mp more
    exact NodeKind.legible_toJson _ _ ⟨condition.legible_encode name finite.1 first,
      legible_encode name branch finite.2.1 second,
      legible_encode name otherwise finite.2.2 third, trivial⟩
  | expression value =>
    exact NodeKind.legible_toJson _ _ ⟨value.legible_encode name finite readable, trivial⟩
  | block body =>
    exact NodeKind.legible_toJson _ _ ⟨allLegible_encodeAll name body finite readable, trivial⟩

theorem allLegible_encodeAll (name : String) (body : List Stmt) (finite : AllFinite body)
    (readable : ∀ x ∈ allNumbers body, ReadsBack x) : Json.AllLegible (encodeAll name body) := by
  cases body with
  | nil => trivial
  | cons s rest =>
    obtain ⟨first, others⟩ := List.forall_mem_append.mp readable
    exact ⟨legible_encode name s finite.1 first, allLegible_encodeAll name rest finite.2 others⟩

end

end Stmt

end Encode

end Scriptlet

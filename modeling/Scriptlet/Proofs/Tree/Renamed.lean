import Scriptlet.Proofs.Json.Fields
import Scriptlet.Tree.ToJson

/-! Trees with their tags in one field and in another. To rename the field of the tags is to encode
the tree with the other one; to rename a field that holds no tags changes nothing. -/
namespace Scriptlet

namespace Json

theorem renameInFields_setField (source target key : String) (value : Json)
    (fields : List (String × Json)) :
    renameInFields source target (setField key value fields) =
      setField key (renameField source target value) (renameInFields source target fields) := by
  induction fields with
  | nil => rfl
  | cons field rest ih =>
    rw [setField, renameInFields, setField]
    split
    · rw [renameInFields]
    split
    · rw [renameInFields, renameInFields]
    · rw [renameInFields, ih]

theorem renameInFields_arrange (source target : String) (fields : List (String × Json)) :
    renameInFields source target (arrange fields) =
      arrange (renameInFields source target fields) := by
  suffices general : ∀ sorted, renameInFields source target
      (fields.foldl (fun sorted field => setField field.1 field.2 sorted) sorted) =
        (renameInFields source target fields).foldl
          (fun sorted field => setField field.1 field.2 sorted)
          (renameInFields source target sorted) from
    general []
  induction fields with
  | nil => exact fun _ => rfl
  | cons field rest ih =>
    intro sorted
    rw [List.foldl_cons, ih, renameInFields_setField, renameInFields, List.foldl_cons]

/-- No field has this name. -/
def Lacks (fields : List (String × Json)) (name : String) : Prop := ∀ field ∈ fields, field.1 ≠ name

theorem Lacks.lookup {fields : List (String × Json)} (lacks : Lacks fields name) :
    fields.reverse.lookup name = none := by
  rw [List.lookup_eq_none_iff]
  intro field member
  exact bne_iff_ne.mpr (lacks field (List.mem_reverse.mp member)).symm

theorem Lacks.rename {fields : List (String × Json)} (lacks : Lacks fields name)
    (source target : String) : Lacks (renameInFields source target fields) name := by
  induction fields with
  | nil => exact lacks
  | cons field rest ih =>
    obtain ⟨head, tail⟩ := List.forall_mem_cons.mp lacks
    exact List.forall_mem_cons.mpr ⟨head, ih tail⟩

theorem renameField_lacking {fields : List (String × Json)} (lacks : Lacks fields source)
    (target : String) : renameField source target (ofFields fields) =
      ofFields (renameInFields source target fields) := by
  rw [ofFields_eq, renameField, renameInFields_arrange]
  rw [lookup_arrange, (lacks.rename source target).lookup]
  rfl

theorem lookup_filter_ne (fields : List (String × Json)) (name key : String) :
    (fields.filter (·.1 ≠ name)).lookup key = if key = name then none else fields.lookup key := by
  induction fields with
  | nil => simp
  | cons field rest ih =>
    obtain ⟨other, value⟩ := field
    by_cases same : other = name
    · rw [List.filter_cons_of_neg (by simp [same]), ih, lookup_cons_ite, same]
      split <;> rfl
    · rw [List.filter_cons_of_pos (by simp [same]), lookup_cons_ite, ih, lookup_cons_ite]
      split
      · rename_i here
        rw [if_neg (here ▸ same)]
      · rfl

theorem lookup_reverse_cons (name key : String) (value : Json) (fields : List (String × Json)) :
    ((name, value) :: fields).reverse.lookup key =
      (fields.reverse.lookup key).or (if key = name then some value else none) := by
  rw [List.reverse_cons, List.lookup_append, lookup_cons_ite, List.lookup_nil]

/-- The renamed field takes the place of its new name in the order of the keys. -/
theorem renameField_ofFields_cons {fields : List (String × Json)} (lacks : Lacks fields source)
    (free : Lacks fields target) (value : Json) :
    renameField source target (ofFields ((source, value) :: fields)) =
      ofFields ((target, renameField source target value) ::
        renameInFields source target fields) := by
  rw [ofFields_eq, renameField, renameInFields_arrange, renameInFields]
  have held : (arrange ((source, renameField source target value) ::
      renameInFields source target fields)).lookup source =
        some (renameField source target value) := by
    rw [lookup_arrange, lookup_reverse_cons, (lacks.rename source target).lookup, if_pos rfl]
    rfl
  rw [held, ofFields_eq]
  dsimp only
  congr 1
  have kept : Ordered _ := List.Pairwise.filter (fun field => field.1 ≠ source)
    (ordered_arrange ((source, renameField source target value) ::
      renameInFields source target fields))
  refine (kept.setField _ _).ext (ordered_arrange _) fun key => ?_
  rw [lookup_setField, lookup_filter_ne]
  simp only [lookup_arrange, lookup_reverse_cons]
  by_cases new : key = target
  · rw [if_pos new, if_pos new, new, (free.rename source target).lookup]
    rfl
  rw [if_neg new, if_neg new, Option.or_none]
  split
  · rename_i old
    rw [old, (lacks.rename source target).lookup]
  · rw [Option.or_none]

end Json

namespace Discriminant

/-- The name of a field that can hold the tags. -/
def Usable (name : String) : Prop := name ≠ "" ∧ name ∉ partNames

theorem isUsable_iff : isUsable name = true ↔ Usable name := by
  simp [isUsable, Usable]

theorem usable_standard : Usable standard := by
  rw [← isUsable_iff]
  decide

theorem Usable.lacks {fields : List (String × Json)} (usable : Usable name)
    (parts : ∀ field ∈ fields, field.1 ∈ partNames) : Json.Lacks fields name := by
  rintro field member rfl
  exact usable.2 (parts field member)

end Discriminant

open Discriminant

section Rename

variable {source target : String}

/-- What a field is called after the renaming. -/
def renamed (source target name : String) : String := if name = source then target else name

theorem NodeKind.renameField_toJson (kind : NodeKind) (usable : Usable source)
    (free : Usable target) (parts : ∀ field ∈ fields, field.1 ∈ partNames) (name : String) :
    (kind.toJson name fields).renameField source target =
      kind.toJson (renamed source target name) (Json.renameInFields source target fields) := by
  rw [renamed]
  split
  · rename_i same
    subst same
    exact Json.renameField_ofFields_cons (usable.lacks parts) (free.lacks parts) _
  · rename_i differs
    have lacks : Json.Lacks ((name, .string kind.tag) :: fields) source :=
      List.forall_mem_cons.mpr ⟨differs, usable.lacks parts⟩
    exact Json.renameField_lacking lacks target

/-- A number has no fields. -/
theorem renameField_numeric (value : Float) :
    (if value.isFinite then Json.float value else .null).renameField source target =
      if value.isFinite then .float value else .null := by
  split <;> rfl

theorem Expr.renameField_encode (usable : Usable source) (free : Usable target) (name : String)
    (e : Expr) :
    (e.encode name).renameField source target = e.encode (renamed source target name) := by
  induction e with
  | number value =>
    refine (NodeKind.renameField_toJson _ usable free (by simp [partNames]) name).trans ?_
    rw [Json.renameInFields, renameField_numeric]
    rfl
  | string value => exact NodeKind.renameField_toJson _ usable free (by simp [partNames]) name
  | boolean value => exact NodeKind.renameField_toJson _ usable free (by simp [partNames]) name
  | identifier name' => exact NodeKind.renameField_toJson _ usable free (by simp [partNames]) name
  | binary op left right leftIh rightIh =>
    refine (NodeKind.renameField_toJson _ usable free (by simp [partNames]) name).trans ?_
    simp only [Json.renameInFields, leftIh, rightIh]
    rfl

namespace Stmt

mutual

theorem renameField_encode (usable : Usable source) (free : Usable target) (name : String)
    (s : Stmt) :
    (s.encode name).renameField source target = s.encode (renamed source target name) := by
  cases s with
  | ifThen condition branch =>
    refine (NodeKind.renameField_toJson _ usable free (by simp [partNames]) name).trans ?_
    simp only [Json.renameInFields, condition.renameField_encode usable free,
      renameField_encode usable free name branch]
    rfl
  | ifThenElse condition branch otherwise =>
    refine (NodeKind.renameField_toJson _ usable free (by simp [partNames]) name).trans ?_
    simp only [Json.renameInFields, condition.renameField_encode usable free,
      renameField_encode usable free name branch, renameField_encode usable free name otherwise]
    rfl
  | expression value =>
    refine (NodeKind.renameField_toJson _ usable free (by simp [partNames]) name).trans ?_
    simp only [Json.renameInFields, value.renameField_encode usable free]
    rfl
  | block body =>
    refine (NodeKind.renameField_toJson _ usable free (by simp [partNames]) name).trans ?_
    simp only [Json.renameInFields, Json.renameField, renameInItems_encodeAll usable free name body]
    rfl

theorem renameInItems_encodeAll (usable : Usable source) (free : Usable target) (name : String)
    (body : List Stmt) : Json.renameInItems source target (encodeAll name body) =
      encodeAll (renamed source target name) body := by
  cases body with
  | nil => rfl
  | cons s rest =>
    rw [encodeAll, Json.renameInItems, renameField_encode usable free name s,
      renameInItems_encodeAll usable free name rest]
    rfl

end

end Stmt

end Rename

end Scriptlet

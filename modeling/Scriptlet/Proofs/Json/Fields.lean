import Mathlib.Data.String.Basic
import Scriptlet.Json.Basic

/-! The fields of an object as a finite map. In the order of their keys, fields are determined by
what they hold for each key; so an object is built from its fields in any way. -/
namespace Scriptlet.Json

/-- Fields in the order of their keys, each key at most once. -/
def Ordered (fields : List (String × Json)) : Prop := fields.Pairwise (·.1 < ·.1)

/-- Sets each of a list of fields in its place, the later ones last. -/
def arrange (fields : List (String × Json)) : List (String × Json) :=
  fields.foldl (fun sorted field => setField field.1 field.2 sorted) []

theorem ofFields_eq (fields : List (String × Json)) : ofFields fields = object (arrange fields) :=
  rfl

theorem lookup_cons_ite (key other : String) (value : Json) (rest : List (String × Json)) :
    List.lookup key ((other, value) :: rest) =
      if key = other then some value else rest.lookup key := by
  rw [List.lookup_cons]
  by_cases same : key = other <;> simp [same, beq_false_of_ne]

theorem lookup_setField (key other : String) (value : Json) (fields : List (String × Json)) :
    (setField key value fields).lookup other =
      if other = key then some value else fields.lookup other := by
  induction fields with
  | nil => rw [setField, lookup_cons_ite, List.lookup_nil]
  | cons field rest ih =>
    obtain ⟨name, old⟩ := field
    rw [setField]
    split
    · rename_i same
      subst same
      simp only [lookup_cons_ite]
      split <;> rfl
    split
    · rw [lookup_cons_ite]
    · rename_i differs _
      simp only [lookup_cons_ite, ih]
      split
      · rename_i here
        rw [if_neg (by rw [here]; exact Ne.symm differs)]
      · rfl

theorem setField_nil (key : String) (value : Json) : setField key value [] = [(key, value)] := rfl

theorem setField_before {key other : String} (before : key < other) (value old : Json)
    (rest : List (String × Json)) :
    setField key value ((other, old) :: rest) = (key, value) :: (other, old) :: rest := by
  rw [setField, if_neg before.ne, if_pos before]

theorem setField_after {key other : String} (after : other < key) (value old : Json)
    (rest : List (String × Json)) :
    setField key value ((other, old) :: rest) = (other, old) :: setField key value rest := by
  rw [setField, if_neg after.ne', if_neg after.asymm]

/-- What comes before all fields comes before them also with another one set. -/
theorem before_setField {first key : String} (before : first < key) (value : Json)
    {fields : List (String × Json)} (each : ∀ field ∈ fields, first < field.1) :
    ∀ field ∈ setField key value fields, first < field.1 := by
  induction fields with
  | nil =>
    intro field member
    rw [List.mem_singleton.mp member]
    exact before
  | cons field rest ih =>
    obtain ⟨name, old⟩ := field
    obtain ⟨head, tail⟩ := List.forall_mem_cons.mp each
    rw [setField]
    split
    · exact List.forall_mem_cons.mpr ⟨before, tail⟩
    split
    · exact List.forall_mem_cons.mpr ⟨before, each⟩
    · exact List.forall_mem_cons.mpr ⟨head, ih tail⟩

theorem mem_setField {field : String × Json} {fields : List (String × Json)}
    (member : field ∈ setField key value fields) : field = (key, value) ∨ field ∈ fields := by
  induction fields with
  | nil => exact .inl (List.mem_singleton.mp member)
  | cons other rest ih =>
    rw [setField] at member
    split at member
    · rcases List.mem_cons.mp member with same | later
      · exact .inl same
      · exact .inr (List.mem_cons_of_mem _ later)
    split at member
    · rcases List.mem_cons.mp member with same | later
      · exact .inl same
      · exact .inr later
    · rcases List.mem_cons.mp member with same | later
      · exact .inr (List.mem_cons.mpr (.inl same))
      · rcases ih later with same | earlier
        · exact .inl same
        · exact .inr (List.mem_cons_of_mem _ earlier)

theorem mem_arrange {field : String × Json} {fields : List (String × Json)}
    (member : field ∈ arrange fields) : field ∈ fields := by
  suffices general : ∀ sorted,
      field ∈ fields.foldl (fun sorted field => setField field.1 field.2 sorted) sorted →
        field ∈ sorted ∨ field ∈ fields by
    exact (general [] member).resolve_left (List.not_mem_nil)
  clear member
  induction fields with
  | nil => exact fun _ => .inl
  | cons other rest ih =>
    intro sorted member
    rcases ih _ member with set | later
    · rcases mem_setField set with same | earlier
      · exact .inr (List.mem_cons.mpr (.inl same))
      · exact .inl earlier
    · exact .inr (List.mem_cons_of_mem _ later)

theorem Ordered.setField {fields : List (String × Json)} (ordered : Ordered fields) (key : String)
    (value : Json) : Ordered (setField key value fields) := by
  induction fields with
  | nil => exact List.pairwise_singleton _ _
  | cons field rest ih =>
    obtain ⟨name, old⟩ := field
    obtain ⟨head, tail⟩ := List.pairwise_cons.mp ordered
    rw [Json.setField]
    split
    · rename_i same
      exact List.pairwise_cons.mpr ⟨same ▸ head, tail⟩
    split
    · rename_i before
      refine List.pairwise_cons.mpr ⟨?_, ordered⟩
      exact List.forall_mem_cons.mpr ⟨before, fun field member => before.trans (head field member)⟩
    · rename_i differs after
      have before : name < key := lt_of_le_of_ne (not_lt.mp after) (Ne.symm differs)
      exact List.pairwise_cons.mpr ⟨before_setField before value head, ih tail⟩

theorem ordered_arrange (fields : List (String × Json)) : Ordered (arrange fields) := by
  suffices general : ∀ sorted, Ordered sorted →
      Ordered (fields.foldl (fun sorted field => setField field.1 field.2 sorted) sorted) from
    general [] List.Pairwise.nil
  induction fields with
  | nil => exact fun _ ordered => ordered
  | cons field rest ih => exact fun sorted ordered => ih _ (ordered.setField field.1 field.2)

theorem setField_last (value : Json) {fields : List (String × Json)}
    (each : ∀ field ∈ fields, field.1 < key) :
    setField key value fields = fields ++ [(key, value)] := by
  induction fields with
  | nil => rfl
  | cons field rest ih =>
    obtain ⟨head, tail⟩ := List.forall_mem_cons.mp each
    rw [setField_after head, ih tail]
    rfl

/-- Fields in order stay as they are. -/
theorem arrange_ordered {fields : List (String × Json)} (ordered : Ordered fields) :
    arrange fields = fields := by
  suffices general : ∀ sorted, Ordered (sorted ++ fields) →
      fields.foldl (fun sorted field => setField field.1 field.2 sorted) sorted =
        sorted ++ fields from
    general [] ordered
  clear ordered
  induction fields with
  | nil => exact fun sorted _ => (List.append_nil sorted).symm
  | cons field rest ih =>
    intro sorted ordered
    have last : ∀ other ∈ sorted, other.1 < field.1 := by
      intro other member
      exact (List.pairwise_append.mp ordered).2.2 other member field List.mem_cons_self
    rw [List.append_cons] at ordered
    rw [List.foldl_cons, setField_last _ last, ih _ ordered, ← List.append_cons]

theorem lookup_arrange (key : String) (fields : List (String × Json)) :
    (arrange fields).lookup key = fields.reverse.lookup key := by
  suffices general : ∀ sorted : List (String × Json),
      (fields.foldl (fun sorted field => setField field.1 field.2 sorted) sorted).lookup key =
        (fields.reverse.lookup key).or (sorted.lookup key) by
    rw [arrange, general, List.lookup_nil, Option.or_none]
  induction fields with
  | nil => exact fun _ => rfl
  | cons field rest ih =>
    intro sorted
    rw [List.foldl_cons, ih, lookup_setField, List.reverse_cons, List.lookup_append,
      Option.or_assoc, lookup_cons_ite, List.lookup_nil]
    split <;> rfl

theorem lookup_eq_none_of_before {key : String} {fields : List (String × Json)}
    (each : ∀ field ∈ fields, key < field.1) : fields.lookup key = none := by
  rw [List.lookup_eq_none_iff]
  intro field member
  exact bne_iff_ne.mpr (each field member).ne

/-- The first key of all is the least. -/
theorem Ordered.le_of_lookup {fields : List (String × Json)} (ordered : Ordered (field :: fields))
    (found : List.lookup key (field :: fields) = some value) : field.1 ≤ key := by
  obtain ⟨head, _⟩ := List.pairwise_cons.mp ordered
  by_contra before
  rw [not_le] at before
  have nothing := lookup_eq_none_of_before
    (List.forall_mem_cons.mpr ⟨before, fun other member => before.trans (head other member)⟩)
  rw [found] at nothing
  contradiction

/-- Fields in order that hold the same for each key are the same. -/
theorem Ordered.ext {first second : List (String × Json)} (left : Ordered first)
    (right : Ordered second) (same : ∀ key, first.lookup key = second.lookup key) :
    first = second := by
  induction first generalizing second with
  | nil =>
    cases second with
    | nil => rfl
    | cons field rest =>
      have found := same field.1
      rw [lookup_cons_ite, if_pos rfl] at found
      contradiction
  | cons field rest ih =>
    obtain ⟨key, value⟩ := field
    obtain ⟨head, tail⟩ := List.pairwise_cons.mp left
    cases second with
    | nil =>
      have found := same key
      rw [lookup_cons_ite, if_pos rfl] at found
      contradiction
    | cons field' rest' =>
      obtain ⟨key', value'⟩ := field'
      obtain ⟨head', tail'⟩ := List.pairwise_cons.mp right
      have first : List.lookup key ((key', value') :: rest') = some value := by
        rw [← same, lookup_cons_ite, if_pos rfl]
      have second : List.lookup key' ((key, value) :: rest) = some value' := by
        rw [same, lookup_cons_ite, if_pos rfl]
      obtain rfl : key = key' := le_antisymm (left.le_of_lookup second) (right.le_of_lookup first)
      rw [lookup_cons_ite, if_pos rfl] at first
      cases first
      rw [ih tail tail' fun other => ?_]
      by_cases this : other = key
      · subst this
        rw [lookup_eq_none_of_before head, lookup_eq_none_of_before head']
      · have there := same other
        rwa [lookup_cons_ite, if_neg this, lookup_cons_ite, if_neg this] at there

end Scriptlet.Json

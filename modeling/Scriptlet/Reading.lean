/-! What a reader takes off the head of a list. A reader that always takes something shows it in
the type of its result, so that a loop over it ends. -/
namespace Scriptlet

/-- Something that has been read from a list, and the rest of the list, which has fewer than
`bound` items. -/
structure Reading (item : Type) (α : Type) (bound : Nat) where
  node : α
  rest : List item
  within : rest.length < bound

/-- Something that leaves `rest`, under the tightest bound. -/
def Reading.leaving (rest : List item) (node : α) : Reading item α (rest.length + 1) :=
  ⟨node, rest, Nat.lt_succ_self _⟩

/-- The same reading under a looser bound. -/
def Reading.widen (r : Reading item α bound) (looser : bound ≤ wider) : Reading item α wider :=
  ⟨r.node, r.rest, Nat.lt_of_lt_of_le r.within looser⟩

/-- What follows the first item of the rest is shorter still. -/
theorem Reading.tail_within {r : Reading item α bound} {first : item} {after : List item}
    (split : r.rest = first :: after) : after.length < bound := by
  have within := r.within
  rw [split, List.length_cons] at within
  exact Nat.lt_of_succ_lt within

end Scriptlet

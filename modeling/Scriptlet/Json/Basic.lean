import Scriptlet.Number.Decimal

/-! JSON values. The fields of an object are kept in the order of their keys, by code points, and
every key occurs once. -/
namespace Scriptlet

/-- A JSON value. Whole numbers are told apart from the others as long as they fit into a machine
word. -/
inductive Json where
  | null
  | boolean (value : Bool)
  | integer (value : Int)
  | float (value : Float)
  | string (value : String)
  | array (items : List Json)
  | object (fields : List (String × Json))

namespace Json

/-- Sets a field in its place in the order. -/
def setField (key : String) (value : Json) : List (String × Json) → List (String × Json)
  | [] => [(key, value)]
  | (other, old) :: rest =>
    if key = other then (key, value) :: rest
    else if key < other then (key, value) :: (other, old) :: rest
    else (other, old) :: setField key value rest

/-- The object with these fields; of two with one key the later one counts. -/
def ofFields (fields : List (String × Json)) : Json :=
  object (fields.foldl (fun sorted field => setField field.1 field.2 sorted) [])

/-- The double nearest to a whole number. -/
def floatOfInt (value : Int) : Float :=
  Number.ofRank (value < 0) (Decimal.nearestRank ⟨value.natAbs, 0⟩)

mutual

/-- Gives every field called `source`, in every object of a value, the name `target`. A field that
was called `target` before gives way. -/
def renameField (source target : String) : Json → Json
  | array items => array (renameInItems source target items)
  | object fields =>
    let inner := renameInFields source target fields
    match inner.lookup source with
    | none => object inner
    | some value => object (setField target value (inner.filter (·.1 ≠ source)))
  | value => value

def renameInItems (source target : String) : List Json → List Json
  | [] => []
  | item :: rest => renameField source target item :: renameInItems source target rest

def renameInFields (source target : String) : List (String × Json) → List (String × Json)
  | [] => []
  | (key, value) :: rest =>
    (key, renameField source target value) :: renameInFields source target rest

end

end Json
end Scriptlet

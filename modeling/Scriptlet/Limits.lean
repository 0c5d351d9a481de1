/-! Limits on nesting. -/
namespace Scriptlet

/-- How deep statements and expressions may nest while they are read, and while they run. -/
structure Limits where
  parsing : Nat := 100
  evaluation : Nat := 1000
  deriving DecidableEq, Repr

end Scriptlet

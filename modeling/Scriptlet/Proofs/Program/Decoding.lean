import Scriptlet.Proofs.Program.RoundTrip
import Scriptlet.Proofs.Tree.Decoded

/-! Trees as JSON values, for every name of the field that holds the tags. -/
namespace Scriptlet

/-- Decoding undoes encoding, and takes no name for another: a tree of finite numbers is read back
with the name that it was encoded with, and also with any other name if that was the standard one.
Trees that are parsed and trees that are decoded have finite numbers. -/
theorem decode_encode :
    (∀ (s : Stmt) (written asked : String), s.Finite →
      Discriminant.Usable written → Discriminant.Usable asked →
      ∃ json, s.toJson written = .ok json ∧
        (written = asked ∨ written = "$kind" → Stmt.ofJson asked json = .ok s) ∧
        (¬ (written = asked ∨ written = "$kind") → ∃ e, Stmt.ofJson asked json = .error e)) ∧
    (∀ limit source root, parseSource limit source = .ok root → root.Finite) ∧
    ∀ discriminant (json : Json) root, json.Proper →
      Stmt.ofJson discriminant json = .ok root → root.Finite := by
  refine ⟨?_, ?_, ?_⟩
  · intro s written asked finite usable askable
    have decoded := Stmt.ofJson_encode written askable finite
    refine ⟨s.encode written, s.toJson_usable usable, ?_, ?_⟩
    · intro held
      exact decoded.trans (if_pos held)
    · intro lost
      exact ⟨_, decoded.trans (if_neg lost)⟩
  · intro limit source root parsed
    exact (parseSource_wellFormed parsed).finite
  · intro discriminant json root proper read
    exact Stmt.ofJson_finite proper read

end Scriptlet

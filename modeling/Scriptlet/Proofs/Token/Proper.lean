import Scriptlet.Definition
import Scriptlet.Proofs.Number.Plain
import Scriptlet.Proofs.Token.Scanned

/-! What the scanner finds. Its numbers have no sign and are finite, and its names are proper names
that spell no keyword. -/
namespace Scriptlet
namespace Token

/-- The words that are no names. -/
def keywords : List String := ["if", "else", "true", "false"]

/-- A kind of token as it can be written: a number without a sign, or a name that is no keyword. -/
def Kind.Proper : Kind → Prop
  | number value => Number.signBit value = false
  | identifier name => Definition.isName name.toList = true ∧ name ∉ keywords
  | _ => True

theorem proper_wordKind (isName : Definition.isName word = true) :
    (Lexeme.wordKind word).Proper := by
  unfold Lexeme.wordKind
  repeat' split
  case isFalse.isFalse.isFalse.isFalse ifWord elseWord trueWord falseWord =>
    refine ⟨by rw [String.toList_ofList]; exact isName, fun keyword => ?_⟩
    simp only [keywords, List.mem_cons, List.not_mem_nil, or_false, ← String.toList_inj,
      String.toList_ofList] at keyword
    rcases keyword with same | same | same | same <;> contradiction
  all_goals trivial

theorem proper_word (start : Lexeme.isNameStart c = true) (cs : List Char) :
    (Lexeme.word c cs).kind.Proper := by
  apply proper_wordKind
  rw [Definition.isName, start, List.all_takeWhile]
  rfl

theorem proper_number {cs : List Char} {lexeme : Lexeme cs}
    (read : Lexeme.number? cs = some lexeme) : lexeme.kind.Proper := by
  unfold Lexeme.number? at read
  dsimp only at read
  split at read
  · split at read
    · contradiction
    · cases read
      exact Number.signBit_toFloat _
  · split at read
    · contradiction
    · cases read
      exact Number.signBit_toFloat _

theorem proper_operator {symbol : String} {kind : Kind}
    (read : (Operator.ofSymbol? symbol).map .operator = some kind) : kind.Proper := by
  obtain ⟨op, _, rfl⟩ := Option.map_eq_some_iff.mp read
  trivial

theorem proper_mark {kind : Kind} (read : Lexeme.mark? c = some kind) : kind.Proper := by
  unfold Lexeme.mark? at read
  repeat' split at read
  case isFalse.isFalse.isFalse.isFalse.isFalse => exact proper_operator read
  all_goals cases read; trivial

theorem proper_symbol {cs : List Char} {lexeme : Lexeme cs}
    (read : Lexeme.symbol? cs = some lexeme) : lexeme.kind.Proper := by
  match cs with
  | [] => contradiction
  | [c] =>
    obtain ⟨kind, mark, rfl⟩ := Option.map_eq_some_iff.mp read
    exact proper_mark mark
  | c :: d :: rest =>
    rw [Lexeme.symbol?] at read
    split at read
    · rename_i double
      cases read
      exact proper_operator double
    · obtain ⟨kind, mark, rfl⟩ := Option.map_eq_some_iff.mp read
      exact proper_mark mark

theorem proper_string {opened : Position} {cs : List Char} {lexeme : Lexeme ('"' :: cs)}
    (read : Lexeme.string opened cs = .ok lexeme) : lexeme.kind.Proper := by
  unfold Lexeme.string at read
  split at read
  · contradiction
  · cases read
    trivial

theorem proper_read {place : Position} {cs : List Char} {lexeme : Lexeme (c :: cs)}
    (read : Lexeme.read place c cs = .ok lexeme) : lexeme.kind.Proper := by
  unfold Lexeme.read at read
  split at read
  · rename_i quote
    subst quote
    exact proper_string read
  split at read
  · rename_i start
    cases read
    exact proper_word start cs
  split at read
  · rename_i found
    cases read
    cases number : Lexeme.number? (c :: cs) with
    | some first =>
      rw [number] at found
      cases found
      exact proper_number number
    | none =>
      rw [number] at found
      exact proper_symbol found
  · contradiction

/-- Everything that is found is proper, and its numbers are finite. -/
theorem Finds.proper {place : Position} {cs : List Char} {tokens : List Token}
    (finds : Finds place cs tokens) : ∀ t ∈ tokens, t.kind.Proper ∧ t.kind.Finite := by
  induction finds with
  | ending gap =>
    intro t among
    rw [List.mem_singleton.mp among]
    exact ⟨trivial, trivial⟩
  | token gap read finite onward ih =>
    intro t among
    rcases List.mem_cons.mp among with rfl | among
    · exact ⟨proper_read read, finite⟩
    · exact ih t among

/-- The tokens of a source text are proper, and its numbers are finite. -/
theorem scan_proper (scans : scan source = .ok tokens) :
    ∀ t ∈ tokens, t.kind.Proper ∧ t.kind.Finite :=
  (scan_finds scans).proper

end Token
end Scriptlet

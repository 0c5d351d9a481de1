/-! The binary operators and how tightly they bind. -/
namespace Scriptlet

/-- Binding strength, from the loosest operator to operands that need no operator at all. -/
inductive Precedence where
  | assignment
  | logicalOr
  | logicalAnd
  | equality
  | relational
  | additive
  | multiplicative
  | primary
  deriving DecidableEq, Repr

namespace Precedence

/-- The place in the order, loosest first. -/
def level : Precedence → Nat
  | assignment => 0
  | logicalOr => 1
  | logicalAnd => 2
  | equality => 3
  | relational => 4
  | additive => 5
  | multiplicative => 6
  | primary => 7

/-- The next tighter strength; nothing is tighter than `primary`. -/
def tighter : Precedence → Precedence
  | assignment => logicalOr
  | logicalOr => logicalAnd
  | logicalAnd => equality
  | equality => relational
  | relational => additive
  | additive => multiplicative
  | multiplicative => primary
  | primary => primary

theorem level_tighter {p : Precedence} (operators : p ≠ primary) :
    p.tighter.level = p.level + 1 := by
  cases p <;> first | rfl | contradiction

end Precedence

inductive Operator where
  | assign
  | or
  | and
  | equal
  | notEqual
  | less
  | lessEqual
  | greater
  | greaterEqual
  | plus
  | minus
  | times
  | divide
  | remainder
  deriving DecidableEq, Repr

namespace Operator

/-- Every operator, loosest first. -/
def all : List Operator :=
  [assign, or, and, equal, notEqual, less, lessEqual, greater, greaterEqual, plus, minus, times,
    divide, remainder]

/-- The written form. -/
def symbol : Operator → String
  | assign => "="
  | or => "||"
  | and => "&&"
  | equal => "=="
  | notEqual => "!="
  | less => "<"
  | lessEqual => "<="
  | greater => ">"
  | greaterEqual => ">="
  | plus => "+"
  | minus => "-"
  | times => "*"
  | divide => "/"
  | remainder => "%"

def precedence : Operator → Precedence
  | assign => .assignment
  | or => .logicalOr
  | and => .logicalAnd
  | equal | notEqual => .equality
  | less | lessEqual | greater | greaterEqual => .relational
  | plus | minus => .additive
  | times | divide | remainder => .multiplicative

/-- Assignments group to the right, all other operators to the left. -/
def groupsRight (op : Operator) : Bool := op = assign

/-- The operator written so, if there is one. -/
def ofSymbol? (symbol : String) : Option Operator := all.find? (·.symbol = symbol)

/-- The operators that bind less tightly. -/
def looser (op : Operator) : List Operator :=
  all.filter fun other => other.precedence.level < op.precedence.level

def unknownMessage (symbol : String) : String :=
  "Unknown binary operator \"" ++ symbol ++ "\""

end Operator
end Scriptlet

/-! Places in a source text. A place counts lines and columns from one, by characters;
only a newline ends a line. A span runs from a first place to the place after its last
character. -/
namespace Scriptlet

/-- A place between two characters of a source text. -/
structure Position where
  line : Nat
  column : Nat
  deriving DecidableEq, Repr

namespace Position

def start : Position := ⟨1, 1⟩

/-- The place on the other side of one character. -/
def step (p : Position) (c : Char) : Position :=
  if c = '\n' then ⟨p.line + 1, 1⟩ else ⟨p.line, p.column + 1⟩

def after (p : Position) (text : List Char) : Position := text.foldl step p

@[simp] theorem after_nil (p : Position) : p.after [] = p := rfl

@[simp] theorem after_cons (p : Position) (c : Char) (text : List Char) :
    p.after (c :: text) = (p.step c).after text := rfl

theorem after_append (p : Position) (text more : List Char) :
    p.after (text ++ more) = (p.after text).after more := List.foldl_append

end Position

/-- A stretch of source text, from `first` up to `last`. -/
structure Span where
  first : Position
  last : Position
  deriving DecidableEq, Repr

namespace Span

def point (p : Position) : Span := ⟨p, p⟩

/-- Messages name a stretch by the line and column at which it begins. -/
def render (s : Span) : String :=
  toString s.first.line ++ ":" ++ toString s.first.column

end Span
end Scriptlet

import Scriptlet.Definition
import Scriptlet.Proofs.Number.Plain
import Scriptlet.Proofs.Token.Scanned

/-! Lexemes as they are written. Each kind of lexeme is found again at the head of a text that
begins with its written form, as long as what follows cannot be part of it. -/
namespace Scriptlet
namespace Token

section Mark

instance (c : Char) (cs : List Char) : Decidable (Solid c cs) :=
  inferInstanceAs (Decidable (_ ∧ _))

/-- A character that begins no string, word, number or comment. -/
def Marking (c : Char) : Prop :=
  c ≠ '"' ∧ Lexeme.isNameStart c = false ∧ c.isDigit = false ∧ c ≠ '.' ∧ c ≠ '/' ∧
    Text.isBlank c = false

instance (c : Char) : Decidable (Marking c) := inferInstanceAs (Decidable (_ ∧ _))

theorem number?_eq_none (noDigit : c.isDigit = false) (noPoint : c ≠ '.') (cs : List Char) :
    Lexeme.number? (c :: cs) = none := by
  have digits : (c :: cs).takeWhile Char.isDigit = [] := by simp [noDigit]
  unfold Lexeme.number?
  dsimp only
  split
  · rename_i split
    simp [noDigit] at split
    exact absurd split.1 noPoint
  · exact dif_pos digits

theorem read_symbol (quote : c ≠ '"') (noName : Lexeme.isNameStart c = false)
    (noDigit : c.isDigit = false) (noPoint : c ≠ '.') (place : Position) {cs : List Char}
    {lexeme : Lexeme (c :: cs)} (symbol : Lexeme.symbol? (c :: cs) = some lexeme) :
    Lexeme.read place c cs = .ok lexeme := by
  rw [Lexeme.read, dif_neg quote, if_neg (by rw [noName]; exact Bool.false_ne_true),
    number?_eq_none noDigit noPoint, symbol]
  rfl

/-- No operator of two characters begins so. -/
def Single (c : Char) : Prop :=
  ∀ op ∈ Operator.all, op.symbol.toList.take 1 ≠ [c] ∨ op.symbol.toList.length = 1

instance (c : Char) : Decidable (Single c) := List.decidableBAll ..

theorem doubleMark?_single (single : Single c) (d : Char) : Lexeme.doubleMark? c d = none := by
  rw [Lexeme.doubleMark?, Option.map_eq_none_iff, Operator.ofSymbol?, List.find?_eq_none]
  intro op among written
  have symbol : op.symbol.toList = [c, d] := by
    rw [of_decide_eq_true written, String.toList_ofList]
  have listed := single op among
  rw [symbol] at listed
  rcases listed with differs | short
  · exact differs rfl
  · exact absurd short (Nat.succ_ne_self 1)

theorem opens_mark {c : Char} {kind : Kind} (marking : Marking c) (single : Single c)
    (mark : Lexeme.mark? c = some kind) (finite : kind.Finite) (rest : List Char) :
    Opens kind rest (c :: rest) := by
  obtain ⟨quote, noName, noDigit, noPoint, slash, solid⟩ := marking
  refine ⟨c, rest, rfl, ⟨solid, fun comment => slash comment.1⟩, finite, fun place => ?_⟩
  cases rest with
  | nil =>
    refine ⟨⟨kind, [c], [], rfl, by simp⟩,
      read_symbol quote noName noDigit noPoint place ?_, rfl, rfl⟩
    simp [Lexeme.symbol?, mark]
  | cons d rest =>
    refine ⟨⟨kind, [c], d :: rest, rfl, by simp⟩,
      read_symbol quote noName noDigit noPoint place ?_, rfl, rfl⟩
    simp [Lexeme.symbol?, doubleMark?_single single d, mark]

theorem symbol?_operator (op : Operator) (rest : List Char) : ∃ c more lexeme,
    op.symbol.toList ++ ' ' :: rest = c :: more ∧ Lexeme.symbol? (c :: more) = some lexeme ∧
      lexeme.kind = .operator op ∧ lexeme.rest = ' ' :: rest ∧ c ≠ '"' ∧
      Lexeme.isNameStart c = false ∧ c.isDigit = false ∧ c ≠ '.' ∧ Solid c more := by
  cases op <;> exact ⟨_, _, _, rfl, rfl, rfl, rfl, by decide, by decide, by decide, by decide,
    of_decide_eq_true rfl⟩

/-- An operator before a space. -/
theorem opens_operator (op : Operator) (rest : List Char) :
    Opens (.operator op) (' ' :: rest) (op.symbol.toList ++ ' ' :: rest) := by
  obtain ⟨c, more, lexeme, text, symbol, kind, after, quote, noName, noDigit, noPoint, solid⟩ :=
    symbol?_operator op rest
  exact ⟨c, more, text, solid, trivial, fun place =>
    ⟨lexeme, read_symbol quote noName noDigit noPoint place symbol, kind, after⟩⟩

end Mark

/-- The text does not go on with a character of this sort. -/
def Stops (sort : Char → Bool) (rest : List Char) : Prop := ∀ c ∈ rest.head?, sort c = false

theorem Stops.digit (stops : Stops (fun c => c.isDigit || c = '.') rest) :
    Stops Char.isDigit rest := by
  intro c first
  exact (Bool.or_eq_false_iff.mp (stops c first)).1

section Run

variable {sort : Char → Bool} {front rest : List Char}

theorem takeWhile_stops (sorted : ∀ c ∈ front, sort c = true) (stops : Stops sort rest) :
    (front ++ rest).takeWhile sort = front := by
  rw [List.takeWhile_append_of_pos sorted]
  cases rest with
  | nil => simp
  | cons c rest => simp [stops c rfl]

theorem dropWhile_stops (sorted : ∀ c ∈ front, sort c = true) (stops : Stops sort rest) :
    (front ++ rest).dropWhile sort = rest := by
  rw [List.dropWhile_append_of_pos sorted]
  cases rest with
  | nil => rfl
  | cons c rest => simp [stops c rfl]

end Run

theorem toNat_of_isNamePart (part : Lexeme.isNamePart c = true) :
    48 ≤ c.toNat ∧ c.toNat ≤ 122 := by
  simp only [Lexeme.isNamePart, Char.isAlphanum, Char.isAlpha, Char.isUpper, Char.isLower,
    Char.isDigit, Bool.or_eq_true, Bool.and_eq_true, decide_eq_true_eq, ge_iff_le,
    UInt32.le_iff_toNat_le] at part
  rcases part with (part | part) | rfl
  · simp at part
    omega
  · simp at part
    omega
  · decide

theorem isNamePart_of_isNameStart (start : Lexeme.isNameStart c = true) :
    Lexeme.isNamePart c = true := by
  simp only [Lexeme.isNameStart, Lexeme.isNamePart, Char.isAlphanum, Bool.or_eq_true] at *
  exact start.imp_left .inl

/-- A character that begins a word or a number begins no gap. -/
theorem solid_of_isNamePart (part : Lexeme.isNamePart c = true) (cs : List Char) : Solid c cs := by
  obtain ⟨least, greatest⟩ := toNat_of_isNamePart part
  constructor
  · simp [Text.isBlank]
    omega
  · rintro ⟨rfl, _⟩
    contradiction

theorem finite_wordKind (word : List Char) : (Lexeme.wordKind word).Finite := by
  unfold Lexeme.wordKind
  repeat' split
  all_goals trivial

theorem opens_word {name rest : List Char} (isName : Definition.isName name = true)
    (stops : Stops Lexeme.isNamePart rest) : Opens (Lexeme.wordKind name) rest (name ++ rest) := by
  cases name with
  | nil => contradiction
  | cons c more =>
    rw [Definition.isName, Bool.and_eq_true, List.all_eq_true] at isName
    obtain ⟨start, parts⟩ := isName
    have quote : c ≠ '"' := by
      rintro rfl
      contradiction
    have part := isNamePart_of_isNameStart start
    refine ⟨c, more ++ rest, rfl, solid_of_isNamePart part _, finite_wordKind _, fun place =>
      ⟨Lexeme.word c (more ++ rest), ?_, ?_, dropWhile_stops parts stops⟩⟩
    · rw [Lexeme.read, dif_neg quote, if_pos start]
    · exact congrArg (fun run => Lexeme.wordKind (c :: run)) (takeWhile_stops parts stops)

section Number

variable {whole fraction rest : List Char} (nonempty : whole ≠ [])
  (wholeDigits : ∀ c ∈ whole, c.isDigit = true)
  (stops : Stops (fun c => c.isDigit || c = '.') rest)
include nonempty wholeDigits stops

theorem number?_whole : ∃ lexeme, Lexeme.number? (whole ++ rest) = some lexeme ∧
    lexeme.kind = .number (Decimal.ofPoint whole []).toFloat ∧ lexeme.rest = rest := by
  have digits := takeWhile_stops wholeDigits stops.digit
  have after := dropWhile_stops wholeDigits stops.digit
  unfold Lexeme.number?
  dsimp only
  split
  · rename_i split
    rw [after] at split
    have stopped := stops '.' (by rw [split]; rfl)
    contradiction
  · rw [dif_neg (by rw [digits]; exact nonempty)]
    exact ⟨_, rfl, congrArg (fun run => Kind.number (Decimal.ofPoint run []).toFloat) digits, after⟩

theorem number?_point (fractionDigits : ∀ c ∈ fraction, c.isDigit = true) :
    ∃ lexeme, Lexeme.number? (whole ++ '.' :: fraction ++ rest) = some lexeme ∧
      lexeme.kind = .number (Decimal.ofPoint whole fraction).toFloat ∧ lexeme.rest = rest := by
  have stopsPoint : Stops Char.isDigit ('.' :: (fraction ++ rest)) := by
    intro c first
    cases first
    rfl
  have digits := takeWhile_stops wholeDigits stopsPoint
  have point := dropWhile_stops wholeDigits stopsPoint
  have places := takeWhile_stops fractionDigits stops.digit
  have after := dropWhile_stops fractionDigits stops.digit
  rw [List.append_assoc, List.cons_append]
  unfold Lexeme.number?
  dsimp only
  split
  · rename_i split
    rw [point] at split
    obtain rfl : fraction ++ rest = _ := (List.cons_eq_cons.mp split).2
    rw [if_neg (by simp [digits, nonempty])]
    refine ⟨_, rfl, ?_, after⟩
    dsimp only
    rw [digits, places]
  · rename_i other
    exact absurd point (other _)

theorem number?_numeral (fractionDigits : ∀ c ∈ fraction, c.isDigit = true) :
    ∃ lexeme, Lexeme.number? (Number.numeral whole fraction ++ rest) = some lexeme ∧
      lexeme.kind = .number (Decimal.ofPoint whole fraction).toFloat ∧ lexeme.rest = rest := by
  cases fraction with
  | nil =>
    rw [Number.numeral, if_pos rfl, List.append_nil]
    exact number?_whole nonempty wholeDigits stops
  | cons c more =>
    rw [Number.numeral, if_neg (List.cons_ne_nil _ _)]
    exact number?_point nonempty wholeDigits stops fractionDigits

end Number

/-- A digit begins no string and no word. -/
theorem apart_of_isDigit (digit : c.isDigit = true) : c ≠ '"' ∧ Lexeme.isNameStart c = false ∧
    Lexeme.isNamePart c = true := by
  refine ⟨?_, ?_, ?_⟩
  · rintro rfl
    contradiction
  · rw [Bool.eq_false_iff]
    intro start
    simp only [Lexeme.isNameStart, Char.isAlpha, Char.isUpper, Char.isLower, Char.isDigit,
      Bool.or_eq_true, Bool.and_eq_true, decide_eq_true_eq, ge_iff_le,
      UInt32.le_iff_toNat_le] at start digit
    rcases start with (start | start) | rfl
    · simp at start digit
      omega
    · simp at start digit
      omega
    · simp at digit
  · rw [Lexeme.isNamePart, Char.isAlphanum, digit, Bool.or_true, Bool.true_or]

theorem read_number (quote : c ≠ '"') (noName : Lexeme.isNameStart c = false) (place : Position)
    {cs : List Char} {lexeme : Lexeme (c :: cs)} (number : Lexeme.number? (c :: cs) = some lexeme) :
    Lexeme.read place c cs = .ok lexeme := by
  rw [Lexeme.read, dif_neg quote, if_neg (by rw [noName]; exact Bool.false_ne_true), number]
  rfl

theorem opens_number {whole fraction rest : List Char} (nonempty : whole ≠ [])
    (wholeDigits : ∀ c ∈ whole, c.isDigit = true)
    (fractionDigits : ∀ c ∈ fraction, c.isDigit = true)
    (stops : Stops (fun c => c.isDigit || c = '.') rest)
    (finite : (Decimal.ofPoint whole fraction).toFloat.isFinite = true) :
    Opens (.number (Decimal.ofPoint whole fraction).toFloat) rest
      (Number.numeral whole fraction ++ rest) := by
  have read := number?_numeral nonempty wholeDigits stops fractionDigits
  cases whole with
  | nil => contradiction
  | cons c more =>
    obtain ⟨quote, noName, part⟩ := apart_of_isDigit (wholeDigits c (List.mem_cons_self ..))
    obtain ⟨lexeme, read, kind, after⟩ := read
    exact ⟨c, _, rfl, solid_of_isNamePart part _, finite, fun place =>
      ⟨lexeme, read_number quote noName place read, kind, after⟩⟩

section StringLiteral

open StringLiteral

/-- A character stands for itself or is escaped. -/
theorem escape_cases (c : Char) : (escape c = [c] ∧ c ≠ '"' ∧ c ≠ '\\') ∨
    ∃ e, escape c = ['\\', e] ∧ unescape? e = some c := by
  by_cases special : c = '"' ∨ c = '\\' ∨ c = '\n' ∨ c = '\t' ∨ c = '\r'
  · right
    rcases special with rfl | rfl | rfl | rfl | rfl <;> exact ⟨_, rfl, rfl⟩
  · left
    simp only [not_or] at special
    obtain ⟨quote, slash, newline, tab, carriage⟩ := special
    exact ⟨by simp [escape, quote, slash, newline, tab, carriage], quote, slash⟩

variable (opened here : Position) (text value : List Char)

theorem readBody_close (rest : List Char) : readBody opened here text value ('"' :: rest) =
    .ok ⟨value.reverse, ('"' :: text).reverse, rest⟩ := by
  rw [readBody.eq_def]
  rfl

theorem readBody_plain (quote : c ≠ '"') (slash : c ≠ '\\') (rest : List Char) :
    readBody opened here text value (c :: rest) =
      readBody opened (here.step c) (c :: text) (c :: value) rest := by
  rw [readBody.eq_def]
  simp only [if_neg quote, if_neg slash]

theorem readBody_escaped (denotes : unescape? e = some c) (rest : List Char) :
    readBody opened here text value ('\\' :: e :: rest) =
      readBody opened ((here.step '\\').step e) (e :: '\\' :: text) (c :: value) rest := by
  rw [readBody.eq_def]
  simp [denotes]

/-- Reading on from within a literal finds the characters that were written and then stops. -/
theorem readBody_escape (cs rest : List Char) :
    ∃ literal, readBody opened here text value (cs.flatMap escape ++ '"' :: rest) = .ok literal ∧
      literal.value = value.reverse ++ cs ∧ literal.rest = rest := by
  induction cs generalizing here text value with
  | nil =>
    rw [List.flatMap_nil, List.nil_append, readBody_close, List.append_nil]
    exact ⟨_, rfl, rfl, rfl⟩
  | cons c cs ih =>
    have shift : value.reverse ++ c :: cs = (c :: value).reverse ++ cs := by simp
    rw [List.flatMap_cons, List.append_assoc, shift]
    rcases escape_cases c with ⟨same, quote, slash⟩ | ⟨e, same, denotes⟩
    · rw [same, List.singleton_append, readBody_plain _ _ _ _ quote slash]
      exact ih _ _ _
    · rw [same, List.cons_append, List.singleton_append, readBody_escaped _ _ _ _ denotes]
      exact ih _ _ _

theorem opens_string (value : String) (rest : List Char) :
    Opens (.string value) rest ((write value).toList ++ rest) := by
  have written : (write value).toList ++ rest =
      '"' :: (value.toList.flatMap escape ++ '"' :: rest) := by
    simp [write]
  rw [written]
  refine ⟨'"', _, rfl, ⟨by decide, by simp⟩, trivial, fun place => ?_⟩
  obtain ⟨literal, read, text, after⟩ := readBody_escape place (place.step '"') ['"'] []
    value.toList rest
  rw [Lexeme.read, dif_pos rfl]
  change ∃ lexeme, Lexeme.string place _ = _ ∧ _
  unfold Lexeme.string
  split
  · rename_i failed
    rw [read] at failed
    contradiction
  · rename_i same
    rw [read] at same
    cases same
    refine ⟨_, rfl, ?_, after⟩
    change Kind.string (String.ofList literal.value) = _
    rw [text]
    simp

end StringLiteral
end Token
end Scriptlet

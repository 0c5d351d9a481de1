import Scriptlet.Json.Read
import Scriptlet.Json.Write
import Scriptlet.Proofs.Number.Plain

/-! The outcomes of reading JSON text, and JSON strings. A reading is looked at without its bound,
and a fault without its place. What is written between the quotes of a string is read back, one
character after the other. -/
namespace Scriptlet.Json

/-- What has been read and what is left of the text, or what is wrong with the text. -/
def outcome (result : Result α bound) : Except Fault (α × List Char) :=
  match result with
  | .ok reading => .ok (reading.node, reading.rest)
  | .error stop => .error stop.fault

section Outcome

variable {result : Result α bound} {next : Reading Char α bound → Result β wider}

theorem outcome_eq_ok (read : outcome result = .ok (a, rest)) :
    ∃ within, result = .ok ⟨a, rest, within⟩ := by
  cases result with
  | error stop => contradiction
  | ok reading =>
    cases read
    exact ⟨reading.within, rfl⟩

theorem outcome_bind_ok (read : outcome result = .ok (a, rest))
    (onward : ∀ within, outcome (next ⟨a, rest, within⟩) = last) :
    outcome (result >>= next) = last := by
  obtain ⟨within, rfl⟩ := outcome_eq_ok read
  exact onward within

theorem outcome_bind_error (failed : outcome result = .error fault) :
    outcome (result >>= next) = .error fault := by
  cases result with
  | error stop =>
    cases failed
    rfl
  | ok reading => contradiction

end Outcome

section Escape

variable {bound : Nat} {found rest : List Char}

theorem readString_quote (within : ('"' :: rest).length < bound) :
    outcome (readString found ('"' :: rest) within) = .ok (String.ofList found.reverse, rest) := by
  rw [readString, if_pos rfl]
  rfl

theorem readString_plain {result : Except Fault (String × List Char)} {c : Char} (quote : c ≠ '"')
    (slash : c ≠ '\\') (visible : ¬ c.toNat < 0x20)
    (onward : ∀ {bound : Nat} (within : rest.length < bound),
      outcome (readString (c :: found) rest within) = result)
    (within : (c :: rest).length < bound) :
    outcome (readString found (c :: rest) within) = result := by
  rw [readString, if_neg quote, if_neg slash, if_neg visible]
  exact onward _

theorem readString_escaped {result : Except Fault (String × List Char)} {c : Char}
    {escaped : List Char} (reads : outcome (readEscape escaped) = .ok (c, rest))
    (onward : ∀ {bound : Nat} (within : rest.length < bound),
      outcome (readString (c :: found) rest within) = result)
    (within : ('\\' :: escaped).length < bound) :
    outcome (readString found ('\\' :: escaped) within) = result := by
  rw [readString, if_neg (by decide), if_pos rfl]
  exact outcome_bind_ok reads fun _ => onward _

/-- The digits of a control character, four of them. -/
def controlDigits (n : Nat) : List Char :=
  List.replicate (4 - (Nat.toDigits 16 n).length) '0' ++ Nat.toDigits 16 n

/-- The value of four hexadecimal digits. -/
def fourDigits? : List Char → Option Nat
  | [a, b, c, d] => hexValue? a b c d
  | _ => none

theorem readHex_fourDigits (value : fourDigits? digits = some n) (rest : List Char) :
    outcome (readHex (digits ++ rest)) = .ok (n, rest) := by
  unfold fourDigits? at value
  split at value
  · simp only [List.cons_append, List.nil_append, readHex, value]
    rfl
  · contradiction

theorem fourDigits?_controlDigits (control : n < 0x20) :
    fourDigits? (controlDigits n) = some n := by
  revert n
  decide

theorem readEscape_control {c : Char} (control : c.toNat < 0x20) (rest : List Char) :
    outcome (readEscape ('u' :: (controlDigits c.toNat ++ rest))) = .ok (c, rest) := by
  have back : Char.ofNat c.toNat = c := Char.ofNat_toNat c
  rw [readEscape]
  refine outcome_bind_ok (readHex_fourDigits (fourDigits?_controlDigits control) rest) fun _ => ?_
  dsimp only
  rw [if_neg (by omega), if_neg (by omega), back]
  rfl

/-- A character is written as an escape that denotes it, or as itself. -/
theorem escape_cases (c : Char) :
    (∃ letters, (escape c).toList = '\\' :: letters ∧
      ∀ rest, outcome (readEscape (letters ++ rest)) = .ok (c, rest)) ∨
    ((escape c).toList = [c] ∧ c ≠ '"' ∧ c ≠ '\\' ∧ ¬ c.toNat < 0x20) := by
  have letter (letter : Char) {text : String} (written : text.toList = ['\\', letter])
      (denotes : ∀ rest, outcome (readEscape (letter :: rest)) = .ok (c, rest)) :
      ∃ letters, text.toList = '\\' :: letters ∧
        ∀ rest, outcome (readEscape (letters ++ rest)) = .ok (c, rest) :=
    ⟨[letter], written, denotes⟩
  have same {d : Char} (code : c.toNat = d.toNat) : c = d := Char.toNat_inj.mp code
  unfold escape
  split
  · rename_i quote
    subst quote
    exact .inl (letter '"' rfl fun _ => rfl)
  rename_i quote
  split
  · rename_i slash
    subst slash
    exact .inl (letter '\\' rfl fun _ => rfl)
  rename_i slash
  split
  · rename_i newline
    subst newline
    exact .inl (letter 'n' rfl fun _ => rfl)
  split
  · rename_i carriage
    subst carriage
    exact .inl (letter 'r' rfl fun _ => rfl)
  split
  · rename_i tab
    subst tab
    exact .inl (letter 't' rfl fun _ => rfl)
  split
  · rename_i backspace
    obtain rfl := same (d := '\x08') backspace
    exact .inl (letter 'b' rfl fun _ => rfl)
  split
  · rename_i feed
    obtain rfl := same (d := '\x0c') feed
    exact .inl (letter 'f' rfl fun _ => rfl)
  split
  · rename_i control
    refine .inl ⟨'u' :: controlDigits c.toNat, ?_, readEscape_control control⟩
    simp [String.toList_append, Number.toList_pushn, controlDigits]
  · rename_i visible
    exact .inr ⟨by simp, quote, slash, visible⟩

/-- A character as it is written is read back, and the string goes on behind it. -/
theorem readString_escape {result : Except Fault (String × List Char)} (c : Char)
    (onward : ∀ {bound : Nat} (within : rest.length < bound),
      outcome (readString (c :: found) rest within) = result)
    {bound : Nat} (within : ((escape c).toList ++ rest).length < bound) :
    outcome (readString found ((escape c).toList ++ rest) within) = result := by
  revert within
  rcases escape_cases c with ⟨letters, written, denotes⟩ | ⟨written, quote, slash, visible⟩
  · rw [written]
    exact fun within => readString_escaped (denotes rest) onward within
  · rw [written]
    exact fun within => readString_plain quote slash visible onward within

/-- The text between the quotes of a string is read back. -/
theorem readString_escapes (text found rest : List Char) {bound : Nat}
    (within : ((String.join (text.map escape)).toList ++ '"' :: rest).length < bound) :
    outcome (readString found ((String.join (text.map escape)).toList ++ '"' :: rest) within) =
      .ok (String.ofList (found.reverse ++ text), rest) := by
  induction text generalizing found bound with
  | nil => exact (readString_quote within).trans (by rw [List.append_nil])
  | cons c more ih =>
    revert within
    rw [List.map_cons, String.join_cons, String.toList_append, List.append_assoc]
    refine fun within => readString_escape c (fun within => ?_) within
    rw [ih, List.reverse_cons, List.append_assoc]
    rfl

/-- What follows the opening quote of a string. -/
def quoteBody (text : String) : List Char :=
  (String.join (text.toList.map escape)).toList ++ ['"']

theorem toList_quote (text : String) : (quote text).toList = '"' :: quoteBody text := by
  simp [quote, quoteBody, String.toList_append]

theorem readString_quoteBody (text : String) (rest : List Char) {bound : Nat}
    (within : (quoteBody text ++ rest).length < bound) :
    outcome (readString [] (quoteBody text ++ rest) within) = .ok (text, rest) := by
  revert within
  rw [quoteBody, List.append_assoc]
  intro within
  refine (readString_escapes text.toList [] rest within).trans ?_
  rw [List.reverse_nil, List.nil_append, String.ofList_toList]

end Escape

end Scriptlet.Json

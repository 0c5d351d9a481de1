import Mathlib.Data.List.TakeWhile
import Scriptlet.Proofs.Json.StringText
import Scriptlet.Proofs.Token.Lexeme

/-! Numerals in front of other text. What is cut off a text is cut off again wherever the text goes
on with what can be no part of a numeral. -/
namespace Scriptlet.Json

open Token (Stops)

/-- Whether a character begins an exponent. -/
def marksExponent (c : Char) : Bool := c = 'e' || c = 'E'

/-- Whether a numeral may go on with a character, whatever came before. -/
def continues (c : Char) : Bool := c.isDigit || c = '.' || marksExponent c

theorem not_isDigit_of_marks (marks : marksExponent c = true) : c.isDigit = false ∧ c ≠ '.' := by
  rw [marksExponent, Bool.or_eq_true] at marks
  rcases marks with mark | mark <;> rw [of_decide_eq_true mark] <;> decide

/-- A reader that has gone from `cs` to `rest` goes through the same text in front of anything that
stops it; what it has gone through is empty or begins in a certain way. -/
def Again {bound : List Char → Nat} (read : (cs : List Char) → Result α (bound cs))
    (begins stop : Char → Bool) : Prop :=
  ∀ cs a rest, outcome (read cs) = .ok (a, rest) → ∃ used, cs = used ++ rest ∧
    (∀ c ∈ used.head?, begins c = true) ∧
    ∀ more, Stops stop more → outcome (read (used ++ more)) = .ok (a, more)

section Stop

variable {stop : Char → Bool} {used more : List Char}

/-- What stops more stops less. -/
theorem stops_of_implies {loose : Char → Bool} (stops : Stops loose more)
    (implies : ∀ c, stop c = true → loose c = true) : Stops stop more := by
  intro c first
  cases goes : stop c with
  | false => rfl
  | true =>
    have stopped := stops c first
    rw [implies c goes] at stopped
    contradiction

theorem stops_append (begins : ∀ c ∈ used.head?, stop c = false) (stops : Stops stop more) :
    Stops stop (used ++ more) := by
  cases used with
  | nil => exact stops
  | cons c front => exact begins

end Stop

theorem cutDigits_append {digits more : List Char} (each : ∀ c ∈ digits, c.isDigit = true)
    (stops : Stops Char.isDigit more) : cutDigits (digits ++ more) = (digits, more) := by
  rw [cutDigits, Token.takeWhile_stops each stops, Token.dropWhile_stops each stops]

theorem isDigit_of_cutDigits (cs : List Char) : ∀ c ∈ (cutDigits cs).1, c.isDigit = true :=
  fun _ member => List.mem_takeWhile_imp member

theorem cutDigits_split (cs : List Char) : (cutDigits cs).1 ++ (cutDigits cs).2 = cs :=
  List.takeWhile_append_dropWhile

theorem outcome_exponentDigits (negative : Bool) (c : Char) (cs : List Char) :
    outcome (cutExponentDigits negative (c :: cs)) =
      if c.isDigit then .ok (⟨negative, c :: (cutDigits cs).1⟩, (cutDigits cs).2)
      else .error .invalidNumber := by
  rw [cutExponentDigits]
  split <;> rfl

theorem again_exponentDigits (negative : Bool) :
    Again (cutExponentDigits negative) (fun c => c.isDigit) Char.isDigit := by
  intro cs a rest read
  cases cs with
  | nil => contradiction
  | cons c after =>
    rw [outcome_exponentDigits] at read
    split at read
    · rename_i digit
      cases read
      refine ⟨c :: (cutDigits after).1, ?_, ?_, ?_⟩
      · rw [List.cons_append, cutDigits_split]
      · rintro _ ⟨⟩
        exact digit
      · intro more stops
        rw [List.cons_append, outcome_exponentDigits, if_pos digit,
          cutDigits_append (isDigit_of_cutDigits _) stops]
    · contradiction

theorem outcome_exponent (c : Char) (cs : List Char) :
    outcome (cutExponent (c :: cs)) =
      if c = '+' ∨ c = '-' then outcome (cutExponentDigits (c = '-') cs)
      else outcome (cutExponentDigits false (c :: cs)) := by
  rw [cutExponent]
  split
  · cases cutExponentDigits (c = '-') cs <;> rfl
  · rfl

theorem again_exponent : Again cutExponent (fun _ => true) Char.isDigit := by
  intro cs a rest read
  cases cs with
  | nil => contradiction
  | cons c after =>
    rw [outcome_exponent] at read
    split at read
    · rename_i sign
      obtain ⟨used, rfl, _, again⟩ := again_exponentDigits _ _ _ _ read
      refine ⟨c :: used, rfl, fun _ _ => rfl, ?_⟩
      intro more stops
      rw [List.cons_append, outcome_exponent, if_pos sign]
      exact again more stops
    · rename_i unsigned
      obtain ⟨used, split, _, again⟩ := again_exponentDigits _ _ _ _ read
      refine ⟨used, split, fun _ _ => rfl, ?_⟩
      intro more stops
      cases used with
      | nil =>
        have impossible : Except.error Fault.endInValue = .ok (a, []) :=
          again [] fun c first => absurd first (Option.not_mem_none c)
        cases impossible
      | cons d front =>
        obtain ⟨rfl, rfl⟩ := List.cons_eq_cons.mp split
        rw [List.cons_append, outcome_exponent, if_neg unsigned]
        exact again more stops

theorem outcome_scale (c : Char) (cs : List Char) :
    outcome (cutScale (c :: cs)) =
      if c = 'e' ∨ c = 'E' then (outcome (cutExponent cs)).map fun read => (some read.1, read.2)
      else .ok (none, c :: cs) := by
  rw [cutScale]
  split
  · cases cutExponent cs <;> rfl
  · rfl

theorem again_scale : Again cutScale marksExponent (fun c => c.isDigit || marksExponent c) := by
  intro cs a rest read
  have absent {more : List Char} (stops : Stops (fun c => c.isDigit || marksExponent c) more) :
      outcome (cutScale more) = .ok (none, more) := by
    cases more with
    | nil => rfl
    | cons c after =>
      have unmarked := (Bool.or_eq_false_iff.mp (stops c rfl)).2
      rw [outcome_scale, if_neg (by simpa [marksExponent] using unmarked)]
  cases cs with
  | nil =>
    cases read
    exact ⟨[], rfl, by simp, fun more => absent⟩
  | cons c after =>
    rw [outcome_scale] at read
    split at read
    · rename_i mark
      cases exponent : outcome (cutExponent after) with
      | error fault => rw [exponent] at read; contradiction
      | ok pair =>
        rw [exponent] at read
        cases read
        obtain ⟨used, split, _, again⟩ := again_exponent _ _ _ exponent
        refine ⟨c :: used, by rw [split]; rfl, ?_, ?_⟩
        · rintro _ ⟨⟩
          simpa [marksExponent] using mark
        · intro more stops
          have digits : Stops Char.isDigit more := stops_of_implies stops (by simp_all)
          rw [List.cons_append, outcome_scale, if_pos mark, again more digits]
          rfl
    · cases read
      exact ⟨[], rfl, by simp, fun more => absent⟩

theorem outcome_fraction_point (after : List Char) :
    outcome (cutFraction ('.' :: after)) =
      if (cutDigits after).1 = [] then
        .error (if (cutDigits after).2 = [] then .endInValue else .invalidNumber)
      else .ok ((cutDigits after).1, (cutDigits after).2) := by
  rw [cutFraction]
  split
  · rename_i same
    rw [same]
    rfl
  · rename_i rest notEnd same
    rw [same, if_pos rfl, if_neg notEnd]
    rfl
  · rename_i nonempty
    rw [if_neg fun empty => nonempty _ (Prod.ext empty rfl)]
    rfl

theorem outcome_fraction_other {cs : List Char} (other : ∀ after, cs ≠ '.' :: after) :
    outcome (cutFraction cs) = .ok ([], cs) := by
  unfold cutFraction
  split
  · exact absurd rfl (other _)
  · rfl

theorem again_fraction :
    Again cutFraction (fun c => c = '.') (fun c => c.isDigit || c = '.') := by
  intro cs a rest read
  by_cases point : ∃ after, cs = '.' :: after
  · obtain ⟨after, rfl⟩ := point
    rw [outcome_fraction_point] at read
    split at read
    · contradiction
    · rename_i nonempty
      cases read
      refine ⟨'.' :: (cutDigits after).1, ?_, ?_, ?_⟩
      · rw [List.cons_append, cutDigits_split]
      · rintro _ ⟨⟩
        rfl
      · intro more stops
        have cut := cutDigits_append (isDigit_of_cutDigits after) stops.digit
        rw [List.cons_append, outcome_fraction_point, cut, if_neg nonempty]
  · rw [not_exists] at point
    rw [outcome_fraction_other point] at read
    cases read
    refine ⟨[], rfl, by simp, ?_⟩
    intro more stops
    refine outcome_fraction_other ?_
    rintro after rfl
    have := stops '.' rfl
    contradiction

/-- What the parts of a numeral after its sign are, and what is left. -/
theorem outcome_numeral (negative : Bool) (c : Char) (after : List Char) :
    outcome (cutNumeral negative (c :: after)) =
      if !c.isDigit then .error .invalidNumber
      else if c = '0' ∧ (cutDigits after).1 ≠ [] then .error .invalidNumber
      else do
        let fraction ← outcome (cutFraction (cutDigits after).2)
        let scale ← outcome (cutScale fraction.2)
        return (⟨negative, c :: (cutDigits after).1, fraction.1, scale.1⟩, scale.2) := by
  rw [cutNumeral]
  split
  · rfl
  dsimp only
  split
  · rfl
  cases cutFraction (cutDigits after).2 with
  | error stop => rfl
  | ok fraction =>
    change outcome (cutScale fraction.rest >>= _) = outcome (cutScale fraction.rest) >>= _
    cases cutScale fraction.rest <;> rfl

theorem again_numeral (negative : Bool) :
    Again (cutNumeral negative) (fun c => c.isDigit) continues := by
  intro cs a rest read
  cases cs with
  | nil => contradiction
  | cons c after =>
    rw [outcome_numeral] at read
    split at read
    · contradiction
    rename_i digit
    split at read
    · contradiction
    rename_i leading
    cases fraction : outcome (cutFraction (cutDigits after).2) with
    | error fault => rw [fraction] at read; contradiction
    | ok places =>
      obtain ⟨places, afterPoint⟩ := places
      rw [fraction] at read
      change (outcome (cutScale afterPoint) >>= _) = _ at read
      cases scale : outcome (cutScale afterPoint) with
      | error fault => rw [scale] at read; contradiction
      | ok exponent =>
        obtain ⟨exponent, last⟩ := exponent
        rw [scale] at read
        cases read
        obtain ⟨point, split, pointed, pointAgain⟩ := again_fraction _ _ _ fraction
        obtain ⟨mark, rfl, marked, markAgain⟩ := again_scale _ _ _ scale
        refine ⟨c :: ((cutDigits after).1 ++ (point ++ mark)), ?_, ?_, ?_⟩
        · rw [List.cons_append, List.append_assoc, List.append_assoc, ← split, cutDigits_split]
        · rintro _ ⟨⟩
          simpa using digit
        · intro more stops
          have marks : Stops (fun c => c.isDigit || marksExponent c) more :=
            stops_of_implies stops (by grind [continues])
          have points : Stops (fun c => c.isDigit || c = '.') (mark ++ more) := by
            refine stops_append ?_ (stops_of_implies stops (by grind [continues]))
            intro d first
            obtain ⟨noDigit, noPoint⟩ := not_isDigit_of_marks (marked d first)
            simp [noDigit, noPoint]
          have digits : Stops Char.isDigit (point ++ (mark ++ more)) := by
            refine stops_append ?_ points.digit
            intro d first
            rw [of_decide_eq_true (pointed d first)]
            rfl
          rw [List.cons_append, List.append_assoc, List.append_assoc, outcome_numeral,
            cutDigits_append (isDigit_of_cutDigits _) digits, if_neg digit, if_neg leading]
          dsimp only
          rw [pointAgain _ points]
          change (outcome (cutScale (mark ++ more)) >>= _) = _
          rw [markAgain _ marks]
          rfl

theorem outcome_number (negative : Bool) (cs : List Char) :
    outcome (readNumber negative cs) = (do
      let numeral ← outcome (cutNumeral negative cs)
      match numeral.1.value with
      | .ok value => return (value, numeral.2)
      | .error _ => .error .numberOutOfRange) := by
  rw [readNumber]
  cases cutNumeral negative cs with
  | error stop => rfl
  | ok numeral =>
    change outcome (match numeral.node.value with
      | .ok value => _
      | .error unread => _) = match numeral.node.value with
        | .ok value => _
        | .error _ => _
    cases numeral.node.value <;> rfl

/-- A number is read again in front of what can be no part of it. -/
theorem again_number (negative : Bool) :
    Again (readNumber negative) (fun c => c.isDigit) continues := by
  intro cs a rest read
  rw [outcome_number] at read
  cases cut : outcome (cutNumeral negative cs) with
  | error fault => rw [cut] at read; contradiction
  | ok numeral =>
    obtain ⟨numeral, left⟩ := numeral
    rw [cut] at read
    obtain ⟨used, split, begins, again⟩ := again_numeral _ _ _ _ cut
    change (match numeral.value with
      | .ok value => pure (value, left)
      | .error _ => .error .numberOutOfRange : Except Fault (Json × List Char)) = _ at read
    cases value : numeral.value with
    | error unread => rw [value] at read; contradiction
    | ok json =>
      rw [value] at read
      cases read
      refine ⟨used, split, begins, ?_⟩
      intro more stops
      rw [outcome_number, again more stops]
      change (match numeral.value with
        | .ok value => pure (value, more)
        | .error _ => .error .numberOutOfRange : Except Fault (Json × List Char)) = _
      rw [value]
      rfl

section Form

/-- Whether a character occurs in the JSON form of numbers. -/
def inNumeral (c : Char) : Bool := c.isDigit || c = '-' || c = '+' || c = '.' || c = 'e'

theorem isGap_eq_false (form : inNumeral c = true) : isGap c = false := by
  cases gap : isGap c with
  | false => rfl
  | true =>
    have blank : c = ' ' ∨ c = '\n' ∨ c = '\t' ∨ c = '\r' := by
      simpa [isGap, or_assoc] using gap
    rcases blank with rfl | rfl | rfl | rfl <;> contradiction

theorem all_inNumeral {digits : List Char} (each : ∀ c ∈ digits, c.isDigit = true) :
    digits.all inNumeral = true := by
  rw [List.all_eq_true]
  intro c member
  rw [inNumeral, each c member]
  rfl

theorem all_point {fraction : List Char} (inside : fraction.all inNumeral = true) :
    ('.' :: fraction).all inNumeral = true := by
  rw [List.all_cons, inside]
  rfl

/-- A text that begins with a digit and is in the characters of numerals. -/
def NumeralText (cs : List Char) : Prop :=
  ∃ c more, cs = c :: more ∧ c.isDigit = true ∧ cs.all inNumeral = true

theorem NumeralText.append {front back : List Char} (numeral : NumeralText front)
    (form : back.all inNumeral = true) : NumeralText (front ++ back) := by
  obtain ⟨c, more, rfl, digit, inside⟩ := numeral
  refine ⟨c, more ++ back, rfl, digit, ?_⟩
  rw [List.all_append, inside, form]
  rfl

theorem numeralText_digits {digits : List Char} (nonempty : digits ≠ [])
    (each : ∀ c ∈ digits, c.isDigit = true) : NumeralText digits := by
  obtain ⟨c, more, rfl⟩ := List.exists_cons_of_ne_nil nonempty
  exact ⟨c, more, rfl, each c List.mem_cons_self, all_inNumeral each⟩

theorem isDigit_of_mem_toString (n : Nat) : ∀ c ∈ (toString n).toList, c.isDigit = true := by
  intro c member
  rw [Nat.toString_eq_repr, Nat.toList_repr] at member
  exact Nat.isDigit_of_mem_toDigits (by decide) (by decide) member

theorem numeralText_scientific (d : Decimal) : NumeralText (Number.scientific d).toList := by
  have digits := isDigit_of_mem_toString d.digits
  have nonempty : (toString d.digits).toList ≠ [] := by
    rw [Nat.toString_eq_repr, Nat.toList_repr]
    exact Nat.toDigits_ne_nil
  obtain ⟨c, more, split⟩ := List.exists_cons_of_ne_nil nonempty
  rw [split] at digits
  obtain ⟨digit, rest⟩ := List.forall_mem_cons.mp digits
  have front : NumeralText [c] := numeralText_digits (List.cons_ne_nil _ _) (by simpa using digit)
  have fraction := all_point (all_inNumeral rest)
  have exponent (n : Nat) := all_inNumeral (isDigit_of_mem_toString n)
  rw [Number.scientific, split]
  simp only [String.toList_append, List.append_assoc]
  refine NumeralText.append (by simpa using front) ?_
  simp only [List.all_append, Bool.and_eq_true]
  refine ⟨?_, rfl, ?_, exponent _⟩
  · split
    · rfl
    · have tail : (String.ofList ((c :: more).drop 1)).toList = more := String.toList_ofList
      rw [String.toList_append, tail]
      exact fraction
  · split <;> rfl

theorem numeralText_jsonMagnitude (n : Nat) : NumeralText (Number.jsonMagnitude n).toList := by
  rw [Number.jsonMagnitude]
  split
  · exact ⟨'0', ['.', '0'], rfl, rfl, rfl⟩
  rename_i nonzero
  have reads := Decimal.shortest_reads (Nat.pos_of_ne_zero nonzero) .even
  dsimp only
  split
  · obtain ⟨whole, fraction, written, nonempty, wholeDigits, fractionDigits⟩ :
        ∃ whole fraction, Number.positional (.shortest .even n) =
          (String.ofList whole, String.ofList fraction) ∧ whole ≠ [] ∧
          (∀ c ∈ whole, c.isDigit = true) ∧ ∀ c ∈ fraction, c.isDigit = true := by
      by_cases up : 0 ≤ (Decimal.shortest .even n).exponent
      · obtain ⟨whole, written, fits⟩ := Number.positional_of_nonneg reads up
        exact ⟨whole, [], written, fits.nonempty, fits.wholeDigits, fits.fractionDigits⟩
      · obtain ⟨whole, fraction, written, _, fits⟩ := Number.positional_of_neg reads (by omega)
        exact ⟨whole, fraction, written, fits.nonempty, fits.wholeDigits, fits.fractionDigits⟩
    have text (fraction : List Char) (inside : fraction.all inNumeral = true) :
        NumeralText (whole ++ '.' :: fraction) :=
      (numeralText_digits nonempty wholeDigits).append (all_point inside)
    rw [written]
    split
    · rename_i same
      rw [Prod.mk.injEq] at same
      rw [← same.1]
      simpa using text ['0'] rfl
    · rename_i same
      rw [Prod.mk.injEq] at same
      rw [← same.1, ← same.2]
      simpa using text fraction (all_inNumeral fractionDigits)
  · exact numeralText_scientific _

/-- The JSON form of a number begins like a numeral, and has no blanks. -/
theorem json_begins (x : Float) : ∃ c more, (Number.json x).toList = c :: more ∧
    (c = '-' ∨ c.isDigit = true) ∧ ∀ d ∈ c :: more, isGap d = false := by
  obtain ⟨c, more, text, digit, inside⟩ := numeralText_jsonMagnitude (Number.rank x)
  have visible : ∀ d ∈ c :: more, isGap d = false := by
    rw [text, List.all_eq_true] at inside
    exact fun d member => isGap_eq_false (inside d member)
  rw [Number.json]
  split
  · refine ⟨'-', c :: more, ?_, .inl rfl, List.forall_mem_cons.mpr ⟨rfl, visible⟩⟩
    rw [String.toList_append, text]
    rfl
  · exact ⟨c, more, text, .inr digit, visible⟩

end Form

end Scriptlet.Json

import Scriptlet.Proofs.Json.Numeral

/-! Reading a JSON value part by part. What is read is known by the first character behind the gap;
lists and objects take one level of nesting more than what is in them, and there is only room for
some. -/
namespace Scriptlet.Json

section Step

variable {room bound : Nat} {c : Char} {cs rest gap : List Char}

/-- Whether a text may stand between tokens. -/
def Blank (gap : List Char) : Prop := ∀ c ∈ gap, isGap c = true

theorem skipGap_append (blank : Blank gap) (visible : isGap c = false) (rest : List Char) :
    skipGap (gap ++ c :: rest) = c :: rest := by
  refine Token.dropWhile_stops blank ?_
  rintro _ ⟨⟩
  exact visible

theorem outcome_widen (result : Result α bound) (looser : bound ≤ wider) :
    outcome (do return (← result).widen looser : Result α wider) = outcome result := by
  cases result <;> rfl

theorem length_lt_of_skipGap (skipped : skipGap cs = c :: rest) : rest.length < cs.length := by
  have := skipGap_length_le cs
  rw [skipped, List.length_cons] at this
  omega

/-- A value is read by what its first character is. -/
theorem readValue_at (skipped : skipGap cs = c :: rest) :
    ∃ shorter : rest.length < cs.length, readValue room cs =
      if c = 'n' then do return (← readWord .null "ull".toList rest).widen shorter
      else if c = 't' then do return (← readWord (.boolean true) "rue".toList rest).widen shorter
      else if c = 'f' then do return (← readWord (.boolean false) "alse".toList rest).widen shorter
      else if c = '-' then do return (← readNumber true rest).widen (Nat.le_of_lt shorter)
      else if c.isDigit then do return (← readNumber false (c :: rest)).widen shorter
      else if c = '"' then do
        let text ← readString [] rest (Nat.lt_succ_self _)
        return ⟨.string text.node, text.rest, Nat.lt_of_lt_of_le text.within shorter⟩
      else if c = '[' then
        match room with
        | 0 => stopPast .tooDeep (c :: rest)
        | room + 1 => readItems room true [] rest shorter
      else if c = '\x7b' then
        match room with
        | 0 => stopPast .tooDeep (c :: rest)
        | room + 1 => readFields room true [] rest shorter
      else stopPast .expectedValue (c :: rest) := by
  refine ⟨length_lt_of_skipGap skipped, ?_⟩
  rw [readValue]
  split
  · rename_i nothing
    rw [skipped] at nothing
    contradiction
  · rename_i same
    cases skipped.symm.trans same
    rfl

theorem readItems_at {within : cs.length < bound} (skipped : skipGap cs = c :: rest) :
    ∃ shorter : rest.length < cs.length, readItems room isFirst found cs within =
      if c = ']' then .ok ⟨.array found.reverse, rest, Nat.lt_trans shorter within⟩
      else if isFirst then do
        let item ← readValue room cs
        readItems room false (item.node :: found) item.rest (Nat.lt_trans item.within within)
      else if c = ',' then
        match skipGap rest with
        | [] => stopPast .endInValue []
        | ']' :: after => stopPast .trailingComma (']' :: after)
        | _ => do
          let item ← readValue room rest
          readItems room false (item.node :: found) item.rest
            (Nat.lt_trans (Nat.lt_trans item.within shorter) within)
      else stopPast .expectedCommaOrBracket (c :: rest) := by
  refine ⟨length_lt_of_skipGap skipped, ?_⟩
  rw [readItems]
  split
  · rename_i nothing
    rw [skipped] at nothing
    contradiction
  · rename_i same
    cases skipped.symm.trans same
    rfl

theorem readFields_at {within : cs.length < bound} (skipped : skipGap cs = c :: rest) :
    ∃ shorter : rest.length < cs.length, readFields room isFirst found cs within =
      if c = '\x7d' then .ok ⟨ofFields found.reverse, rest, Nat.lt_trans shorter within⟩
      else if isFirst then
        if c = '"' then do
          let field ← readField room rest
          readFields room false (field.node :: found) field.rest
            (Nat.lt_trans (Nat.lt_trans field.within shorter) within)
        else stopPast .keyNotString (c :: rest)
      else if c = ',' then
        match next : skipGap rest with
        | [] => stopPast .endInValue []
        | '"' :: after => do
          let field ← readField room after
          readFields room false (field.node :: found) field.rest
            (Nat.lt_trans (Nat.lt_trans field.within
              (Nat.lt_trans (length_lt_of_skipGap next) shorter)) within)
        | '\x7d' :: after => stopPast .trailingComma ('\x7d' :: after)
        | other => stopPast .keyNotString other
      else stopPast .expectedCommaOrBrace (c :: rest) := by
  refine ⟨length_lt_of_skipGap skipped, ?_⟩
  rw [readFields]
  split
  · rename_i nothing
    rw [skipped] at nothing
    contradiction
  · rename_i same
    cases skipped.symm.trans same
    rfl

/-- Reading something that takes some levels of nesting, when there is room for some. -/
def upTo (room levels : Nat) (read : α × List Char) : Except Fault (α × List Char) :=
  if levels ≤ room then .ok read else .error .tooDeep

theorem upTo_zero (room : Nat) (read : α × List Char) : upTo room 0 read = .ok read :=
  if_pos (Nat.zero_le room)

theorem outcome_bind_upTo {result : Result α bound} {next : Reading Char α bound → Result β wider}
    (first : outcome result = upTo room levels (a, rest))
    (onward : ∀ within, outcome (next ⟨a, rest, within⟩) = upTo room more last) :
    outcome (result >>= next) = upTo room (max levels more) last := by
  by_cases fits : levels ≤ room
  · rw [upTo, if_pos fits] at first
    refine (outcome_bind_ok first onward).trans ?_
    rw [upTo, upTo]
    grind
  · rw [upTo, if_neg fits] at first
    refine (outcome_bind_error first).trans ?_
    rw [upTo, if_neg (by omega)]

theorem outcome_bind_upTo_ok {result : Result α bound}
    {next : Reading Char α bound → Result β wider}
    (first : outcome result = upTo room levels (a, rest))
    (onward : ∀ within, outcome (next ⟨a, rest, within⟩) = .ok last) :
    outcome (result >>= next) = upTo room levels last := by
  have both := outcome_bind_upTo first fun within =>
    (onward within).trans (upTo_zero room last).symm
  rwa [Nat.max_zero] at both

/-- A list is closed. -/
theorem readItems_close (skipped : skipGap cs = ']' :: rest) (within : cs.length < bound) :
    outcome (readItems room isFirst found cs within) = .ok (.array found.reverse, rest) := by
  obtain ⟨_, step⟩ := readItems_at skipped
  rw [step, if_pos rfl]
  rfl

section Item

variable {found : List Json} {item : Json} {after : List Char} {last : Json × List Char}
  (onward : ∀ {bound : Nat} (within : after.length < bound),
    outcome (readItems room false (item :: found) after within) = upTo room more last)

include onward

/-- The first item of a list. -/
theorem readItems_first (skipped : skipGap cs = c :: rest) (goesOn : c ≠ ']')
    (reads : outcome (readValue room cs) = upTo room levels (item, after))
    (within : cs.length < bound) :
    outcome (readItems room true found cs within) = upTo room (max levels more) last := by
  obtain ⟨_, step⟩ := readItems_at skipped
  rw [step, if_neg goesOn, if_pos rfl]
  exact outcome_bind_upTo reads fun _ => onward _

/-- Every other item of a list stands behind a comma. -/
theorem readItems_comma (skipped : skipGap cs = c :: rest) (goesOn : c ≠ ']')
    (reads : outcome (readValue room cs) = upTo room levels (item, after))
    (within : (',' :: cs).length < bound) :
    outcome (readItems room false found (',' :: cs) within) =
      upTo room (max levels more) last := by
  have comma : skipGap (',' :: cs) = ',' :: cs := rfl
  obtain ⟨_, step⟩ := readItems_at comma
  rw [step, if_neg (by decide), if_neg Bool.false_ne_true, if_pos rfl, skipped]
  split
  · contradiction
  · rename_i same
    cases same
    contradiction
  · exact outcome_bind_upTo reads fun _ => onward _

end Item

/-- An object is closed. -/
theorem readFields_close (skipped : skipGap cs = '\x7d' :: rest) (within : cs.length < bound) :
    outcome (readFields room isFirst found cs within) = .ok (ofFields found.reverse, rest) := by
  obtain ⟨_, step⟩ := readFields_at skipped
  rw [step, if_pos rfl]
  rfl

section Field

variable {found : List (String × Json)} {field : String × Json} {after : List Char}
  {last : Json × List Char}
  (onward : ∀ {bound : Nat} (within : after.length < bound),
    outcome (readFields room false (field :: found) after within) = upTo room more last)

include onward

/-- The first field of an object. -/
theorem readFields_first (skipped : skipGap cs = '"' :: rest)
    (reads : outcome (readField room rest) = upTo room levels (field, after))
    (within : cs.length < bound) :
    outcome (readFields room true found cs within) = upTo room (max levels more) last := by
  obtain ⟨_, step⟩ := readFields_at skipped
  rw [step, if_neg (by decide), if_pos rfl, if_pos rfl]
  exact outcome_bind_upTo reads fun _ => onward _

/-- Every other field of an object stands behind a comma. -/
theorem readFields_comma (skipped : skipGap cs = '"' :: rest)
    (reads : outcome (readField room rest) = upTo room levels (field, after))
    (within : (',' :: cs).length < bound) :
    outcome (readFields room false found (',' :: cs) within) =
      upTo room (max levels more) last := by
  have comma : skipGap (',' :: cs) = ',' :: cs := rfl
  obtain ⟨_, step⟩ := readFields_at comma
  rw [step, if_neg (by decide), if_neg Bool.false_ne_true, if_pos rfl]
  split
  · rename_i nothing
    rw [skipped] at nothing
    contradiction
  · rename_i same
    cases skipped.symm.trans same
    exact outcome_bind_upTo reads fun _ => onward _
  · rename_i same
    cases skipped.symm.trans same
  · rename_i other _
    exact absurd skipped (other rest)

end Field

theorem outcome_readColon (cs : List Char) : outcome (readColon (':' :: cs)) = .ok ((), cs) := rfl

/-- A field is its key, a colon and its value. -/
theorem readField_quoteBody (key : String)
    (reads : outcome (readValue room cs) = upTo room levels (value, after)) :
    outcome (readField room (quoteBody key ++ ':' :: cs)) =
      upTo room levels ((key, value), after) := by
  rw [readField]
  refine outcome_bind_ok (readString_quoteBody key _ _) fun _ => ?_
  refine outcome_bind_ok (outcome_readColon cs) fun _ => ?_
  exact outcome_bind_upTo_ok reads fun _ => rfl

theorem outcome_readWord (value : Json) (word rest : List Char) :
    outcome (readWord value word (word ++ rest)) = .ok (value, rest) := by
  induction word with
  | nil => rfl
  | cons c word ih =>
    have step : readWord value (c :: word) (c :: (word ++ rest)) = do
        return (← readWord value word (word ++ rest)).widen (Nat.le_succ _) := if_pos rfl
    rw [List.cons_append, step, outcome_widen, ih]

theorem readValue_null (skipped : skipGap cs = 'n' :: ("ull".toList ++ rest)) :
    outcome (readValue room cs) = .ok (.null, rest) := by
  obtain ⟨_, step⟩ := readValue_at skipped
  rw [step, if_pos rfl, outcome_widen, outcome_readWord]

theorem readValue_true (skipped : skipGap cs = 't' :: ("rue".toList ++ rest)) :
    outcome (readValue room cs) = .ok (.boolean true, rest) := by
  obtain ⟨_, step⟩ := readValue_at skipped
  rw [step, if_neg (by decide), if_pos rfl, outcome_widen, outcome_readWord]

theorem readValue_false (skipped : skipGap cs = 'f' :: ("alse".toList ++ rest)) :
    outcome (readValue room cs) = .ok (.boolean false, rest) := by
  obtain ⟨_, step⟩ := readValue_at skipped
  rw [step, if_neg (by decide), if_neg (by decide), if_pos rfl, outcome_widen, outcome_readWord]

theorem readValue_string (text : String) (skipped : skipGap cs = '"' :: (quoteBody text ++ rest)) :
    outcome (readValue room cs) = .ok (.string text, rest) := by
  obtain ⟨_, step⟩ := readValue_at skipped
  rw [step]
  exact outcome_bind_ok (readString_quoteBody text rest _) fun _ => rfl

theorem readValue_negative (skipped : skipGap cs = '-' :: rest) :
    outcome (readValue room cs) = outcome (readNumber true rest) := by
  obtain ⟨_, step⟩ := readValue_at skipped
  rw [step]
  exact outcome_widen _ _

theorem readValue_digit (digit : c.isDigit = true) (skipped : skipGap cs = c :: rest) :
    outcome (readValue room cs) = outcome (readNumber false (c :: rest)) := by
  have differs (other : Char) (noDigit : other.isDigit = false) : c ≠ other := by
    rintro rfl
    rw [noDigit] at digit
    contradiction
  obtain ⟨_, step⟩ := readValue_at skipped
  rw [step, if_neg (differs 'n' rfl), if_neg (differs 't' rfl), if_neg (differs 'f' rfl),
    if_neg (differs '-' rfl), if_pos digit]
  exact outcome_widen _ _

/-- A list takes one level of nesting more than its items. -/
theorem readValue_items {last : Json × List Char} (skipped : skipGap cs = '[' :: rest)
    (reads : ∀ {room bound : Nat} (within : rest.length < bound),
      outcome (readItems room true [] rest within) = upTo room levels last) :
    outcome (readValue room cs) = upTo room (levels + 1) last := by
  obtain ⟨shorter, step⟩ := readValue_at skipped
  rw [step]
  cases room with
  | zero => rfl
  | succ room =>
    refine (reads shorter).trans ?_
    simp only [upTo, Nat.add_le_add_iff_right]

/-- An object takes one level of nesting more than its fields. -/
theorem readValue_fields {last : Json × List Char} (skipped : skipGap cs = '\x7b' :: rest)
    (reads : ∀ {room bound : Nat} (within : rest.length < bound),
      outcome (readFields room true [] rest within) = upTo room levels last) :
    outcome (readValue room cs) = upTo room (levels + 1) last := by
  obtain ⟨shorter, step⟩ := readValue_at skipped
  rw [step]
  cases room with
  | zero => rfl
  | succ room =>
    refine (reads shorter).trans ?_
    simp only [upTo, Nat.add_le_add_iff_right]

end Step

end Scriptlet.Json

import Scriptlet.Proofs.Json.Fields
import Scriptlet.Proofs.Json.Values

/-! JSON text reads back. A value is written so that reading the text gives the value, whatever
stands before and behind it, as long as lists and objects nest no deeper than there is room. -/
namespace Scriptlet.Json

open Token (Stops)

section Text

variable {text : String} {value : Json}

theorem read_of_outcome (reads : outcome (readValue depthLimit text.toList) = .ok (value, gap))
    (blank : skipGap gap = []) : read text = .ok value := by
  obtain ⟨within, result⟩ := outcome_eq_ok reads
  rw [read, result]
  dsimp only [bind, Except.bind]
  rw [blank]
  rfl

theorem read_fault (fails : outcome (readValue depthLimit text.toList) = .error fault) :
    ∃ e, read text = .error e ∧ e.fault = fault := by
  cases result : readValue depthLimit text.toList with
  | ok reading =>
    rw [result] at fails
    contradiction
  | error stop =>
    rw [result] at fails
    cases fails
    rw [read, result]
    exact ⟨_, rfl, rfl⟩

theorem outcome_of_read (reads : read text = .ok value) :
    ∃ gap, outcome (readValue depthLimit text.toList) = .ok (value, gap) ∧ skipGap gap = [] := by
  cases result : readValue depthLimit text.toList with
  | error stop =>
    rw [read, result] at reads
    contradiction
  | ok reading =>
    rw [read, result] at reads
    dsimp only [bind, Except.bind] at reads
    split at reads
    · rename_i blank
      cases reads
      exact ⟨reading.rest, rfl, blank⟩
    · contradiction

end Text

/-- A number that is read back from its JSON form is read in front of what can be no part of it. -/
theorem readValue_number {x : Float} (reads : read (Number.json x) = .ok (.float x))
    (skipped : skipGap cs = (Number.json x).toList ++ rest) (stops : Stops continues rest) :
    outcome (readValue room cs) = .ok (.float x, rest) := by
  obtain ⟨c, more, text, begins, visible⟩ := json_begins x
  obtain ⟨gap, whole, blank⟩ := outcome_of_read reads
  rw [text] at whole skipped
  have noGap {used : List Char} (split : c :: more = used ++ gap) : gap = [] := by
    cases gap with
    | nil => rfl
    | cons d gap =>
      have shown : isGap d = false := visible d (by simp [split])
      rw [skipGap, List.dropWhile_cons_of_neg (by simp [shown])] at blank
      contradiction
  rcases begins with rfl | digit
  · have same : skipGap ('-' :: more) = '-' :: more := rfl
    rw [readValue_negative same] at whole
    obtain ⟨used, rfl, _, again⟩ := again_number _ _ _ _ whole
    obtain rfl : gap = [] := noGap (List.cons_append : ('-' :: used) ++ gap = _).symm
    rw [List.append_nil] at skipped
    rw [readValue_negative skipped]
    exact again rest stops
  · have same : skipGap (c :: more) = c :: more :=
      List.dropWhile_cons_of_neg (by simp [visible c List.mem_cons_self])
    rw [readValue_digit digit same] at whole
    obtain ⟨used, split, _, again⟩ := again_number _ _ _ _ whole
    obtain rfl := noGap split
    rw [List.append_nil] at split
    subst split
    exact (readValue_digit digit skipped).trans (again rest stops)

mutual

/-- How deep lists and objects nest in a value. -/
def nesting : Json → Nat
  | array items => mostNesting items + 1
  | object fields => fieldsNesting fields + 1
  | _ => 0

def mostNesting : List Json → Nat
  | [] => 0
  | item :: rest => max item.nesting (mostNesting rest)

def fieldsNesting : List (String × Json) → Nat
  | [] => 0
  | (_, value) :: rest => max value.nesting (fieldsNesting rest)

end

theorem nesting_string (text : String) : (string text).nesting = 0 := rfl

mutual

/-- Whether the fields of objects are in order, and the numbers are doubles that are read back from
their JSON form. -/
def Legible : Json → Prop
  | integer _ => False
  | float x => read (Number.json x) = .ok (.float x)
  | array items => AllLegible items
  | object fields => Ordered fields ∧ FieldsLegible fields
  | _ => True

/-- Item by item. -/
def AllLegible : List Json → Prop
  | [] => True
  | item :: rest => item.Legible ∧ AllLegible rest

/-- Field by field. -/
def FieldsLegible : List (String × Json) → Prop
  | [] => True
  | (_, value) :: rest => value.Legible ∧ FieldsLegible rest

end

/-- A layout that adds nothing but blanks. -/
structure Layout.Plain (layout : Layout) : Prop where
  newline : ∀ depth, Blank (layout.newline depth).toList
  afterKey : ∃ gap, layout.afterKey.toList = ':' :: gap ∧ Blank gap

theorem Layout.plain_compact : compact.Plain :=
  ⟨fun _ _ absent => by contradiction, [], rfl, by simp [Blank]⟩

theorem Layout.plain_indented : indented.Plain := by
  refine ⟨?_, [' '], rfl, by simp [Blank, isGap]⟩
  intro depth c member
  simp [indented, String.toList_append, Number.toList_pushn] at member
  rcases member with rfl | ⟨_, rfl⟩ <;> rfl

section Form

variable (layout : Layout) (depth : Nat)

/-- The characters of a value as it is written. -/
theorem toList_renderAt (value : Json) : (renderAt layout depth value).toList =
    match value with
    | null => 'n' :: "ull".toList
    | boolean true => 't' :: "rue".toList
    | boolean false => 'f' :: "alse".toList
    | integer value => (toString value).toList
    | float x => (Number.json x).toList
    | string text => '"' :: quoteBody text
    | array [] => ['[', ']']
    | array (first :: more) =>
      '[' :: ((layout.newline (depth + 1)).toList ++
        ((renderAt layout (depth + 1) first).toList ++
          ((renderItems layout (depth + 1) more).toList ++
            ((layout.newline depth).toList ++ [']']))))
    | object [] => ['\x7b', '\x7d']
    | object ((key, value) :: more) =>
      '\x7b' :: ((layout.newline (depth + 1)).toList ++ ('"' :: (quoteBody key ++
        (layout.afterKey.toList ++ ((renderAt layout (depth + 1) value).toList ++
          ((renderFields layout (depth + 1) more).toList ++
            ((layout.newline depth).toList ++ ['\x7d']))))))) := by
  rw [renderAt.eq_def]
  split <;> try rfl
  · exact toList_quote _
  · simp [String.toList_append]
  · simp [String.toList_append, toList_quote]

theorem toList_renderItems (item : Json) (rest : List Json) :
    (renderItems layout depth (item :: rest)).toList =
      ',' :: ((layout.newline depth).toList ++ ((renderAt layout depth item).toList ++
        (renderItems layout depth rest).toList)) := by
  simp [renderItems, String.toList_append]

theorem toList_renderFields (key : String) (value : Json) (rest : List (String × Json)) :
    (renderFields layout depth ((key, value) :: rest)).toList =
      ',' :: ((layout.newline depth).toList ++ ('"' :: (quoteBody key ++
        (layout.afterKey.toList ++ ((renderAt layout depth value).toList ++
          (renderFields layout depth rest).toList))))) := by
  simp [renderFields, String.toList_append, toList_quote]

/-- A value is written from a character that is no blank and closes no list. -/
theorem renderAt_begins {value : Json} (legible : value.Legible) :
    ∃ c more, (renderAt layout depth value).toList = c :: more ∧ isGap c = false ∧ c ≠ ']' := by
  rw [toList_renderAt]
  cases value with
  | null => exact ⟨'n', _, rfl, rfl, by decide⟩
  | boolean value =>
    cases value with
    | true => exact ⟨'t', _, rfl, rfl, by decide⟩
    | false => exact ⟨'f', _, rfl, rfl, by decide⟩
  | integer value => contradiction
  | float x =>
    obtain ⟨c, more, text, begins, visible⟩ := json_begins x
    refine ⟨c, more, text, visible c List.mem_cons_self, ?_⟩
    rintro rfl
    simp at begins
  | string text => exact ⟨'"', _, rfl, rfl, by decide⟩
  | array items => cases items <;> exact ⟨'[', _, rfl, rfl, by decide⟩
  | object fields => cases fields <;> exact ⟨'\x7b', _, rfl, rfl, by decide⟩

/-- Behind a gap a value begins at once. -/
theorem skipGap_renderAt {value : Json} (legible : value.Legible) (blank : Blank gap)
    (rest : List Char) : ∃ c more,
      skipGap (gap ++ ((renderAt layout depth value).toList ++ rest)) = c :: more ∧ c ≠ ']' ∧
        c :: more = (renderAt layout depth value).toList ++ rest := by
  obtain ⟨c, more, text, visible, goesOn⟩ := renderAt_begins layout depth legible
  rw [text]
  exact ⟨c, more ++ rest, skipGap_append blank visible _, goesOn, rfl⟩

end Form

/-- What goes on behind a gap with a mark can be no part of a numeral. -/
theorem stops_of_skipGap (skipped : skipGap cs = c :: rest) (mark : continues c = false) :
    Stops continues cs := by
  cases cs with
  | nil => contradiction
  | cons d more =>
    rintro _ ⟨⟩
    by_cases gap : isGap d = true
    · have blank : d = ' ' ∨ d = '\n' ∨ d = '\t' ∨ d = '\r' := by
        simpa [isGap, or_assoc] using gap
      rcases blank with rfl | rfl | rfl | rfl <;> rfl
    · rw [skipGap, List.dropWhile_cons_of_neg gap] at skipped
      cases skipped
      exact mark

theorem stops_renderItems {layout : Layout} {depth : Nat} (items : List Json)
    (closed : skipGap back = ']' :: rest) :
    Stops continues ((renderItems layout depth items).toList ++ back) := by
  cases items with
  | nil =>
    rw [renderItems]
    exact stops_of_skipGap closed rfl
  | cons item more =>
    rw [toList_renderItems]
    rintro _ ⟨⟩
    rfl

theorem stops_renderFields {layout : Layout} {depth : Nat} (fields : List (String × Json))
    (closed : skipGap back = '\x7d' :: rest) :
    Stops continues ((renderFields layout depth fields).toList ++ back) := by
  cases fields with
  | nil =>
    rw [renderFields]
    exact stops_of_skipGap closed rfl
  | cons field more =>
    rw [toList_renderFields]
    rintro _ ⟨⟩
    rfl

section Back

variable {layout : Layout} (plain : layout.Plain)

include plain

mutual

/-- A value is read back from what is written. -/
theorem readValue_renderAt (value : Json) (legible : value.Legible) (depth : Nat) {room : Nat}
    {cs rest : List Char} (skipped : skipGap cs = (renderAt layout depth value).toList ++ rest)
    (stops : Stops continues rest) :
    outcome (readValue room cs) = upTo room value.nesting (value, rest) := by
  rw [toList_renderAt] at skipped
  cases value with
  | null => exact (readValue_null skipped).trans (upTo_zero ..).symm
  | boolean value =>
    cases value with
    | true => exact (readValue_true skipped).trans (upTo_zero ..).symm
    | false => exact (readValue_false skipped).trans (upTo_zero ..).symm
  | integer value => contradiction
  | float x => exact (readValue_number legible skipped stops).trans (upTo_zero ..).symm
  | string text => exact (readValue_string text skipped).trans (upTo_zero ..).symm
  | array items =>
    cases items with
    | nil =>
      refine readValue_items skipped fun within => ?_
      exact (readItems_close rfl within).trans (upTo_zero ..).symm
    | cons first more =>
      obtain ⟨c, after, opened, goesOn, text⟩ := skipGap_renderAt layout (depth + 1) legible.1
        (plain.newline (depth + 1)) ((renderItems layout (depth + 1) more).toList ++
          ((layout.newline depth).toList ++ ']' :: rest))
      have closed : skipGap ((layout.newline depth).toList ++ ']' :: rest) = ']' :: rest :=
        skipGap_append (plain.newline depth) rfl rest
      simp only [List.cons_append, List.append_assoc, List.nil_append] at skipped
      refine readValue_items skipped fun within => ?_
      have reads (room : Nat) : outcome (readValue room _) = upTo room first.nesting (first, _) :=
        readValue_renderAt first legible.1 (depth + 1) (opened.trans text)
          (stops_renderItems more closed)
      exact readItems_first (readItems_renderItems more legible.2 (depth + 1) closed)
        opened goesOn (reads _) within
  | object fields =>
    cases fields with
    | nil =>
      refine readValue_fields skipped fun within => ?_
      exact (readFields_close rfl within).trans (upTo_zero ..).symm
    | cons field more =>
      obtain ⟨key, first⟩ := field
      obtain ⟨space, colon, blank⟩ := plain.afterKey
      obtain ⟨c, after, opened, goesOn, text⟩ := skipGap_renderAt layout (depth + 1) legible.2.1
        blank ((renderFields layout (depth + 1) more).toList ++
          ((layout.newline depth).toList ++ '\x7d' :: rest))
      have closed : skipGap ((layout.newline depth).toList ++ '\x7d' :: rest) = '\x7d' :: rest :=
        skipGap_append (plain.newline depth) rfl rest
      have quoted (rest : List Char) :
          skipGap ((layout.newline (depth + 1)).toList ++ '"' :: rest) = '"' :: rest :=
        skipGap_append (plain.newline (depth + 1)) rfl rest
      dsimp only at skipped
      rw [colon] at skipped
      simp only [List.cons_append, List.append_assoc, List.nil_append] at skipped
      refine readValue_fields skipped fun within => ?_
      have reads (room : Nat) : outcome (readValue room _) = upTo room first.nesting (first, _) :=
        readValue_renderAt first legible.2.1 (depth + 1) (opened.trans text)
          (stops_renderFields more closed)
      refine (readFields_first (readFields_renderFields more legible.2.2 (depth + 1) closed)
        (quoted _) (readField_quoteBody key (reads _)) within).trans ?_
      change upTo _ _ (ofFields ((key, first) :: more), rest) = _
      rw [ofFields_eq, arrange_ordered legible.1]
      rfl

theorem readItems_renderItems (items : List Json) (legible : AllLegible items)
    (depth : Nat) {room bound : Nat} {found : List Json} {back rest : List Char}
    (closed : skipGap back = ']' :: rest)
    (within : ((renderItems layout depth items).toList ++ back).length < bound) :
    outcome (readItems room false found ((renderItems layout depth items).toList ++ back) within) =
      upTo room (mostNesting items) (array (found.reverse ++ items), rest) := by
  cases items with
  | nil =>
    revert within
    rw [renderItems]
    intro within
    refine (readItems_close closed within).trans ?_
    rw [List.append_nil]
    exact (upTo_zero ..).symm
  | cons item more =>
    obtain ⟨c, after, opened, goesOn, text⟩ := skipGap_renderAt layout depth legible.1
      (plain.newline depth) ((renderItems layout depth more).toList ++ back)
    revert within
    rw [toList_renderItems]
    simp only [List.cons_append, List.append_assoc]
    intro within
    have reads : outcome (readValue room _) = upTo room item.nesting (item, _) :=
      readValue_renderAt item legible.1 depth (opened.trans text) (stops_renderItems more closed)
    refine (readItems_comma (readItems_renderItems more legible.2 depth closed)
      opened goesOn reads within).trans ?_
    rw [List.reverse_cons, List.append_assoc]
    rfl

theorem readFields_renderFields (fields : List (String × Json)) (legible : FieldsLegible fields)
    (depth : Nat) {room bound : Nat} {found : List (String × Json)} {back rest : List Char}
    (closed : skipGap back = '\x7d' :: rest)
    (within : ((renderFields layout depth fields).toList ++ back).length < bound) :
    outcome (readFields room false found ((renderFields layout depth fields).toList ++ back)
      within) = upTo room (fieldsNesting fields) (ofFields (found.reverse ++ fields), rest) := by
  cases fields with
  | nil =>
    revert within
    rw [renderFields]
    intro within
    refine (readFields_close closed within).trans ?_
    rw [List.append_nil]
    exact (upTo_zero ..).symm
  | cons field more =>
    obtain ⟨key, value⟩ := field
    obtain ⟨space, colon, blank⟩ := plain.afterKey
    obtain ⟨c, after, opened, goesOn, text⟩ := skipGap_renderAt layout depth legible.1
      blank ((renderFields layout depth more).toList ++ back)
    revert within
    rw [toList_renderFields, colon]
    simp only [List.cons_append, List.append_assoc]
    intro within
    have reads : outcome (readValue room _) = upTo room value.nesting (value, _) :=
      readValue_renderAt value legible.1 depth (opened.trans text)
        (stops_renderFields more closed)
    refine (readFields_comma (readFields_renderFields more legible.2 depth closed)
      (skipGap_append (plain.newline depth) rfl _) (readField_quoteBody key reads) within).trans ?_
    rw [List.reverse_cons, List.append_assoc]
    rfl

end

/-- What is written with a line break behind it is read up to `depthLimit` levels of nesting, and
refused beyond. -/
theorem read_render {value : Json} (legible : value.Legible) :
    if value.nesting ≤ depthLimit then read (value.render layout ++ "\n") = .ok value
    else ∃ e, read (value.render layout ++ "\n") = .error e ∧ e.fault = .tooDeep := by
  have nothing : Blank [] := by simp [Blank]
  obtain ⟨c, more, begins, _, text⟩ := skipGap_renderAt layout 0 legible nothing ['\n']
  have reads : outcome (readValue depthLimit (value.render layout ++ "\n").toList) =
      upTo depthLimit value.nesting (value, ['\n']) := by
    rw [String.toList_append]
    exact readValue_renderAt plain value legible 0 (begins.trans text) (by rintro _ ⟨⟩; rfl)
  split
  · rename_i fits
    rw [upTo, if_pos fits] at reads
    exact read_of_outcome reads rfl
  · rename_i deep
    rw [upTo, if_neg deep] at reads
    exact read_fault reads

end Back

end Scriptlet.Json

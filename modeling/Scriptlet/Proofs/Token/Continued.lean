import Scriptlet.Proofs.Token.Lexeme
import Scriptlet.Proofs.Token.Proper

/-! Texts that go on after a line break. A line break ends every word, number and comment, and the
scanner looks no further than that for an operator; so whatever it finds in a text it also finds
there when more lines follow, wherever the text stands. -/
namespace Scriptlet
namespace Token

/-- Nothing follows, or a line break and more. -/
def LineEnd (rest : List Char) : Prop := ∀ c ∈ rest.head?, c = '\n'

theorem lineEnd_nil : LineEnd [] := fun _ first => by contradiction

theorem lineEnd_newline (more : List Char) : LineEnd ('\n' :: more) := by
  intro c first
  cases first
  rfl

section Run

variable {sort : Char → Bool} {rest : List Char}

theorem LineEnd.stops (ended : LineEnd rest) (other : sort '\n' = false) : Stops sort rest := by
  intro c first
  rw [ended c first, other]

theorem Stops.takeWhile_append (stops : Stops sort rest) (cs : List Char) :
    (cs ++ rest).takeWhile sort = cs.takeWhile sort := by
  have nothing : ([] ++ rest).takeWhile sort = [] := takeWhile_stops (by simp) stops
  rw [List.nil_append] at nothing
  rw [List.takeWhile_append, nothing]
  split
  · rename_i whole
    rw [List.append_nil, (List.takeWhile_prefix sort).eq_of_length whole]
  · rfl

theorem Stops.dropWhile_append (stops : Stops sort rest) (cs : List Char) :
    (cs ++ rest).dropWhile sort = cs.dropWhile sort ++ rest := by
  have whole : ([] ++ rest).dropWhile sort = rest := dropWhile_stops (by simp) stops
  rw [List.nil_append] at whole
  rw [List.dropWhile_append, whole]
  split
  · rename_i empty
    rw [List.isEmpty_iff.mp empty, List.nil_append]
  · rfl

end Run

section Lexeme

/-- What a lexeme stands for and what it leaves. -/
def found {cs : List Char} (lexeme : Lexeme cs) : Kind × List Char := (lexeme.kind, lexeme.rest)

/-- The same, with more text behind. -/
def behind (rest : List Char) (result : Kind × List Char) : Kind × List Char :=
  (result.1, result.2 ++ rest)

/-- The number whose digits have been cut off the text before `after`, and what it leaves. -/
def numeralFound (digits after : List Char) : Option (Kind × List Char) :=
  match after with
  | '.' :: after =>
    if digits.isEmpty && (after.takeWhile Char.isDigit).isEmpty then none
    else some (.number (Decimal.ofPoint digits (after.takeWhile Char.isDigit)).toFloat,
      after.dropWhile Char.isDigit)
  | after =>
    if digits = [] then none
    else some (.number (Decimal.ofPoint digits []).toFloat, after)

theorem numeralFound_other {after : List Char} (other : ∀ more, after ≠ '.' :: more)
    (digits : List Char) : numeralFound digits after =
      if digits = [] then none
      else some (.number (Decimal.ofPoint digits []).toFloat, after) := by
  unfold numeralFound
  split
  · exact absurd rfl (other _)
  · rfl

theorem number?_found (cs : List Char) : (Lexeme.number? cs).map found =
    numeralFound (cs.takeWhile Char.isDigit) (cs.dropWhile Char.isDigit) := by
  unfold Lexeme.number?
  dsimp only
  split
  · rename_i point
    simp only [point, numeralFound]
    split <;> rfl
  · rename_i other
    rw [numeralFound_other other]
    split <;> rfl

theorem number?_append (ended : LineEnd rest) (cs : List Char) :
    (Lexeme.number? (cs ++ rest)).map found =
      ((Lexeme.number? cs).map found).map (behind rest) := by
  have stops : Stops Char.isDigit rest := ended.stops rfl
  rw [number?_found, number?_found, stops.takeWhile_append, stops.dropWhile_append]
  generalize cs.takeWhile Char.isDigit = digits
  generalize cs.dropWhile Char.isDigit = after
  by_cases point : ∃ more, after = '.' :: more
  · obtain ⟨more, rfl⟩ := point
    simp only [numeralFound, List.cons_append, stops.takeWhile_append, stops.dropWhile_append]
    split <;> rfl
  · rw [not_exists] at point
    have longer : ∀ more, after ++ rest ≠ '.' :: more := by
      intro more same
      cases after with
      | nil => cases ended '.' (by rw [← List.nil_append rest, same]; rfl)
      | cons c left => exact point left (by rw [(List.cons_eq_cons.mp same).1])
    rw [numeralFound_other longer, numeralFound_other point]
    split <;> rfl

/-- No operator has a line break as its second character. -/
theorem doubleMark?_newline (c : Char) : Lexeme.doubleMark? c '\n' = none := by
  rw [Lexeme.doubleMark?, Option.map_eq_none_iff, Operator.ofSymbol?, List.find?_eq_none]
  have second : ∀ op ∈ Operator.all, op.symbol.toList.drop 1 ≠ ['\n'] := by decide
  intro op among written
  apply second op among
  rw [of_decide_eq_true written, String.toList_ofList]
  rfl

theorem symbol?_append (ended : LineEnd rest) (c : Char) (cs : List Char) :
    (Lexeme.symbol? (c :: (cs ++ rest))).map found =
      ((Lexeme.symbol? (c :: cs)).map found).map (behind rest) := by
  cases cs with
  | nil =>
    cases rest with
    | nil => cases mark : Lexeme.mark? c <;> simp [Lexeme.symbol?, mark, found, behind]
    | cons d more =>
      obtain rfl := ended d rfl
      cases mark : Lexeme.mark? c <;>
        simp [Lexeme.symbol?, doubleMark?_newline, mark, found, behind]
  | cons d more =>
    cases double : Lexeme.doubleMark? c d <;> cases mark : Lexeme.mark? c <;>
      simp [Lexeme.symbol?, double, mark, found, behind]

theorem readBody_append {opened here : Position} {text value cs : List Char}
    {literal : StringLiteral.Reading}
    (read : StringLiteral.readBody opened here text value cs = .ok literal)
    (opened' here' : Position) (text' rest : List Char) :
    ∃ longer, StringLiteral.readBody opened' here' text' value (cs ++ rest) = .ok longer ∧
      longer.value = literal.value ∧ longer.rest = literal.rest ++ rest := by
  fun_induction StringLiteral.readBody opened here text value cs generalizing here' text' with
  | case1 => contradiction
  | case2 =>
    cases read
    exact ⟨_, readBody_close .., rfl, rfl⟩
  | case3 => contradiction
  | case4 here text value e rest' denoted denotes _ ih =>
    rw [List.cons_append, List.cons_append, readBody_escaped _ _ _ _ denotes]
    exact ih read _ _
  | case5 => contradiction
  | case6 here text value c rest' quote slash ih =>
    rw [List.cons_append, readBody_plain _ _ _ _ quote slash]
    exact ih read _ _

theorem string_append {opened : Position} {cs : List Char} {lexeme : Lexeme ('"' :: cs)}
    (read : Lexeme.string opened cs = .ok lexeme) (place : Position) (rest : List Char) :
    ∃ longer, Lexeme.string place (cs ++ rest) = .ok longer ∧
      found longer = behind rest (found lexeme) := by
  unfold Lexeme.string at read
  split at read
  · contradiction
  · rename_i literal body
    cases read
    obtain ⟨longer, reads, value, after⟩ :=
      readBody_append body place (place.step '"') ['"'] rest
    unfold Lexeme.string
    split
    · rename_i failed
      rw [reads] at failed
      contradiction
    · rename_i same
      rw [reads] at same
      cases same
      refine ⟨_, rfl, ?_⟩
      simp only [found, behind, value, after]

/-- A lexeme is found again wherever its text stands and whatever lines follow it. -/
theorem read_append {place : Position} {cs : List Char} {lexeme : Lexeme (c :: cs)}
    (read : Lexeme.read place c cs = .ok lexeme) (ended : LineEnd rest) (place' : Position) :
    ∃ longer, Lexeme.read place' c (cs ++ rest) = .ok longer ∧
      found longer = behind rest (found lexeme) := by
  unfold Lexeme.read at read
  split at read
  · rename_i quote
    subst quote
    exact string_append read place' rest
  rename_i noQuote
  unfold Lexeme.read
  rw [dif_neg noQuote]
  split at read
  · rename_i start
    cases read
    have stops : Stops Lexeme.isNamePart rest := ended.stops rfl
    rw [if_pos start]
    refine ⟨_, rfl, ?_⟩
    simp only [found, behind, Lexeme.word, stops.takeWhile_append, stops.dropWhile_append]
  rename_i noName
  rw [if_neg noName]
  have number : (Lexeme.number? (c :: (cs ++ rest))).map found =
      ((Lexeme.number? (c :: cs)).map found).map (behind rest) := number?_append ended (c :: cs)
  have symbol := symbol?_append ended c cs
  split at read
  · rename_i first
    cases read
    cases numberCase : Lexeme.number? (c :: cs) with
    | some short =>
      rw [numberCase] at first number
      cases first
      obtain ⟨longer, reads, same⟩ := Option.map_eq_some_iff.mp number
      rw [reads]
      exact ⟨longer, rfl, same⟩
    | none =>
      rw [numberCase] at first number
      change Lexeme.symbol? (c :: cs) = some lexeme at first
      rw [first] at symbol
      obtain ⟨longer, reads, same⟩ := Option.map_eq_some_iff.mp symbol
      rw [Option.map_eq_none_iff.mp number, reads]
      exact ⟨longer, rfl, same⟩
  · contradiction

theorem mark?_ne_end {kind : Kind} (mark : Lexeme.mark? c = some kind) : kind ≠ .endOfInput := by
  rintro rfl
  unfold Lexeme.mark? at mark
  repeat' split at mark
  case isFalse.isFalse.isFalse.isFalse.isFalse =>
    obtain ⟨op, _, same⟩ := Option.map_eq_some_iff.mp mark
    cases same
  all_goals cases mark

theorem symbol?_ne_end {cs : List Char} {lexeme : Lexeme cs}
    (symbol : Lexeme.symbol? cs = some lexeme) : lexeme.kind ≠ .endOfInput := by
  match cs with
  | [] => contradiction
  | [c] =>
    obtain ⟨kind, mark, rfl⟩ := Option.map_eq_some_iff.mp symbol
    exact mark?_ne_end mark
  | c :: d :: rest =>
    rw [Lexeme.symbol?] at symbol
    split at symbol
    · rename_i double
      cases symbol
      obtain ⟨op, _, rfl⟩ := Option.map_eq_some_iff.mp double
      simp
    · obtain ⟨kind, mark, rfl⟩ := Option.map_eq_some_iff.mp symbol
      exact mark?_ne_end mark

theorem number?_ne_end {cs : List Char} {lexeme : Lexeme cs}
    (number : Lexeme.number? cs = some lexeme) : lexeme.kind ≠ .endOfInput := by
  unfold Lexeme.number? at number
  dsimp only at number
  repeat' split at number
  all_goals cases number
  all_goals simp

/-- No lexeme stands for the end of the input. -/
theorem kind_ne_end {place : Position} {cs : List Char} {lexeme : Lexeme (c :: cs)}
    (read : Lexeme.read place c cs = .ok lexeme) : lexeme.kind ≠ .endOfInput := by
  unfold Lexeme.read at read
  split at read
  · rename_i quote
    subst quote
    change Lexeme.string place cs = .ok lexeme at read
    unfold Lexeme.string at read
    split at read
    · contradiction
    · cases read
      simp
  split at read
  · cases read
    simp only [Lexeme.word, Lexeme.wordKind]
    repeat' split
    all_goals simp
  split at read
  · rename_i first
    cases read
    cases number : Lexeme.number? (c :: cs) with
    | some other =>
      rw [number] at first
      cases first
      exact number?_ne_end number
    | none =>
      rw [number] at first
      exact symbol?_ne_end first
  · contradiction

end Lexeme

section Gap

variable {rest : List Char}

theorem Solid.append (solid : Solid c cs) (ended : LineEnd rest) : Solid c (cs ++ rest) := by
  refine ⟨solid.1, ?_⟩
  rintro ⟨slash, next⟩
  cases cs with
  | nil => cases ended '/' next
  | cons d more => exact solid.2 ⟨slash, next⟩

theorem skipGap_stops {place here : Position} {cs : List Char}
    (skips : skipGap place cs = (here, c :: more)) : Solid c more := by
  fun_induction skipGap place cs with
  | case1 => cases skips
  | case2 place c cs _ _ ih => exact ih skips
  | case3 place c cs _ _ ih => exact ih skips
  | case4 place d cs comment solid =>
    cases skips
    exact ⟨Bool.eq_false_iff.mpr solid, comment⟩

/-- A gap is skipped wherever it stands, up to the end of its text or line. -/
theorem skipGap_append (ended : LineEnd rest) (place place' : Position) (cs : List Char) :
    ∃ here, skipGap place' (cs ++ rest) = skipGap here ((skipGap place cs).2 ++ rest) := by
  fun_induction skipGap place cs generalizing place' with
  | case1 => exact ⟨place', rfl⟩
  | case2 place c cs comment text ih =>
    have stops : Stops (fun c => decide (c ≠ '\n')) rest := ended.stops rfl
    have longer : c = '/' ∧ (cs ++ rest).head? = some '/' := by
      refine ⟨comment.1, ?_⟩
      cases cs with
      | nil => cases comment.2
      | cons d more => exact comment.2
    obtain ⟨here, skips⟩ := ih (place'.after ((c :: (cs ++ rest)).takeWhile (· ≠ '\n')))
    refine ⟨here, ?_⟩
    rw [List.cons_append, skipGap, if_pos longer, stops.dropWhile_append]
    exact skips
  | case3 place c cs comment blank ih =>
    obtain ⟨here, skips⟩ := ih (place'.step c)
    exact ⟨here, by rw [List.cons_append, skipGap_blank place' blank]; exact skips⟩
  | case4 => exact ⟨place', rfl⟩

end Gap

theorem opens_of_read {place : Position} {cs : List Char} {lexeme : Lexeme (c :: cs)}
    (read : Lexeme.read place c cs = .ok lexeme) (solid : Solid c cs) (finite : lexeme.kind.Finite)
    (ended : LineEnd rest) : Opens lexeme.kind (lexeme.rest ++ rest) (c :: (cs ++ rest)) := by
  refine ⟨c, cs ++ rest, rfl, solid.append ended, finite, ?_⟩
  intro place'
  obtain ⟨longer, reads, same⟩ := read_append read ended place'
  obtain ⟨kind, after⟩ := Prod.mk.inj same
  exact ⟨longer, reads, kind, after⟩

/-- What the scanner finds in a text it finds wherever the text stands and whatever lines
follow it. -/
theorem Finds.passes {place : Position} {cs : List Char} {tokens : List Token}
    (finds : Finds place cs tokens) :
    ∃ kinds, tokens.map Token.kind = kinds ++ [.endOfInput] ∧ .endOfInput ∉ kinds ∧
      ∀ rest, LineEnd rest → Passes (cs ++ rest) kinds rest := by
  induction finds with
  | @ending place cs here gap =>
    refine ⟨[], rfl, List.not_mem_nil, ?_⟩
    intro rest ended
    refine .gap (fun place' => ?_) (.refl rest)
    have skips := skipGap_append ended place place' cs
    rwa [gap] at skips
  | @token c after place cs here tokens lexeme gap read finite onward ih =>
    obtain ⟨kinds, same, noEnd, passes⟩ := ih
    refine ⟨lexeme.kind :: kinds, congrArg _ same, ?_, ?_⟩
    · rw [List.mem_cons, not_or]
      exact ⟨(kind_ne_end read).symm, noEnd⟩
    · intro rest ended
      have opens := opens_of_read read (skipGap_stops gap) finite ended
      refine .gap (fun place' => ?_) (.lexeme opens (passes rest ended))
      have skips := skipGap_append ended place place' cs
      rwa [gap] at skips

/-- The tokens of a source text, found again in front of other lines. -/
theorem scan_passes (scans : scan source = .ok tokens) :
    ∃ kinds, tokens.map Token.kind = kinds ++ [.endOfInput] ∧ .endOfInput ∉ kinds ∧
      ∀ rest, LineEnd rest → Passes (source.toList ++ rest) kinds rest :=
  (scan_finds scans).passes

end Token
end Scriptlet

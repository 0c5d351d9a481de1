import Scriptlet.Proofs.Token.Numeral

/-! How tokens are spelled. The spelling is given without the scanner: symbols and keywords have one
text each, names, numbers and strings have a form. What the scanner reads at the head of a text is
spelled so, and wherever a spelled text begins another text the scanner takes it or a longer one. -/
namespace Scriptlet
namespace Token

/-- A string literal behind its opening quote, and the characters that it denotes. -/
inductive Quoted : List Char → List Char → Prop where
  | close : Quoted ['"'] []
  | plain (quote : c ≠ '"') (slash : c ≠ '\\') (onward : Quoted text value) :
      Quoted (c :: text) (c :: value)
  | escaped (denotes : StringLiteral.unescape? e = some c) (onward : Quoted text value) :
      Quoted ('\\' :: e :: text) (c :: value)

/-- Punctuation and operators. -/
def symbols : List (String × Kind) :=
  [("(", .leftParen), (")", .rightParen), ("\x7b", .leftBrace), ("\x7d", .rightBrace),
    (";", .semicolon)] ++ Operator.all.map fun op => (op.symbol, .operator op)

/-- The keywords with their kinds. -/
def reserved : List (String × Kind) :=
  [("if", .ifKeyword), ("else", .elseKeyword), ("true", .boolean true), ("false", .boolean false)]

/-- The texts that spell a token of a kind. A name that is a keyword spells no identifier, and a
numeral spells the number that it is when it stands alone. -/
inductive Spells : List Char → Kind → Prop where
  | symbol {text : String} {kind : Kind} (among : (text, kind) ∈ symbols) : Spells text.toList kind
  | keyword {text : String} {kind : Kind} (among : (text, kind) ∈ reserved) :
      Spells text.toList kind
  | name (isName : Definition.isName text = true) (free : String.ofList text ∉ keywords) :
      Spells text (.identifier (String.ofList text))
  | number (numeral : Numeral text) (value : Number.ofText? (String.ofList text) = some x) :
      Spells text (.number x)
  | string (quoted : Quoted text value) : Spells ('"' :: text) (.string (String.ofList value))

section String

/-- The scanner reads a literal to its end. -/
theorem Quoted.readBody (quoted : Quoted body value) (opened here : Position)
    (text before rest : List Char) :
    StringLiteral.readBody opened here text before (body ++ rest) =
      .ok ⟨before.reverse ++ value, text.reverse ++ body, rest⟩ := by
  induction quoted generalizing here text before with
  | close => simp [readBody_close]
  | plain quote slash _ ih =>
    rw [List.cons_append, readBody_plain _ _ _ _ quote slash, ih]
    simp
  | escaped denotes _ ih =>
    rw [List.cons_append, List.cons_append, readBody_escaped _ _ _ _ denotes, ih]
    simp

/-- What the scanner reads is a literal. -/
theorem quoted_of_readBody {opened here : Position} {text before cs : List Char}
    {literal : StringLiteral.Reading}
    (read : StringLiteral.readBody opened here text before cs = .ok literal) :
    ∃ body value, literal.text = text.reverse ++ body ∧
      literal.value = before.reverse ++ value ∧ Quoted body value := by
  fun_induction StringLiteral.readBody opened here text before cs with
  | case1 => contradiction
  | case2 =>
    cases read
    exact ⟨['"'], [], by simp, by simp, .close⟩
  | case3 => contradiction
  | case4 here text before e rest denoted denotes _ ih =>
    obtain ⟨body, value, same, means, quoted⟩ := ih read
    exact ⟨_, _, by simp [same], by simp [means], .escaped denotes quoted⟩
  | case5 => contradiction
  | case6 here text before c rest quote slash ih =>
    obtain ⟨body, value, same, means, quoted⟩ := ih read
    exact ⟨_, _, by simp [same], by simp [means], .plain quote slash quoted⟩

theorem spells_string {place : Position} {cs : List Char} {lexeme : Lexeme ('"' :: cs)}
    (read : Lexeme.string place cs = .ok lexeme) : Spells lexeme.text lexeme.kind := by
  unfold Lexeme.string at read
  split at read
  · contradiction
  · rename_i literal body
    cases read
    obtain ⟨text, value, same, means, quoted⟩ := quoted_of_readBody body
    simp only [same, means]
    exact .string quoted

theorem string_found (quoted : Quoted body value) (place : Position) (rest : List Char) :
    ∃ lexeme, Lexeme.string place (body ++ rest) = .ok lexeme ∧
      found lexeme = (.string (String.ofList value), rest) := by
  have reads := quoted.readBody place (place.step '"') ['"'] [] rest
  unfold Lexeme.string
  split
  · rename_i failed
    rw [reads] at failed
    contradiction
  · rename_i same
    rw [reads] at same
    cases same
    exact ⟨_, rfl, rfl⟩

end String

section Symbol

theorem among_of_operator {text : String} {kind : Kind}
    (operator : (Operator.ofSymbol? text).map .operator = some kind) : (text, kind) ∈ symbols := by
  obtain ⟨op, first, rfl⟩ := Option.map_eq_some_iff.mp operator
  rw [Operator.ofSymbol?] at first
  have same : op.symbol = text := by simpa using List.find?_some first
  rw [← same]
  exact List.mem_append_right _ (List.mem_map_of_mem (List.mem_of_find?_eq_some first))

theorem among_of_mark {kind : Kind} (mark : Lexeme.mark? c = some kind) :
    (c.toString, kind) ∈ symbols := by
  unfold Lexeme.mark? at mark
  repeat' split at mark
  case isFalse.isFalse.isFalse.isFalse.isFalse => exact among_of_operator mark
  all_goals
    cases mark
    subst c
    simp [symbols]

theorem spells_symbol {cs : List Char} {lexeme : Lexeme cs}
    (symbol : Lexeme.symbol? cs = some lexeme) : Spells lexeme.text lexeme.kind := by
  have single {c : Char} {kind : Kind} (mark : Lexeme.mark? c = some kind) : Spells [c] kind := by
    simpa using Spells.symbol (among_of_mark mark)
  match cs with
  | [] => contradiction
  | [c] =>
    obtain ⟨kind, mark, rfl⟩ := Option.map_eq_some_iff.mp symbol
    exact single mark
  | c :: d :: rest =>
    rw [Lexeme.symbol?] at symbol
    split at symbol
    · rename_i double
      cases symbol
      simpa using Spells.symbol (among_of_operator double)
    · obtain ⟨kind, mark, rfl⟩ := Option.map_eq_some_iff.mp symbol
      exact single mark

/-- A symbol has one character or two, and the first of them begins no string, word or number. -/
theorem symbol_cases {text : String} {kind : Kind} (among : (text, kind) ∈ symbols) :
    ∃ c more, text.toList = c :: more ∧
      (c ≠ '"' ∧ Lexeme.isNameStart c = false ∧ c.isDigit = false ∧ c ≠ '.') ∧
      (more = [] ∧ Lexeme.mark? c = some kind ∨
        ∃ d, more = [d] ∧ Lexeme.doubleMark? c d = some kind) := by
  rw [symbols, List.mem_append, List.mem_map] at among
  rcases among with mark | ⟨op, _, same⟩
  · simp only [List.mem_cons, Prod.mk.injEq, List.not_mem_nil, or_false] at mark
    rcases mark with ⟨rfl, rfl⟩ | ⟨rfl, rfl⟩ | ⟨rfl, rfl⟩ | ⟨rfl, rfl⟩ | ⟨rfl, rfl⟩ <;>
      exact ⟨_, _, rfl, by decide, .inl ⟨rfl, rfl⟩⟩
  · cases same
    cases op
    case equal | notEqual | lessEqual | greaterEqual | and | or =>
      exact ⟨_, _, rfl, by decide, .inr ⟨_, rfl, rfl⟩⟩
    all_goals exact ⟨_, _, rfl, by decide, .inl ⟨rfl, rfl⟩⟩

theorem symbol?_of_mark {kind : Kind} (mark : Lexeme.mark? c = some kind) (rest : List Char) :
    ∃ lexeme, Lexeme.symbol? (c :: rest) = some lexeme ∧
      (found lexeme = (kind, rest) ∨ lexeme.rest.length < rest.length) := by
  cases rest with
  | nil => exact ⟨_, by rw [Lexeme.symbol?, mark]; rfl, .inl rfl⟩
  | cons d rest =>
    cases double : Lexeme.doubleMark? c d with
    | none => exact ⟨_, by simp only [Lexeme.symbol?, double, mark]; rfl, .inl rfl⟩
    | some longer =>
      have symbol : Lexeme.symbol? (c :: d :: rest) =
          some ⟨longer, [c, d], rest, rfl, List.cons_ne_nil _ _⟩ := by
        simp only [Lexeme.symbol?, double]
      exact ⟨_, symbol, .inr (Nat.lt_succ_self _)⟩

/-- The scanner takes a symbol at the head of a text, or one that is longer. -/
theorem read_of_symbol {text : String} {kind : Kind} (among : (text, kind) ∈ symbols)
    (split : text.toList ++ rest = c :: cs) (place : Position) :
    ∃ lexeme, Lexeme.read place c cs = .ok lexeme ∧
      (found lexeme = (kind, rest) ∨ lexeme.rest.length < rest.length) := by
  obtain ⟨first, more, same, ⟨quote, noName, noDigit, noPoint⟩, mark⟩ := symbol_cases among
  rw [same] at split
  cases split
  rcases mark with ⟨rfl, mark⟩ | ⟨d, rfl, double⟩
  · obtain ⟨lexeme, symbol, takes⟩ := symbol?_of_mark mark rest
    exact ⟨lexeme, read_symbol quote noName noDigit noPoint place symbol, takes⟩
  · have symbol : Lexeme.symbol? (c :: d :: rest) =
        some ⟨kind, [c, d], rest, rfl, List.cons_ne_nil _ _⟩ := by
      simp only [Lexeme.symbol?, double]
    exact ⟨_, read_symbol quote noName noDigit noPoint place symbol, .inl rfl⟩

end Symbol

section Word

theorem not_keyword_iff {word : List Char} : String.ofList word ∉ keywords ↔
    word ≠ "if".toList ∧ word ≠ "else".toList ∧ word ≠ "true".toList ∧ word ≠ "false".toList := by
  simp only [keywords, List.mem_cons, List.not_mem_nil, or_false, not_or, ← String.toList_inj,
    String.toList_ofList, ne_eq]

theorem spells_wordKind (isName : Definition.isName word = true) :
    Spells word (Lexeme.wordKind word) := by
  unfold Lexeme.wordKind
  repeat' split
  case isFalse.isFalse.isFalse.isFalse ifWord elseWord trueWord falseWord =>
    exact .name isName (not_keyword_iff.mpr ⟨ifWord, elseWord, trueWord, falseWord⟩)
  all_goals
    subst word
    exact .keyword (by simp [reserved])

theorem isName_word (start : Lexeme.isNameStart c = true) (cs : List Char) :
    Definition.isName (c :: cs.takeWhile Lexeme.isNamePart) = true := by
  rw [Definition.isName, start, List.all_takeWhile]
  rfl

/-- The scanner takes a name or keyword at the head of a text, or a word that is longer. -/
theorem read_of_word (isName : Definition.isName text = true) (split : text ++ rest = c :: cs)
    (place : Position) : ∃ lexeme, Lexeme.read place c cs = .ok lexeme ∧
      (found lexeme = (Lexeme.wordKind text, rest) ∨ lexeme.rest.length < rest.length) := by
  cases text with
  | nil => contradiction
  | cons first more =>
    cases split
    rw [Definition.isName, Bool.and_eq_true, List.all_eq_true] at isName
    obtain ⟨start, parts⟩ := isName
    have quote : c ≠ '"' := by
      rintro rfl
      contradiction
    refine ⟨.word c (more ++ rest), (dif_neg quote).trans (if_pos start), ?_⟩
    simp only [found, Lexeme.word, List.takeWhile_append_of_pos parts,
      List.dropWhile_append_of_pos parts]
    by_cases longer : rest.takeWhile Lexeme.isNamePart = []
    · left
      rw [longer, dropWhile_of_takeWhile longer, List.append_nil]
    · exact .inr (length_dropWhile_lt longer)

end Word

section Read

/-- What the scanner reads is spelled as what it stands for. -/
theorem spells_of_read {place : Position} {cs : List Char} {lexeme : Lexeme (c :: cs)}
    (read : Lexeme.read place c cs = .ok lexeme) : Spells lexeme.text lexeme.kind := by
  unfold Lexeme.read at read
  split at read
  · rename_i quote
    subst quote
    exact spells_string read
  split at read
  · rename_i start
    cases read
    exact spells_wordKind (isName_word start cs)
  split at read
  · rename_i first
    cases read
    cases number : Lexeme.number? (c :: cs) with
    | some other =>
      rw [number] at first
      cases first
      obtain ⟨numeral, x, kind, value⟩ := numeral_of_number? number
      rw [kind]
      exact .number numeral value
    | none =>
      rw [number] at first
      exact spells_symbol first
  · contradiction

/-- Wherever a text begins with a spelled one, the scanner takes that or one that is longer. -/
theorem read_of_spells {kind : Kind} (spells : Spells text kind) (split : text ++ rest = c :: cs)
    (place : Position) : ∃ lexeme, Lexeme.read place c cs = .ok lexeme ∧
      (found lexeme = (kind, rest) ∨ lexeme.rest.length < rest.length) := by
  cases spells with
  | symbol among => exact read_of_symbol among split place
  | keyword among =>
    simp only [reserved, List.mem_cons, Prod.mk.injEq, List.not_mem_nil, or_false] at among
    rcases among with ⟨rfl, rfl⟩ | ⟨rfl, rfl⟩ | ⟨rfl, rfl⟩ | ⟨rfl, rfl⟩ <;>
      exact read_of_word (by decide) split place
  | name isName free =>
    obtain ⟨ifWord, elseWord, trueWord, falseWord⟩ := not_keyword_iff.mp free
    have kind : Lexeme.wordKind text = .identifier (String.ofList text) := by
      rw [Lexeme.wordKind, if_neg ifWord, if_neg elseWord, if_neg trueWord, if_neg falseWord]
    rw [← kind]
    exact read_of_word isName split place
  | number numeral value =>
    obtain ⟨first, more, rfl, begins⟩ := numeral.begins
    obtain ⟨lexeme, number, takes⟩ := number?_of_numeral numeral value rest
    cases split
    have apart : c ≠ '"' ∧ Lexeme.isNameStart c = false := by
      rcases begins with digit | rfl
      · obtain ⟨quote, noName, _⟩ := apart_of_isDigit digit
        exact ⟨quote, noName⟩
      · decide
    exact ⟨lexeme, read_number apart.1 apart.2 place number, takes⟩
  | string quoted =>
    cases split
    obtain ⟨lexeme, reads, same⟩ := string_found quoted place rest
    refine ⟨lexeme, ?_, .inl same⟩
    rw [Lexeme.read, dif_pos rfl]
    exact reads

theorem Spells.ne_nil {kind : Kind} (spells : Spells text kind) : text ≠ [] := by
  cases spells with
  | symbol among =>
    obtain ⟨c, more, same, _⟩ := symbol_cases among
    rw [same]
    exact List.cons_ne_nil _ _
  | keyword among =>
    simp only [reserved, List.mem_cons, Prod.mk.injEq, List.not_mem_nil, or_false] at among
    rcases among with ⟨rfl, rfl⟩ | ⟨rfl, rfl⟩ | ⟨rfl, rfl⟩ | ⟨rfl, rfl⟩ <;> decide
  | name isName free =>
    rintro rfl
    contradiction
  | number numeral value =>
    obtain ⟨c, more, rfl, _⟩ := numeral.begins
    exact List.cons_ne_nil _ _
  | string quoted => exact List.cons_ne_nil _ _

/-- A text spells one kind of token at most: the scanner, which sees nothing else, takes it. -/
theorem Spells.unique {kind other : Kind} (spells : Spells text kind) (also : Spells text other) :
    kind = other := by
  obtain ⟨c, more, rfl⟩ := List.exists_cons_of_ne_nil spells.ne_nil
  have alone : c :: more ++ [] = c :: more := List.append_nil _
  obtain ⟨lexeme, read, takes⟩ := read_of_spells spells alone .start
  obtain ⟨lexeme', read', takes'⟩ := read_of_spells also alone .start
  cases read.symm.trans read'
  rcases takes with takes | shorter
  · rcases takes' with takes' | shorter
    · exact congrArg Prod.fst (takes.symm.trans takes')
    · exact absurd shorter (Nat.not_lt_zero _)
  · exact absurd shorter (Nat.not_lt_zero _)

/-- No spelled text at the head of a text is longer than what the scanner reads there. -/
theorem longest_of_read {place : Position} {cs : List Char} {lexeme : Lexeme (c :: cs)}
    (read : Lexeme.read place c cs = .ok lexeme) {kind : Kind} (spells : Spells text kind)
    (begins : text <+: c :: cs) : text.length ≤ lexeme.text.length := by
  obtain ⟨rest, split⟩ := begins
  obtain ⟨lexeme', read', takes⟩ := read_of_spells spells split place
  cases read.symm.trans read'
  have lengths := congrArg List.length (lexeme.whole.trans split.symm)
  simp only [List.length_append] at lengths
  have least : lexeme.rest.length ≤ rest.length := by
    rcases takes with same | shorter
    · have rests : lexeme.rest = rest := congrArg Prod.snd same
      exact Nat.le_of_eq (congrArg List.length rests)
    · exact Nat.le_of_lt shorter
  omega

end Read

end Token
end Scriptlet

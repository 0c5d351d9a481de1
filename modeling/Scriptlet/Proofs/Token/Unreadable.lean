import Mathlib.Data.List.Basic
import Scriptlet.Proofs.Token.Layout

/-! Texts without tokens. A text that is cut short behind a lexeme has the lexeme all the same. So
what the scanner has found in front of a bad place it finds there as well where the text ends at
that place, and the error says what is wrong with the text from there on. -/
namespace Scriptlet
namespace Token

section Cut

variable {short long : List Char}

theorem head?_longer (begins : short <+: long) (first : c ∈ short.head?) : c ∈ long.head? := by
  obtain ⟨rest, rfl⟩ := begins
  exact List.mem_head?_append_of_mem_head? first

/-- A gap is one also where the text behind it is cut short. -/
theorem Gap.cut {gap : List Char} (between : Gap long gap) (begins : short <+: long) :
    Gap short gap := by
  induction between with
  | nil => exact .nil
  | blank space _ ih => exact .blank space ih
  | comment inside ended _ ih =>
    exact .comment inside
      (fun c first => ended c (head?_longer ((List.prefix_append_right_inj _).mpr begins) first))
      ih

theorem Solid.cut (solid : Solid c long) (begins : short <+: long) : Solid c short :=
  ⟨solid.1, fun comment => solid.2 ⟨comment.1, head?_longer begins comment.2⟩⟩

theorem prefix_of_rest {cs : List Char} {lexeme : Lexeme cs} (begins : before <+: lexeme.rest) :
    lexeme.text ++ before <+: cs := by
  have part := (List.prefix_append_right_inj lexeme.text).mpr begins
  rwa [lexeme.whole] at part

/-- A lexeme is read again where the text is cut short anywhere behind it: it is the longest there,
since any longer one could have been read in the whole text. -/
theorem read_cut {place : Position} {cs : List Char} {lexeme : Lexeme (c :: cs)}
    (read : Lexeme.read place c cs = .ok lexeme) (begins : before <+: lexeme.rest) :
    ∃ (more : List Char) (short : Lexeme (c :: more)), lexeme.text ++ before = c :: more ∧
      Lexeme.read place c more = .ok short ∧ short.kind = lexeme.kind ∧
      short.text = lexeme.text ∧ short.rest = before := by
  have spells := spells_of_read read
  have within := prefix_of_rest begins
  obtain ⟨d, more, split⟩ := List.exists_cons_of_ne_nil (List.append_ne_nil_of_left_ne_nil
    spells.ne_nil before)
  rw [split] at within
  obtain ⟨rfl, _⟩ := List.cons_prefix_cons.mp within
  obtain ⟨short, again, takes⟩ := read_of_spells spells split place
  have part : short.text <+: d :: more := ⟨short.rest, short.whole⟩
  have least := longest_of_read read (spells_of_read again) (part.trans within)
  have lengths := congrArg List.length (short.whole.trans split.symm)
  simp only [List.length_append] at lengths
  obtain ⟨kind, rest⟩ := Prod.mk.inj (takes.resolve_right (by omega))
  refine ⟨_, short, split, again, kind, ?_, rest⟩
  have texts := short.whole.trans split.symm
  rw [rest] at texts
  exact (List.append_left_inj before).mp texts

/-- Tokens are found again where the text is cut short between lexemes. -/
theorem finds_cut {place : Position} {gap cs : List Char} {lexeme : Lexeme (c :: cs)}
    (between : Gap (c :: cs) gap) (solid : Solid c cs)
    (read : Lexeme.read (place.after gap) c cs = .ok lexeme) (finite : lexeme.kind.Finite)
    (begins : before <+: lexeme.rest)
    (onward : Finds ((place.after gap).after lexeme.text) before tokens) :
    ∃ found, Finds place (gap ++ (lexeme.text ++ before)) found := by
  obtain ⟨more, short, split, again, kind, text, rest⟩ := read_cut read begins
  have part := prefix_of_rest begins
  rw [split] at part ⊢
  refine ⟨located (place.after gap) short :: tokens, .token ?_ again (kind ▸ finite) ?_⟩
  · rw [(between.cut part).skipped]
    exact skipGap_solid _ (solid.cut (List.cons_prefix_cons.mp part).2)
  · rw [text, rest]
    exact onward

end Cut

section Bad

/-- What stands behind an opening quote as long as the literal is well formed and goes on. -/
inductive Unclosed : List Char → Prop where
  | nil : Unclosed []
  | plain (quote : c ≠ '"') (slash : c ≠ '\\') (onward : Unclosed text) : Unclosed (c :: text)
  | escaped (denotes : StringLiteral.unescape? e = some c) (onward : Unclosed text) :
      Unclosed ('\\' :: e :: text)

/-- A text at a place in which the first thing to read is wrong, and the error that says so. -/
inductive Unreadable (place : Position) : List Char → ScanError → Prop where
  /-- The first character begins no gap, no string literal and no other token. -/
  | unexpectedCharacter (solid : Solid c cs) (quote : c ≠ '"')
      (unspelled : ∀ text kind, Spells text kind → ¬ text <+: c :: cs) :
      Unreadable place (c :: cs) (.unexpectedCharacter c place)
  /-- A literal goes on to the end of the text, where a last backslash may escape nothing. -/
  | unterminatedString (body : Unclosed text) (ending : last = [] ∨ last = ['\\']) :
      Unreadable place ('"' :: (text ++ last)) (.unterminatedString place)
  /-- A literal goes on up to a backslash before a character that cannot be escaped. -/
  | invalidEscape (body : Unclosed text) (undefined : StringLiteral.unescape? e = none) :
      Unreadable place ('"' :: (text ++ '\\' :: e :: rest))
        (.invalidEscape e (place.after ('"' :: text)))
  /-- The longest numeral has no finite value. -/
  | numberOutOfRange (numeral : Numeral text)
      (value : Number.ofText? (String.ofList text) = some x) (infinite : x.isFinite = false)
      (longest : ∀ other, Numeral other → other <+: text ++ rest → other.length ≤ text.length) :
      Unreadable place (text ++ rest) (.numberOutOfRange ⟨place, place.after text⟩)

/-- A literal that is not read ends too early or has an escape that is none. -/
theorem unclosed_of_readBody {opened here : Position} {text value cs : List Char}
    (failed : StringLiteral.readBody opened here text value cs = .error e) :
    ∃ body, Unclosed body ∧
      ((∃ last, cs = body ++ last ∧ (last = [] ∨ last = ['\\']) ∧
        e = .unterminatedString opened) ∨
      ∃ escaped rest, cs = body ++ '\\' :: escaped :: rest ∧
        StringLiteral.unescape? escaped = none ∧ e = .invalidEscape escaped (here.after body)) := by
  fun_induction StringLiteral.readBody opened here text value cs with
  | case1 =>
    cases failed
    exact ⟨[], .nil, .inl ⟨[], rfl, .inl rfl, rfl⟩⟩
  | case2 => contradiction
  | case3 =>
    cases failed
    exact ⟨[], .nil, .inl ⟨['\\'], rfl, .inr rfl, rfl⟩⟩
  | case4 here text value escaped rest denoted denotes quote ih =>
    obtain ⟨body, onward, ⟨last, rfl, ending, rfl⟩ | ⟨other, rest, rfl, undefined, rfl⟩⟩ := ih failed
    · exact ⟨_, .escaped denotes onward, .inl ⟨last, rfl, ending, rfl⟩⟩
    · exact ⟨_, .escaped denotes onward, .inr ⟨other, rest, rfl, undefined, rfl⟩⟩
  | case5 here text value escaped rest undefined quote =>
    cases failed
    exact ⟨[], .nil, .inr ⟨escaped, rest, rfl, undefined, rfl⟩⟩
  | case6 here text value c rest quote slash ih =>
    obtain ⟨body, onward, ⟨last, rfl, ending, rfl⟩ | ⟨other, rest, rfl, undefined, rfl⟩⟩ := ih failed
    · exact ⟨_, .plain quote slash onward, .inl ⟨last, rfl, ending, rfl⟩⟩
    · exact ⟨_, .plain quote slash onward, .inr ⟨other, rest, rfl, undefined, rfl⟩⟩

theorem unreadable_string {place : Position} {cs : List Char}
    (failed : Lexeme.string place cs = .error e) : Unreadable place ('"' :: cs) e := by
  unfold Lexeme.string at failed
  split at failed
  · rename_i body
    cases failed
    obtain ⟨body, unclosed, ⟨last, rfl, ending, rfl⟩ | ⟨escaped, rest, rfl, undefined, rfl⟩⟩ :=
      unclosed_of_readBody body
    · exact .unterminatedString unclosed ending
    · exact .invalidEscape unclosed undefined
  · contradiction

theorem unreadable_of_read {place : Position} {cs : List Char} (solid : Solid c cs)
    (failed : Lexeme.read place c cs = .error e) : Unreadable place (c :: cs) e := by
  have unspelled {text : List Char} {kind : Kind} (spells : Spells text kind) :
      ¬ text <+: c :: cs := by
    rintro ⟨rest, split⟩
    obtain ⟨lexeme, read, _⟩ := read_of_spells spells split place
    cases failed.symm.trans read
  unfold Lexeme.read at failed
  split at failed
  · rename_i quote
    subst quote
    exact unreadable_string failed
  rename_i quote
  split at failed
  · contradiction
  split at failed
  · contradiction
  · cases failed
    exact .unexpectedCharacter solid quote fun text kind => unspelled

/-- Every numeral has a value. -/
theorem Numeral.value (numeral : Numeral text) :
    ∃ x, Number.ofText? (String.ofList text) = some x := by
  cases numeral with
  | whole digits nonempty => exact ⟨_, ofText?_whole digits nonempty⟩
  | point digits places nonempty => exact ⟨_, ofText?_point digits places nonempty⟩

/-- Numbers are spelled by numerals. -/
theorem numeral_of_spells (spells : Spells text (.number x)) :
    Numeral text ∧ Number.ofText? (String.ofList text) = some x := by
  generalize same : Kind.number x = kind at spells
  cases spells with
  | symbol among =>
    subst same
    simp [symbols] at among
  | keyword among =>
    subst same
    simp [reserved] at among
  | name isName free => cases same
  | number numeral value =>
    cases same
    exact ⟨numeral, value⟩
  | string quoted => cases same

/-- A lexeme that the scanner refuses is a number without a finite value. -/
theorem unreadable_of_infinite {place : Position} {cs : List Char} {lexeme : Lexeme (c :: cs)}
    (read : Lexeme.read place c cs = .ok lexeme) (infinite : ¬ lexeme.kind.Finite) :
    Unreadable place (c :: cs) (.numberOutOfRange ⟨place, place.after lexeme.text⟩) := by
  have spells := spells_of_read read
  cases same : lexeme.kind with
  | number x =>
    rw [same] at infinite spells
    obtain ⟨numeral, value⟩ := numeral_of_spells spells
    have longest (other : List Char) (also : Numeral other)
        (begins : other <+: lexeme.text ++ lexeme.rest) : other.length ≤ lexeme.text.length := by
      obtain ⟨y, value⟩ := also.value
      rw [lexeme.whole] at begins
      exact longest_of_read read (.number also value) begins
    have unreadable : Unreadable place (lexeme.text ++ lexeme.rest)
        (.numberOutOfRange ⟨place, place.after lexeme.text⟩) :=
      .numberOutOfRange numeral value (Bool.eq_false_iff.mpr infinite) longest
    rwa [lexeme.whole] at unreadable
  | _ =>
    rw [same] at infinite
    exact absurd trivial infinite

end Bad

/-- The scanner stops in a text that stands at a place. -/
inductive Fails : Position → List Char → ScanError → Prop where
  | unread : skipGap place cs = (here, c :: rest) → Lexeme.read here c rest = .error e →
      Fails place cs e
  | infinite {lexeme : Lexeme (c :: rest)} : skipGap place cs = (here, c :: rest) →
      Lexeme.read here c rest = .ok lexeme → ¬ lexeme.kind.Finite →
      Fails place cs (.numberOutOfRange ⟨here, here.after lexeme.text⟩)
  | token {lexeme : Lexeme (c :: rest)} : skipGap place cs = (here, c :: rest) →
      Lexeme.read here c rest = .ok lexeme → lexeme.kind.Finite →
      Fails (here.after lexeme.text) lexeme.rest e → Fails place cs e

theorem ofLexeme_error {cs : List Char} {place : Position} {lexeme : Lexeme cs}
    (refused : ofLexeme place lexeme = .error e) :
    e = .numberOutOfRange ⟨place, place.after lexeme.text⟩ ∧ ¬ lexeme.kind.Finite := by
  have infinite : ¬ lexeme.kind.Finite := fun finite => by
    rw [ofLexeme_eq place lexeme finite] at refused
    contradiction
  unfold ofLexeme at refused
  dsimp only at refused
  split at refused
  · split at refused
    · contradiction
    · cases refused
      exact ⟨rfl, infinite⟩
  · contradiction

theorem scanFrom_fails {place : Position} {before : List Token} {cs : List Char}
    (failed : scanFrom place before cs = .error e) : Fails place cs e := by
  fun_induction scanFrom place before cs with
  | case1 => contradiction
  | case2 place before cs here c rest gap skipped ih =>
    cases read : Lexeme.read here c rest with
    | error other =>
      rw [read] at failed
      cases failed
      exact .unread gap read
    | ok lexeme =>
      rw [read] at failed
      change (ofLexeme here lexeme >>= _) = _ at failed
      cases made : ofLexeme here lexeme with
      | error other =>
        rw [made] at failed
        cases failed
        obtain ⟨rfl, infinite⟩ := ofLexeme_error made
        exact .infinite gap read infinite
      | ok token =>
        rw [made] at failed
        obtain ⟨rfl, finite⟩ := ofLexeme_ok made
        exact .token gap read finite (ih lexeme _ failed)

/-- Where the scanner stops, the text before has tokens and the text behind is unreadable. -/
theorem Fails.split {place : Position} {cs : List Char} (fails : Fails place cs e) :
    ∃ before bad tokens, cs = before ++ bad ∧ Finds place before tokens ∧
      Unreadable (place.after before) bad e := by
  have nothing {place : Position} {gap rest : List Char} (between : Gap rest gap) :
      Finds place gap [.ending (place.after gap)] := by
    have skips := (between.cut List.nil_prefix).skipped place
    rw [List.append_nil, skipGap] at skips
    exact .ending skips
  induction fails with
  | unread skips failed =>
    obtain ⟨gap, rfl, between, rfl⟩ := skipGap_gap skips
    exact ⟨gap, _, _, rfl, nothing between, unreadable_of_read (skipGap_stops skips) failed⟩
  | infinite skips read infinite =>
    obtain ⟨gap, rfl, between, rfl⟩ := skipGap_gap skips
    exact ⟨gap, _, _, rfl, nothing between, unreadable_of_infinite read infinite⟩
  | @token c rest place cs here e lexeme skips read finite onward ih =>
    obtain ⟨gap, rfl, between, rfl⟩ := skipGap_gap skips
    obtain ⟨before, bad, tokens, split, finds, unreadable⟩ := ih
    obtain ⟨found, finds⟩ := finds_cut between (skipGap_stops skips) read finite
      ⟨bad, split.symm⟩ finds
    refine ⟨gap ++ (lexeme.text ++ before), bad, found, ?_, finds, ?_⟩
    · rw [List.append_assoc, List.append_assoc, ← split, lexeme.whole]
    · rw [Position.after_append, Position.after_append]
      exact unreadable

/-- A scanner error names the first bad place of a source text: the text before it has tokens when
it stands alone, and at its end something begins that is no token, as the error says. -/
theorem scan_error_first_bad_place (failed : scan source = .error e) :
    ∃ before bad, source.toList = before ++ bad ∧
      (∃ tokens, scan (String.ofList before) = .ok tokens) ∧
      Unreadable (.past before) bad e := by
  obtain ⟨before, bad, tokens, split, finds, unreadable⟩ := (scanFrom_fails failed).split
  refine ⟨before, bad, split, ⟨tokens, ?_⟩, Position.start_after before ▸ unreadable⟩
  rw [scan, String.toList_ofList, scanFrom_of_finds finds]
  rfl

/-- A comment with a quote in it, and a literal of two lines with an escape that is none. -/
def misspelledEscape : String := "a // \"\n= \"b\n\\qc\";"

theorem misspelledEscape_fails :
    scan misspelledEscape = .error (.invalidEscape 'q' ⟨3, 1⟩) ∧
    ∃ before bad, misspelledEscape.toList = before ++ bad ∧
      (∃ tokens, scan (String.ofList before) = .ok tokens) ∧
      Unreadable (.past before) bad (.invalidEscape 'q' ⟨3, 1⟩) := by
  have failed : scan misspelledEscape = .error (.invalidEscape 'q' ⟨3, 1⟩) := by
    -- One round for each token, with the scanner known by its equation only.
    unfold scan
    have step := scanFrom_eq
    generalize scanFrom = scanner at step ⊢
    iterate 3
      rw [step]
      cbv
  exact ⟨failed, scan_error_first_bad_place failed⟩

end Token
end Scriptlet

import Scriptlet.Token.Scan

/-! Compositional scanning. A stretch of text is scanned with the text after it present, so that a
word or a number is never cut short where two stretches are put together. -/
namespace Scriptlet
namespace Token

/-- No gap begins here. -/
def Solid (c : Char) (cs : List Char) : Prop :=
  Text.isBlank c = false ∧ ¬ (c = '/' ∧ cs.head? = some '/')

theorem skipGap_solid (place : Position) (solid : Solid c cs) :
    skipGap place (c :: cs) = (place, c :: cs) := by
  rw [skipGap, if_neg solid.2, if_neg (by rw [solid.1]; exact Bool.false_ne_true)]

theorem skipGap_blank (place : Position) (blank : Text.isBlank c = true) :
    skipGap place (c :: cs) = skipGap (place.step c) cs := by
  have apart : ¬ (c = '/' ∧ cs.head? = some '/') := by
    rintro ⟨rfl, _⟩
    contradiction
  rw [skipGap, if_neg apart, if_pos blank]

/-- The scanner past the gap at the head of the text. -/
theorem scanFrom_eq (place : Position) (found : List Token) (cs : List Char) :
    scanFrom place found cs = (match skipGap place cs with
      | (here, []) => .ok (ending here :: found).reverse
      | (here, c :: rest) => do
        let lexeme ← Lexeme.read here c rest
        let token ← ofLexeme here lexeme
        scanFrom token.span.last (token :: found) lexeme.rest) := by
  rw [scanFrom]
  split <;> rename_i gap <;> simp only [gap]

theorem scanFrom_nil (place : Position) (found : List Token) :
    scanFrom place found [] = .ok (found.reverse ++ [ending place]) := by
  rw [scanFrom_eq, skipGap]
  simp

/-- Whether the scanner takes a lexeme of this kind; a number has to be finite. -/
def Kind.Finite : Kind → Prop
  | number value => value.isFinite = true
  | _ => True

/-- The token that a lexeme at a place is. -/
def located {cs : List Char} (place : Position) (lexeme : Lexeme cs) : Token :=
  ⟨lexeme.kind, String.ofList lexeme.text, ⟨place, place.after lexeme.text⟩⟩

theorem ofLexeme_eq {cs : List Char} (place : Position) (lexeme : Lexeme cs)
    (finite : lexeme.kind.Finite) : ofLexeme place lexeme = .ok (located place lexeme) := by
  rw [ofLexeme]
  split
  · rename_i value same
    rw [same] at finite
    exact if_pos finite
  · rfl

theorem ofLexeme_ok {cs : List Char} {place : Position} {lexeme : Lexeme cs} {token : Token}
    (made : ofLexeme place lexeme = .ok token) :
    token = located place lexeme ∧ lexeme.kind.Finite := by
  have finite : lexeme.kind.Finite := by
    unfold ofLexeme at made
    dsimp only at made
    split at made
    · rename_i value same
      split at made
      · rename_i finite
        rw [same]
        exact finite
      · contradiction
    · rename_i other
      cases same : lexeme.kind with
      | number value => exact absurd same (other value)
      | _ => trivial
  rw [ofLexeme_eq place lexeme finite] at made
  exact ⟨(Except.ok.inj made).symm, finite⟩

/-- The scanner finds these tokens in a text that stands at a place. -/
inductive Finds : Position → List Char → List Token → Prop where
  | ending : skipGap place cs = (here, []) → Finds place cs [.ending here]
  | token {lexeme : Lexeme (c :: rest)} : skipGap place cs = (here, c :: rest) →
      Lexeme.read here c rest = .ok lexeme → lexeme.kind.Finite →
      Finds (here.after lexeme.text) lexeme.rest tokens →
      Finds place cs (located here lexeme :: tokens)

theorem scanFrom_finds {place : Position} {before tokens : List Token} {cs : List Char}
    (scans : scanFrom place before cs = .ok tokens) :
    ∃ more, tokens = before.reverse ++ more ∧ Finds place cs more := by
  fun_induction scanFrom place before cs with
  | case1 place before cs here gap =>
    cases scans
    exact ⟨[.ending here], List.reverse_cons, .ending gap⟩
  | case2 place before cs here c rest gap skipped ih =>
    cases read : Lexeme.read here c rest with
    | error e => rw [read] at scans; contradiction
    | ok lexeme =>
      rw [read] at scans
      change (ofLexeme here lexeme >>= _) = _ at scans
      cases made : ofLexeme here lexeme with
      | error e => rw [made] at scans; contradiction
      | ok token =>
        rw [made] at scans
        obtain ⟨rfl, finite⟩ := ofLexeme_ok made
        obtain ⟨more, rfl, finds⟩ := ih lexeme _ scans
        exact ⟨located here lexeme :: more, by simp, .token gap read finite finds⟩

/-- What can be found in a text is what the scanner returns. -/
theorem scanFrom_of_finds {place : Position} {cs : List Char} {tokens : List Token}
    (finds : Finds place cs tokens) (before : List Token) :
    scanFrom place before cs = .ok (before.reverse ++ tokens) := by
  induction finds generalizing before with
  | ending gap =>
    rw [scanFrom_eq, gap]
    simp
  | @token c rest place cs here tokens lexeme gap read finite onward ih =>
    rw [scanFrom_eq, gap]
    dsimp only
    rw [read]
    change (ofLexeme here lexeme >>= _) = _
    rw [ofLexeme_eq here lexeme finite]
    change scanFrom (here.after lexeme.text) _ _ = _
    rw [ih, List.reverse_cons, List.append_assoc]
    rfl

/-- A scan that succeeds finds the tokens of the whole text. -/
theorem scan_finds (scans : scan source = .ok tokens) : Finds .start source.toList tokens := by
  obtain ⟨more, rfl, finds⟩ := scanFrom_finds scans
  exact finds

/-- A text that begins with a lexeme of this kind, wherever it stands, and goes on with `rest`. -/
def Opens (kind : Kind) (rest cs : List Char) : Prop :=
  ∃ c more, cs = c :: more ∧ Solid c more ∧ kind.Finite ∧
    ∀ place, ∃ lexeme, Lexeme.read place c more = .ok lexeme ∧ lexeme.kind = kind ∧
      lexeme.rest = rest

/-- The scanner goes through a text up to `rest` and finds tokens of these kinds, wherever the text
stands. -/
def Passes (cs : List Char) (kinds : List Kind) (rest : List Char) : Prop :=
  ∀ (place : Position) (before : List Token), ∃ (here : Position) (tokens : List Token),
    tokens.map Token.kind = kinds ∧
      scanFrom place before cs = scanFrom here (tokens.reverse ++ before) rest

namespace Passes

variable {cs middle rest : List Char} {kinds moreKinds : List Kind}

theorem refl (cs : List Char) : Passes cs [] cs := fun place _ => ⟨place, [], rfl, rfl⟩

theorem append (first : Passes cs kinds middle) (last : Passes middle moreKinds rest) :
    Passes cs (kinds ++ moreKinds) rest := by
  intro place before
  obtain ⟨between, found, rfl, scans⟩ := first place before
  obtain ⟨here, tokens, rfl, onward⟩ := last between (found.reverse ++ before)
  refine ⟨here, found ++ tokens, List.map_append, ?_⟩
  rw [scans, onward, List.reverse_append, List.append_assoc]

/-- A gap in front does not matter. -/
theorem gap (skips : ∀ place, ∃ here, skipGap place cs = skipGap here middle)
    (onward : Passes middle kinds rest) : Passes cs kinds rest := by
  intro place before
  obtain ⟨here, same⟩ := skips place
  obtain ⟨last, tokens, kinds, scans⟩ := onward here before
  refine ⟨last, tokens, kinds, ?_⟩
  rw [← scans, scanFrom_eq, scanFrom_eq here, same]

theorem blank (space : Text.isBlank c = true) (onward : Passes cs kinds rest) :
    Passes (c :: cs) kinds rest :=
  onward.gap fun place => ⟨place.step c, skipGap_blank place space⟩

theorem lexeme {kind : Kind} (opens : Opens kind middle cs) (onward : Passes middle kinds rest) :
    Passes cs (kind :: kinds) rest := by
  intro place before
  obtain ⟨c, more, rfl, solid, finite, reads⟩ := opens
  obtain ⟨lexeme, read, rfl, rfl⟩ := reads place
  obtain ⟨here, tokens, rfl, scans⟩ := onward (place.after lexeme.text)
    (located place lexeme :: before)
  refine ⟨here, located place lexeme :: tokens, rfl, ?_⟩
  rw [scanFrom_eq, skipGap_solid place solid]
  change (Lexeme.read place c more >>= _) = _
  rw [read]
  change (ofLexeme place lexeme >>= _) = _
  rw [ofLexeme_eq place lexeme finite, List.reverse_cons, List.append_assoc]
  exact scans

/-- A text that is passed as a whole has these tokens and the end mark. -/
theorem scan_eq (passes : Passes source.toList kinds []) : ∃ tokens place,
    scan source = .ok (tokens ++ [ending place]) ∧ tokens.map Token.kind = kinds := by
  obtain ⟨place, tokens, same, scans⟩ := passes .start []
  refine ⟨tokens, place, ?_, same⟩
  rw [scan, scans, scanFrom_nil, List.append_nil, List.reverse_reverse]

end Passes

/-- The kinds of the tokens in the stretch of text from `cs` to `rest`. -/
inductive Scanned : List Char → List Kind → List Char → Prop where
  | done : Scanned rest [] rest
  | blank : Text.isBlank c = true → Scanned cs kinds rest → Scanned (c :: cs) kinds rest
  | lexeme {kind : Kind} :
      Opens kind after cs → Scanned after kinds rest → Scanned cs (kind :: kinds) rest

namespace Scanned

variable {cs middle rest : List Char} {kinds moreKinds : List Kind}

theorem append (first : Scanned cs kinds middle) (last : Scanned middle moreKinds rest) :
    Scanned cs (kinds ++ moreKinds) rest := by
  induction first with
  | done => exact last
  | blank space _ ih => exact .blank space (ih last)
  | lexeme opens _ ih => exact .lexeme opens (ih last)

theorem passes (scanned : Scanned cs kinds rest) : Passes cs kinds rest := by
  induction scanned with
  | done => exact .refl _
  | blank space _ ih => exact ih.blank space
  | lexeme opens _ ih => exact .lexeme opens ih

end Scanned

end Token
end Scriptlet

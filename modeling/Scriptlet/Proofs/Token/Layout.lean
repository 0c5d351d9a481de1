import Scriptlet.Proofs.Token.Placed
import Scriptlet.Proofs.Token.Spelling

/-! Lexemes in another layout. White space after a lexeme ends it: no spelled text goes on with
white space but a string literal, which has an end of its own. So the lexemes of a text, laid out
with any spacing between them, are found again. -/
namespace Scriptlet
namespace Token

section Spacing

/-- White space and comments, each with the line break that ends it. -/
inductive Spacing : List Char → Prop where
  | nil : Spacing []
  | blank (space : Text.isBlank c = true) (onward : Spacing gap) : Spacing (c :: gap)
  | comment (text : List Char) (inside : '\n' ∉ text) (onward : Spacing gap) :
      Spacing ('/' :: '/' :: (text ++ '\n' :: gap))

/-- Spacing is a gap in front of any text. -/
theorem Spacing.gap {text : List Char} (spacing : Spacing text) (rest : List Char) :
    Gap rest text := by
  induction spacing with
  | nil => exact .nil
  | blank space _ ih => exact .blank space ih
  | comment text inside _ ih => exact .comment inside (lineEnd_newline _) (.blank (by decide) ih)

/-- A gap is skipped. -/
theorem Gap.skipped {rest gap : List Char} (between : Gap rest gap) (place : Position) :
    skipGap place (gap ++ rest) = skipGap (place.after gap) rest := by
  induction between generalizing place with
  | nil => rfl
  | blank space _ ih => rw [List.cons_append, skipGap_blank place space, ih, Position.after_cons]
  | @comment text gap inside ended _ ih =>
    have line : ∀ c ∈ '/' :: '/' :: text, decide (c ≠ '\n') = true := by
      intro c among
      rw [decide_eq_true_eq]
      rintro rfl
      exact inside (by simpa using among)
    have stops : Stops (fun c => decide (c ≠ '\n')) (gap ++ rest) := ended.stops rfl
    have skips := takeWhile_stops line stops
    have leaves := dropWhile_stops (fun c among => line c (.tail _ among)) stops
    simp only [List.cons_append, List.append_assoc] at skips leaves ⊢
    rw [skipGap, if_pos ⟨rfl, rfl⟩, skips, leaves, ih, ← Position.after_append]
    rfl

end Spacing

section Dense

/-- A text without white space that begins no string literal and no comment. -/
def Dense (text : List Char) : Prop :=
  text.head? ≠ some '"' ∧ text.take 2 ≠ ['/', '/'] ∧ ∀ c ∈ text, Text.isBlank c = false

theorem dense_of_parts {text : List Char}
    (parts : ∀ c ∈ text, c = '.' ∨ Lexeme.isNamePart c = true) : Dense text := by
  have other : ∀ c ∈ text, c ≠ '"' ∧ c ≠ '/' := by
    intro c among
    constructor <;> rintro rfl <;> rcases parts _ among with same | part <;> contradiction
  refine ⟨fun first => ?_, fun comment => ?_, fun c among => ?_⟩
  · exact (other _ (List.mem_of_head? first)).1 rfl
  · have among : '/' ∈ text.take 2 := by rw [comment]; exact List.mem_cons_self ..
    exact (other _ (List.mem_of_mem_take among)).2 rfl
  · rcases parts c among with rfl | part
    · decide
    · exact (solid_of_isNamePart part []).1

theorem Numeral.dense (numeral : Numeral text) : Dense text := by
  have part {c : Char} (digit : c.isDigit = true) : c = '.' ∨ Lexeme.isNamePart c = true :=
    .inr (apart_of_isDigit digit).2.2
  cases numeral with
  | whole digits nonempty => exact dense_of_parts fun c among => part (digits c among)
  | point digits places nonempty =>
    apply dense_of_parts
    intro c among
    rcases List.mem_append.mp among with among | among
    · exact part (digits c among)
    · rcases List.mem_cons.mp among with rfl | among
      · exact .inl rfl
      · exact part (places c among)

theorem dense_of_isName (isName : Definition.isName text = true) : Dense text := by
  cases text with
  | nil => contradiction
  | cons c more =>
    rw [Definition.isName, Bool.and_eq_true, List.all_eq_true] at isName
    obtain ⟨start, parts⟩ := isName
    apply dense_of_parts
    intro d among
    rcases List.mem_cons.mp among with rfl | among
    · exact .inr (isNamePart_of_isNameStart start)
    · exact .inr (parts d among)

theorem dense_of_symbol {text : String} {kind : Kind} (among : (text, kind) ∈ symbols) :
    Dense text.toList := by
  have apart : ∀ symbol ∈ symbols, symbol.1.toList.head? ≠ some '"' ∧
      symbol.1.toList.take 2 ≠ ['/', '/'] := by decide
  have dense : ∀ symbol ∈ symbols, symbol.1.toList.all fun c => !Text.isBlank c := by decide
  obtain ⟨noQuote, noComment⟩ := apart _ among
  exact ⟨noQuote, noComment, by simpa using dense _ among⟩

/-- Only string literals hold white space, and no spelled text begins a comment. -/
theorem Spells.dense_or_quoted {kind : Kind} (spells : Spells text kind) :
    Dense text ∨ ∃ body value, text = '"' :: body ∧ Quoted body value ∧
      kind = .string (String.ofList value) := by
  cases spells with
  | symbol among => exact .inl (dense_of_symbol among)
  | keyword among =>
    have names : ∀ word ∈ reserved, Definition.isName word.1.toList = true := by decide
    exact .inl (dense_of_isName (names _ among))
  | name isName free => exact .inl (dense_of_isName isName)
  | number numeral value => exact .inl numeral.dense
  | string quoted => exact .inr ⟨_, _, rfl, quoted, rfl⟩

end Dense

section Taken

variable {text rest : List Char} {kind : Kind}

/-- Nothing follows, or white space and more. -/
def Parted (rest : List Char) : Prop := ∀ c ∈ rest.head?, Text.isBlank c = true

theorem Spells.solid (spells : Spells (c :: more) kind) (parted : Parted rest) :
    Solid c (more ++ rest) := by
  rcases spells.dense_or_quoted with ⟨_, noComment, dense⟩ | ⟨body, value, same, _⟩
  · refine ⟨dense c (List.mem_cons_self ..), ?_⟩
    rintro ⟨rfl, next⟩
    cases more with
    | nil => exact absurd (parted '/' next) (by decide)
    | cons d more =>
      cases next
      exact noComment rfl
  · cases same
    exact ⟨by decide, fun slash => by simp at slash⟩

/-- The scanner takes a spelled text, and not more of it, where white space follows. -/
theorem Spells.taken (spells : Spells text kind) (parted : Parted rest)
    (split : text ++ rest = c :: cs) (place : Position) :
    ∃ lexeme, Lexeme.read place c cs = .ok lexeme ∧ found lexeme = (kind, rest) := by
  rcases spells.dense_or_quoted with dense | ⟨body, value, rfl, quoted, rfl⟩
  · obtain ⟨lexeme, read, takes⟩ := read_of_spells spells split place
    refine ⟨lexeme, read, takes.resolve_right fun shorter => ?_⟩
    -- A longer lexeme would go on with white space, so it would be a string literal; but it
    -- begins as the spelled text does.
    rcases List.append_eq_append_iff.mp (split.trans lexeme.whole.symm) with
      ⟨more, longer, rfl⟩ | ⟨more, rfl, short⟩
    · cases more with
      | nil => exact absurd shorter (Nat.lt_irrefl _)
      | cons d more =>
        have blank := parted d rfl
        rcases (spells_of_read read).dense_or_quoted with inner | ⟨body, value, quote, _⟩
        · have solid := inner.2.2 d (by simp [longer])
          rw [blank] at solid
          contradiction
        · obtain ⟨e, front, rfl⟩ := List.exists_cons_of_ne_nil spells.ne_nil
          rw [longer] at quote
          cases quote
          exact dense.1 rfl
    · rw [short, List.length_append] at shorter
      omega
  · cases split
    obtain ⟨lexeme, reads, same⟩ := string_found quoted place rest
    exact ⟨lexeme, (dif_pos rfl).trans reads, same⟩

/-- Behind spacing, too. -/
theorem Spells.reached (spells : Spells text kind) (parted : Parted rest) (spacing : Spacing gap)
    (place : Position) : ∃ (c : Char) (cs : List Char) (lexeme : Lexeme (c :: cs)),
      skipGap place (gap ++ (text ++ rest)) = (place.after gap, c :: cs) ∧
      Lexeme.read (place.after gap) c cs = .ok lexeme ∧
      lexeme.kind = kind ∧ lexeme.text = text ∧ lexeme.rest = rest := by
  obtain ⟨c, more, rfl⟩ := List.exists_cons_of_ne_nil spells.ne_nil
  obtain ⟨lexeme, read, takes⟩ := spells.taken parted rfl (place.after gap)
  obtain ⟨kind, leaves⟩ := Prod.mk.inj takes
  refine ⟨c, more ++ rest, lexeme, ?_, read, kind, ?_, leaves⟩
  · rw [(spacing.gap _).skipped]
    exact skipGap_solid _ (spells.solid parted)
  · have whole := lexeme.whole
    rw [leaves] at whole
    exact (List.append_left_inj rest).mp whole

end Taken

/-- What the scanner has found is spelled, up to the end mark. -/
theorem Finds.spelled {place : Position} {cs : List Char} {tokens : List Token}
    (finds : Finds place cs tokens) : ∃ found last, tokens = found ++ [.ending last] ∧
      ∀ token ∈ found, token.kind ≠ .endOfInput ∧ token.kind.Finite ∧
        Spells token.lexeme.toList token.kind := by
  induction finds with
  | ending skips => exact ⟨[], _, rfl, by simp⟩
  | @token c rest place cs here tokens lexeme skips read finite onward ih =>
    obtain ⟨found, last, rfl, each⟩ := ih
    refine ⟨located here lexeme :: found, last, rfl, List.forall_mem_cons.mpr ⟨?_, each⟩⟩
    have spelled := spells_of_read read
    rw [← String.toList_ofList (l := lexeme.text)] at spelled
    exact ⟨kind_ne_end read, finite, spelled⟩

section Layout

/-- The lexemes of the tokens in front of the end mark. -/
def lexemes (tokens : List Token) : List String :=
  (tokens.filter fun token => token.kind ≠ .endOfInput).map Token.lexeme

/-- Lexemes, each with a gap behind it. -/
def laid (parts : List (String × List Char)) : List Char :=
  parts.flatMap fun part => part.1.toList ++ part.2

/-- Spacing that ends a lexeme in front of it: it begins with white space. -/
structure Parting (gap : List Char) : Prop where
  spacing : Spacing gap
  blank : gap.head?.any Text.isBlank = true

theorem Parting.parted {gap : List Char} (parting : Parting gap) (rest : List Char) :
    Parted (gap ++ rest) := by
  have blank := parting.blank
  cases gap with
  | nil => contradiction
  | cons c gap =>
    intro d first
    cases first
    exact blank

/-- Lexemes laid out, with spacing in front of all of them and behind each. -/
structure Layout where
  first : List Char
  parts : List (String × List Char)
  spacing : Spacing first
  parting : ∀ part ∈ parts, Parting part.2

namespace Layout

def text (layout : Layout) : String := String.ofList (layout.first ++ laid layout.parts)

def lexemes (layout : Layout) : List String := layout.parts.map Prod.fst

end Layout

/-- Tokens are found again where their lexemes are laid out. -/
theorem finds_laid {first : List Char} {parts : List (String × List Char)} {tokens : List Token}
    (each : ∀ token ∈ tokens, token.kind.Finite ∧ Spells token.lexeme.toList token.kind)
    (same : parts.map Prod.fst = tokens.map Token.lexeme) (spacing : Spacing first)
    (parting : ∀ part ∈ parts, Parting part.2) (place : Position) :
    ∃ again last, Finds place (first ++ laid parts) (again ++ [.ending last]) ∧
      again.map Token.kind = tokens.map Token.kind ∧
      again.map Token.lexeme = tokens.map Token.lexeme := by
  induction tokens generalizing first parts place with
  | nil =>
    obtain rfl := List.map_eq_nil_iff.mp same
    have skips := (spacing.gap []).skipped place
    rw [skipGap] at skips
    exact ⟨[], _, .ending skips, rfl, rfl⟩
  | cons token tokens ih =>
    cases parts with
    | nil => contradiction
    | cons part parts =>
      obtain ⟨lexeme, gap⟩ := part
      obtain ⟨rfl, others⟩ := List.cons_eq_cons.mp same
      obtain ⟨⟨finite, spells⟩, each⟩ := List.forall_mem_cons.mp each
      obtain ⟨onward, parting⟩ := List.forall_mem_cons.mp parting
      have text : laid ((token.lexeme, gap) :: parts) =
          token.lexeme.toList ++ (gap ++ laid parts) := List.append_assoc ..
      obtain ⟨c, cs, lexeme, skips, read, kind, whole, leaves⟩ :=
        spells.reached (onward.parted (laid parts)) spacing place
      obtain ⟨again, last, finds, kinds, lexemes⟩ :=
        ih each others onward.spacing parting ((place.after first).after lexeme.text)
      refine ⟨located (place.after first) lexeme :: again, last, ?_, ?_, ?_⟩
      · rw [text]
        exact .token skips read (kind ▸ finite) (leaves.symm ▸ finds)
      · exact List.cons_eq_cons.mpr ⟨kind, kinds⟩
      · refine List.cons_eq_cons.mpr ⟨?_, lexemes⟩
        change String.ofList lexeme.text = token.lexeme
        rw [whole, String.ofList_toList]

/-- The lexemes of a source text are found again in any layout, as what they were. -/
theorem scan_layout (scans : scan source = .ok tokens) (layout : Layout)
    (same : layout.lexemes = lexemes tokens) : ∃ again, scan layout.text = .ok again ∧
      again.map Token.kind = tokens.map Token.kind ∧
      again.map Token.lexeme = tokens.map Token.lexeme := by
  obtain ⟨found, last, rfl, each⟩ := (scan_finds scans).spelled
  have inner : found.filter (fun token => token.kind ≠ .endOfInput) = found :=
    List.filter_eq_self.mpr fun token among => decide_eq_true (each token among).1
  have front : lexemes (found ++ [.ending last]) = found.map Token.lexeme := by
    rw [lexemes, List.filter_append, inner]
    exact congrArg _ (List.append_nil _)
  obtain ⟨again, ending, finds, kinds, texts⟩ :=
    finds_laid (fun token among => (each token among).2) (same.trans front) layout.spacing
      layout.parting .start
  refine ⟨again ++ [.ending ending], ?_, ?_, ?_⟩
  · rw [scan, Layout.text, String.toList_ofList, scanFrom_of_finds finds]
    rfl
  · rw [List.map_append, List.map_append, kinds]
    rfl
  · rw [List.map_append, List.map_append, texts]
    rfl

end Layout

end Token
end Scriptlet

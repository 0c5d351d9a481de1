import Mathlib.Data.List.TakeWhile
import Mathlib.Tactic.Tauto
import Scriptlet.CommandLine.Command
import Scriptlet.Proofs.Evaluation.Footprint
import Scriptlet.Proofs.Evaluation.Agreement
import Scriptlet.Proofs.Program.RoundTrip

/-! Globals from the command line. A definition is accepted for every word, and programs can mention
every word but the keywords. So a global is within their reach unless it is called like a
keyword. -/
namespace Scriptlet

open Token (keywords)

namespace Definition

/-- The text in front of the first equals sign. -/
def nameText (text : String) : String := String.ofList (text.toList.takeWhile (· ≠ '='))

/-- A definition is accepted if a word stands in front of its first equals sign, and it is for that
word. -/
theorem read?_eq_some_iff {text name : String} : (∃ value, read? text = some ⟨name, value⟩) ↔
    '=' ∈ text.toList ∧ nameText text = name ∧ isName name.toList = true := by
  have reaches : text.toList.dropWhile (· ≠ '=') = [] ↔ '=' ∉ text.toList := by
    rw [List.dropWhile_eq_nil_iff]
    simp only [decide_eq_true_eq]
    constructor
    · exact fun others among => others _ among rfl
    · rintro absent c among rfl
      exact absent among
  rw [nameText, read?]
  split
  · next nothing => simp [reaches.mp nothing]
  · next value after =>
    have present : '=' ∈ text.toList := by
      by_contra absent
      rw [reaches.mpr absent] at after
      contradiction
    split
    · next word =>
      constructor
      · rintro ⟨_, same⟩
        cases same
        exact ⟨present, rfl, by rwa [String.toList_ofList]⟩
      · rintro ⟨_, rfl, _⟩
        exact ⟨_, rfl⟩
    · next noWord =>
      constructor
      · rintro ⟨_, same⟩
        contradiction
      · rintro ⟨_, rfl, word⟩
        rw [String.toList_ofList] at word
        contradiction

end Definition

namespace Token

/-- The scanner takes the text for one identifier with this very name, and finds nothing else. -/
def IsIdentifier (text : String) : Prop :=
  ∃ token last, scan text = .ok [token, last] ∧ token.kind = .identifier text ∧
    last.kind = .endOfInput

/-- A text is an identifier if it is a word and no keyword. -/
theorem isIdentifier_iff {text : String} :
    IsIdentifier text ↔ Definition.isName text.toList = true ∧ text ∉ keywords := by
  constructor
  · rintro ⟨token, last, scans, kind, _⟩
    have proper := (scan_proper scans token (List.mem_cons_self ..)).1
    rw [kind] at proper
    exact proper
  · rintro ⟨isName, free⟩
    -- nothing follows that could make the word longer
    have nothing : Separate [] := fun _ first => by contradiction
    have scanned := (Expr.identifier text).scanned_render ⟨isName, free⟩ nothing
    rw [List.append_nil] at scanned
    obtain ⟨tokens, place, scans, kinds⟩ := scanned.passes.scan_eq
    obtain ⟨token, rfl, kind⟩ := List.map_eq_singleton_iff.mp kinds
    exact ⟨token, .ending place, scans, kind, rfl⟩

/-- The keywords are words as well. -/
theorem isName_iff {text : String} :
    Definition.isName text.toList = true ↔ IsIdentifier text ∨ text ∈ keywords := by
  rw [isIdentifier_iff]
  by_cases keyword : text ∈ keywords
  · have words : ∀ word ∈ keywords, Definition.isName word.toList = true := by decide
    simp [keyword, words text keyword]
  · simp [keyword]

end Token

section Mentioned

theorem Expr.WellFormed.nodes {e : Expr} (formed : e.WellFormed) :
    ∀ node ∈ e.nodes, node.WellFormed := by
  induction e with
  | binary op left right first second =>
    refine List.forall_mem_cons.mpr ⟨formed, ?_⟩
    exact List.forall_mem_append.mpr ⟨first formed.1, second formed.2.1⟩
  | number value => exact List.forall_mem_singleton.mpr formed
  | string value => exact List.forall_mem_singleton.mpr formed
  | boolean value => exact List.forall_mem_singleton.mpr formed
  | identifier name => exact List.forall_mem_singleton.mpr formed

namespace Stmt

mutual

theorem WellFormed.nodes : {s : Stmt} → s.WellFormed → ∀ node ∈ s.nodes, node.WellFormed
  | .ifThen .., ⟨test, taken⟩ =>
    List.forall_mem_append.mpr ⟨Expr.WellFormed.nodes test, WellFormed.nodes taken⟩
  | .ifThenElse .., ⟨test, taken, other, _⟩ =>
    List.forall_mem_append.mpr ⟨Expr.WellFormed.nodes test,
      List.forall_mem_append.mpr ⟨WellFormed.nodes taken, WellFormed.nodes other⟩⟩
  | .expression _, value => Expr.WellFormed.nodes value
  | .block _, body => AllWellFormed.nodes body

theorem AllWellFormed.nodes :
    {body : List Stmt} → AllWellFormed body → ∀ node ∈ allNodes body, node.WellFormed
  | [], _ => List.forall_mem_nil _
  | _ :: _, ⟨first, rest⟩ =>
    List.forall_mem_append.mpr ⟨WellFormed.nodes first, AllWellFormed.nodes rest⟩

end

end Stmt

/-- Some program mentions the name. -/
def Mentionable (name : String) : Prop :=
  ∃ limit source root, parseSource limit source = .ok root ∧ name ∈ Expr.names root.nodes

/-- The program that consists of a name is read as such. -/
theorem parseSource_name {name : String} (identifier : Token.IsIdentifier name) (room : 1 ≤ limit) :
    parseSource limit (name ++ ";") = .ok (.block [.expression (.identifier name)]) := by
  have proper := Token.isIdentifier_iff.mp identifier
  have scanned : Token.Scanned (name ++ ";").toList
      (Sentence.allKinds [.expression (.identifier name)]) [] := by
    rw [String.toList_append]
    exact ((Expr.identifier name).scanned_render proper (separate_cons (by decide) _)).append
      (.mark (by decide) rfl (by trivial) .done)
  have fits : Sentence.AllFit [.expression (.identifier name)] := ⟨trivial, trivial⟩
  exact (parseSource_sentences fits scanned.passes limit).1 room

/-- Programs mention identifiers and no other names. -/
theorem mentionable_iff {name : String} : Mentionable name ↔ Token.IsIdentifier name := by
  constructor
  · rintro ⟨limit, source, root, parsed, mentioned⟩
    obtain ⟨body, rfl, formed⟩ := parseSource_wellFormed parsed
    obtain ⟨node, among, same⟩ := List.mem_filterMap.mp mentioned
    have proper := formed.nodes node among
    cases node with
    | identifier other =>
      cases same
      exact Token.isIdentifier_iff.mpr proper
    | _ => contradiction
  · intro identifier
    exact ⟨1, _, _, parseSource_name identifier (Nat.le_refl 1), List.mem_singleton_self _⟩

end Mentioned

namespace Interpreter.Idle

variable {limits : Limits} {state : Interpreter}

/-- A statement that is the name of a global has its value. -/
theorem interpret_name (idle : state.Idle limits) (bound : state.get? name = some value)
    (room : 2 ≤ limits.evaluation) :
    (state.interpret (.block [.expression (.identifier name)])).1 = .ok value := by
  obtain ⟨result, _⟩ := (idle.agrees (.executeAll .unit [.expression (.identifier name)])).same
  -- one level for the statement, and one for the name in it
  have outside : (⟨0, limits.evaluation⟩ : Nesting).depth < limits.evaluation :=
    Nat.lt_of_lt_of_le Nat.two_pos room
  have inside : (⟨0 + 1, limits.evaluation⟩ : Nesting).depth < limits.evaluation := room
  refine result.trans ?_
  rw [FlatExecution.start, FlatExecution.executeAll_cons, FlatExecution.bind_apply,
    FlatExecution.execute_expression, FlatExecution.nested_of_room outside,
    FlatExecution.evaluate_identifier]
  rw [idle.get?_eq] at bound
  simp only [FlatExecution.during, FlatExecution.nested_of_room inside, FlatExecution.lookup_apply,
    bound]
  rfl

/-- So has the program that consists of it. -/
theorem run_name (idle : state.Idle limits) (identifier : Token.IsIdentifier name)
    (bound : state.get? name = some value) (parses : 1 ≤ limits.parsing)
    (runs : 2 ≤ limits.evaluation) : (state.run (name ++ ";")).1 = .ok value := by
  rw [run, idle.limits, parseSource_name identifier parses]
  dsimp only
  rw [idle.interpret_name bound runs]
  rfl

end Interpreter.Idle

namespace CommandLine

/-- Binding globals keeps what every accepted definition keeps. -/
theorem define_keeps (property : Interpreter → Prop)
    (keeps : ∀ {state text definition}, Definition.read? text = some definition → property state →
      property (state.define definition.name definition.value))
    {state : Interpreter} (texts : List String) (holds : property state)
    (defined : define state texts = .ok after) : property after := by
  induction texts generalizing state with
  | nil =>
    cases defined
    exact holds
  | cons text rest ih =>
    rw [define] at defined
    split at defined
    · next definition reads => exact ih (keeps reads holds) defined
    · contradiction

/-- An invocation starts in between calls, and its globals are words. -/
theorem Invocation.interpreter_words {invocation : Invocation}
    (started : invocation.interpreter = .ok state) :
    state.Idle invocation.limits ∧
      ∀ name, (state.get? name).isSome = true → Definition.isName name.toList = true := by
  refine define_keeps (fun state => state.Idle invocation.limits ∧
    ∀ name, (state.get? name).isSome = true → Definition.isName name.toList = true)
    ?_ _ ⟨.new _, nofun⟩ started
  rintro before text ⟨name, value⟩ reads ⟨idle, words⟩
  have idle' := idle.serve (.define name value)
  refine ⟨idle', fun other bound => ?_⟩
  have lookup : (before.define name value).get? other =
      if other = name then some value else before.get? other := by
    refine (idle'.get?_eq other).trans ?_
    rw [idle.get?_eq]
    exact Scope.get?_insert ..
  rw [lookup] at bound
  split at bound
  · next same =>
    rw [same]
    exact (Definition.read?_eq_some_iff.mp ⟨_, reads⟩).2.2
  · exact words other bound

/-- A definition is accepted if an identifier or a keyword stands in front of its first equals
sign, and it is for that name. So just the keywords are accepted without being identifiers. A global
that is bound by a definition is mentioned by some program if its name is no keyword, and then the
program that consists of the name gives its value, unless the limits leave no room for it. -/
theorem definition_accepted_iff (text name : String) :
    let precedes := '=' ∈ text.toList ∧ Definition.nameText text = name
    let accepted := ∃ value, Definition.read? text = some ⟨name, value⟩
    (accepted ↔ precedes ∧ (Token.IsIdentifier name ∨ name ∈ keywords)) ∧
    ((accepted ↔ precedes ∧ Token.IsIdentifier name) ↔ ¬(precedes ∧ name ∈ keywords)) ∧
    ∀ (invocation : Invocation) (state : Interpreter) (value : Value),
      invocation.interpreter = .ok state → state.get? name = some value →
      (Mentionable name ↔ name ∉ keywords) ∧
      (name ∉ keywords → 1 ≤ invocation.limits.parsing → 2 ≤ invocation.limits.evaluation →
        (state.run (name ++ ";")).1 = .ok value) := by
  intro precedes accepted
  have accepts : accepted ↔ precedes ∧ (Token.IsIdentifier name ∨ name ∈ keywords) := by
    rw [← Token.isName_iff, and_assoc]
    exact Definition.read?_eq_some_iff
  refine ⟨accepts, ?_, ?_⟩
  · have apart : Token.IsIdentifier name → name ∉ keywords :=
      fun identifier => (Token.isIdentifier_iff.mp identifier).2
    rw [accepts]
    tauto
  · intro invocation state value started bound
    obtain ⟨idle, words⟩ := Invocation.interpreter_words started
    have word : Definition.isName name.toList = true := words name (by rw [bound]; rfl)
    have identifier : Token.IsIdentifier name ↔ name ∉ keywords :=
      Token.isIdentifier_iff.trans (and_iff_right word)
    refine ⟨mentionable_iff.trans identifier, fun free parses runs => ?_⟩
    exact idle.run_name (identifier.mpr free) bound parses runs

/-- A name that only begins like a keyword, and a value with another equals sign. -/
theorem read?_iffy : Definition.read? "iffy=a=b" = some ⟨"iffy", .string "a=b"⟩ := by
  cbv

theorem iffy_readable :
    let invocation : Invocation := ⟨.repl, ["iffy=a=b"], {}⟩
    let state := (Interpreter.new {}).define "iffy" (.string "a=b")
    invocation.interpreter = .ok state ∧ state.get? "iffy" = some (.string "a=b") ∧
      Mentionable "iffy" ∧ (state.run ("iffy" ++ ";")).1 = .ok (.string "a=b") := by
  intro invocation state
  have started : invocation.interpreter = .ok state := by
    rw [Invocation.interpreter, define, read?_iffy]
    rfl
  have bound : state.get? "iffy" = some (.string "a=b") := rfl
  obtain ⟨_, _, readable⟩ := definition_accepted_iff "iffy=a=b" "iffy"
  obtain ⟨mentionable, runs⟩ := readable invocation state _ started bound
  exact ⟨started, bound, mentionable.mpr (by decide), runs (by decide) (by decide) (by decide)⟩

/-- A keyword is accepted as well, and no program reads what is bound to it. -/
theorem keyword_accepted :
    (Definition.read? "if=1").isSome = true ∧ '=' ∈ "if=1".toList ∧
      Definition.nameText "if=1" = "if" ∧ ¬Token.IsIdentifier "if" ∧ ¬Mentionable "if" := by
  have noIdentifier : ¬Token.IsIdentifier "if" := by
    intro identifier
    exact (Token.isIdentifier_iff.mp identifier).2 (by decide)
  exact ⟨by decide +kernel, by decide, by decide, noIdentifier, mt mentionable_iff.mp noIdentifier⟩

end CommandLine

end Scriptlet

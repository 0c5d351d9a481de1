import Scriptlet.Proofs.CommandLine.Globals
import Scriptlet.Proofs.Evaluation.Execution
import Scriptlet.Proofs.Grammar.Outcome
import Scriptlet.Proofs.Tree.Decoded
import Scriptlet.Proofs.Tree.Levels

/-! Running a program from its source and from the tree that was shown for it. Both run the same
tree, if the text of the tree can be read: its JSON value may not nest too deep. -/
namespace Scriptlet.CommandLine

open Grammar (bind_eq_ok_iff)

section Run

variable {invocation : Invocation} {files : Files} {file : String} {root : Stmt}

theorem readFile_stored (stored : files file = .ok text.toUTF8) :
    readFile files file = .ok text := by
  have valid : String.fromUTF8? text.toUTF8 = some text := dif_pos text.isValidUTF8
  simp only [readFile, stored, decode, valid]

theorem define_limits {state : Interpreter} (texts : List String)
    (defined : define state texts = .ok after) : after.limits = state.limits :=
  define_keeps (·.limits = state.limits) (fun _ same => same) texts rfl defined

/-- What running a tree shows. -/
def Invocation.runRoot (invocation : Invocation) (root : Stmt) : Except CommandError String := do
  let state ← invocation.interpreter
  return showValue (← (state.interpret root).1.mapError fun e => .program (.execution e))

/-- A source that is a program is run as its tree. -/
theorem runSource_parsed (stored : files file = .ok source.toUTF8)
    (parsed : parseSource invocation.limits.parsing source = .ok root) :
    runSource invocation files file = invocation.runRoot root := by
  rw [runSource, readFile_stored stored, Invocation.runRoot]
  cases started : invocation.interpreter with
  | error e => rfl
  | ok state =>
    have limits : state.limits = invocation.limits := define_limits _ started
    have ran : (state.run source).1.mapError CommandError.program =
        (state.interpret root).1.mapError fun e => .program (.execution e) := by
      rw [Interpreter.run, limits, parsed]
      dsimp only
      cases (state.interpret root).1 <;> rfl
    exact congrArg (· >>= fun value => .ok (showValue value)) ran

/-- A tree that is read from a file is run as it is. -/
theorem runTree_read (stored : files file = .ok text.toUTF8) (reads : Json.read text = .ok value)
    (decodes : Stmt.ofJson discriminant value = .ok root) :
    runTree invocation files file discriminant = invocation.runRoot root := by
  rw [runTree, readFile_stored stored]
  change (do let value ← (Json.read text).mapError CommandError.json; _) = _
  rw [reads]
  change (do let root ← (Stmt.ofJson discriminant value).mapError CommandError.tree; _) = _
  rw [decodes]
  rfl

theorem runTree_unread (stored : files file = .ok text.toUTF8) (fails : Json.read text = .error e) :
    runTree invocation files file discriminant = .error (.json e) := by
  rw [runTree, readFile_stored stored]
  change (do let value ← (Json.read text).mapError CommandError.json; _) = _
  rw [fails]
  rfl

/-- A tree is shown for a source that is a program, in a field that can hold the tags. -/
theorem showTree_eq_ok (stored : files file = .ok source.toUTF8)
    (shown : showTree invocation files file discriminant compact = .ok text) :
    ∃ root layout, parseSource invocation.limits.parsing source = .ok root ∧
      Discriminant.Usable discriminant ∧ layout.Plain ∧
      text = (root.encode discriminant).render layout ++ "\n" := by
  rw [showTree, readFile_stored stored] at shown
  obtain ⟨_, same, shown⟩ := bind_eq_ok_iff.mp shown
  cases same
  obtain ⟨root, parsed, shown⟩ := bind_eq_ok_iff.mp shown
  obtain ⟨value, held, shown⟩ := bind_eq_ok_iff.mp shown
  rw [mapError_eq_ok_iff] at parsed held
  rw [Stmt.toJson] at held
  split at held
  · rename_i usable
    cases held
    cases shown
    refine ⟨root, _, parsed, Discriminant.isUsable_iff.mp usable, ?_, rfl⟩
    split
    · exact Json.Layout.plain_compact
    · exact Json.Layout.plain_indented
  · contradiction

theorem showTree_parsed (stored : files file = .ok source.toUTF8)
    (parsed : parseSource invocation.limits.parsing source = .ok root)
    (usable : Discriminant.Usable discriminant) (compact : Bool) :
    showTree invocation files file discriminant compact =
      .ok ((root.encode discriminant).render (if compact then .compact else .indented) ++ "\n") := by
  rw [showTree, readFile_stored stored]
  refine bind_eq_ok_iff.mpr ⟨source, rfl, ?_⟩
  refine bind_eq_ok_iff.mpr ⟨root, mapError_eq_ok_iff.mpr parsed, ?_⟩
  exact bind_eq_ok_iff.mpr ⟨_, mapError_eq_ok_iff.mpr (root.toJson_usable usable), rfl⟩

variable (invocation) in
/-- A tree that has been shown is read back and run, if its JSON value may nest so deep. -/
theorem runTree_shown {layout : Json.Layout} (usable : Discriminant.Usable name)
    (finite : root.Finite) (readable : ∀ x ∈ root.numbers, ReadsBack x) (plain : layout.Plain)
    (stored : files file = .ok ((root.encode name).render layout ++ "\n").toUTF8) :
    if root.jsonLevels ≤ Json.depthLimit then
      runTree invocation files file name = invocation.runRoot root
    else ∃ e : Json.TextError, e.fault = .tooDeep ∧
      runTree invocation files file name = .error (.json e) := by
  have reads := Json.read_render plain (root.legible_encode name finite readable)
  rw [root.nesting_encode usable] at reads
  split at reads
  · rename_i fits
    rw [if_pos fits]
    refine runTree_read stored reads ?_
    rw [Stmt.ofJson_encode name usable finite, if_pos (.inl rfl)]
  · rename_i deep
    obtain ⟨e, fails, fault⟩ := reads
    rw [if_neg deep]
    exact ⟨e, fault, runTree_unread stored fails⟩

end Run

section Errors

theorem ofResult_eq_ok {result : Except CommandError String}
    (succeeds : Outcome.ofResult result = ⟨0, text, errors⟩) : result = .ok text := by
  cases result with
  | ok output =>
    have same : output = text := congrArg Outcome.output succeeds
    rw [same]
  | error e =>
    have status : 1 = 0 := congrArg Outcome.status succeeds
    contradiction

theorem define_eq_error {state : Interpreter} (texts : List String)
    (fails : define state texts = .error e) : ∃ written, e = .definition written := by
  induction texts generalizing state with
  | nil => contradiction
  | cons text rest ih =>
    rw [define] at fails
    split at fails
    · exact ih fails
    · cases fails
      exact ⟨text, rfl⟩

/-- Nothing can be wrong with a tree but a definition or its execution. -/
theorem runRoot_eq_error {invocation : Invocation} {root : Stmt}
    (fails : invocation.runRoot root = .error e) :
    (∃ written, e = .definition written) ∨ ∃ failed, e = .program (.execution failed) := by
  rw [Invocation.runRoot] at fails
  cases started : invocation.interpreter with
  | error e =>
    rw [started] at fails
    cases fails
    exact .inl (define_eq_error _ started)
  | ok state =>
    rw [started] at fails
    change ((state.interpret root).1.mapError _ >>= _) = _ at fails
    cases ran : (state.interpret root).1 with
    | ok value =>
      rw [ran] at fails
      contradiction
    | error failed =>
      rw [ran] at fails
      cases fails
      exact .inr ⟨failed, rfl⟩

/-- Whether a text has this character at a place. -/
def Shows (place : Nat) (c : Char) (text : String) : Prop := text.toList[place]? = some c

theorem Shows.append (shows : Shows place c text) (back : String) :
    Shows place c (text ++ back) := by
  obtain ⟨within, _⟩ := List.getElem?_eq_some_iff.mp shows
  rw [Shows, String.toList_append, List.getElem?_append_left within]
  exact shows

theorem Shows.unique (first : Shows place c text) (second : Shows place d text) : c = d :=
  Option.some.inj (first.symm.trans second)

/-- No cause of a failure reads like `Invalid syntax tree` at this place. -/
theorem cause_shows (cause : ExecutionError.Cause) : ∃ c, Shows 8 c cause.message ∧ c ≠ 's' := by
  cases cause with
  | unboundIdentifier name =>
    have front : Shows 8 'o' "Name error: unbound identifier `" := rfl
    exact ⟨'o', (front.append _).append _, by decide⟩
  | invalidOperands op left right =>
    have front : Shows 8 'o' "Type error: invalid operands for `" := rfl
    exact ⟨'o', ((((front.append _).append _).append _).append _).append _, by decide⟩
  | nonBooleanCondition value =>
    have front : Shows 8 'o' "Type error: condition must be a boolean, found " := rfl
    exact ⟨'o', front.append _, by decide⟩
  | nonBooleanOperand op value =>
    have front : Shows 8 'o' "Type error: operands of `" := rfl
    exact ⟨'o', ((front.append _).append _).append _, by decide⟩
  | invalidAssignmentTarget target =>
    have front : Shows 8 'o' "Type error: cannot assign to `" := rfl
    exact ⟨'o', (front.append _).append _, by decide⟩
  | divisionByZero op =>
    have front : Shows 8 'i' "Arithmetic error: `" := rfl
    exact ⟨'i', (front.append _).append _, by decide⟩
  | depthLimit limit =>
    have front : Shows 8 'n' "Recursion limit error: evaluation nested deeper than " := rfl
    exact ⟨'n', (front.append _).append _, by decide⟩

theorem execution_shows (e : ExecutionError) : ∃ c, Shows 8 c e.message ∧ c ≠ 's' := by
  obtain ⟨c, shows, other⟩ := cause_shows e.cause
  refine ⟨c, ?_, other⟩
  rw [ExecutionError.message]
  split
  · exact (shows.append _).append _
  · exact shows

theorem definition_shows (written : String) :
    Shows 8 'd' (CommandError.definition written).message := by
  have front : Shows 8 'd' "Invalid definition \"" := rfl
  exact (front.append _).append _

theorem json_shows (e : Json.TextError) : Shows 8 's' (CommandError.json e).message := by
  have front : Shows 8 's' "Invalid syntax tree: " := rfl
  exact front.append _

/-- A tree that cannot be read is told apart from whatever comes of running one. -/
theorem runRoot_ne_json {invocation : Invocation} {root : Stmt} (e : Json.TextError) :
    Outcome.ofResult (invocation.runRoot root) ≠ .ofResult (.error (.json e)) := by
  intro same
  cases result : invocation.runRoot root with
  | ok output =>
    rw [result] at same
    have status : 0 = 1 := congrArg Outcome.status same
    contradiction
  | error failed =>
    rw [result] at same
    have errors : failed.message ++ "\n" = (CommandError.json e).message ++ "\n" :=
      congrArg Outcome.errors same
    have unread := (json_shows e).append "\n"
    rw [← errors] at unread
    rcases runRoot_eq_error result with ⟨written, rfl⟩ | ⟨failed, rfl⟩
    · have := ((definition_shows written).append "\n").unique unread
      contradiction
    · obtain ⟨c, shows, other⟩ := execution_shows failed
      exact other ((shows.append "\n").unique unread)

end Errors

/-- A shown tree is run with the outcome of its source exactly where its JSON value takes no more
levels than can be read, provided that its numbers are read back. Beyond that the text of the tree
is refused, whatever comes of the program. -/
theorem shown_tree_runs_iff {definitions : List String} {limits : Limits} {files treeFiles : Files}
    (stored : files file = .ok source.toUTF8)
    (shown : (Invocation.mk (.showTree file discriminant compact) definitions limits).perform
      files entered = ⟨0, text, ""⟩)
    (kept : treeFiles treeFile = .ok text.toUTF8) :
    ∃ root, parseSource limits.parsing source = .ok root ∧
      ((∀ x ∈ root.numbers, ReadsBack x) →
        let fromSource := (Invocation.mk (.run file) definitions limits).perform files entered
        let fromTree := (Invocation.mk (.runTree treeFile discriminant) definitions limits).perform
          treeFiles entered
        (fromTree = fromSource ↔ root.jsonLevels ≤ 127) ∧
        (127 < root.jsonLevels → ∃ e : Json.TextError, e.fault = .tooDeep ∧
          fromTree = ⟨1, "", "Invalid syntax tree: " ++ e.message ++ "\n"⟩)) := by
  have written : showTree ⟨.showTree file discriminant compact, definitions, limits⟩ files file
      discriminant compact = .ok text := ofResult_eq_ok shown
  obtain ⟨root, layout, parsed, usable, plain, rfl⟩ := showTree_eq_ok stored written
  refine ⟨root, parsed, fun readable => ?_⟩
  have fromSource : (Invocation.mk (.run file) definitions limits).perform files entered =
      .ofResult (Invocation.runRoot ⟨.runTree treeFile discriminant, definitions, limits⟩ root) :=
    congrArg Outcome.ofResult (runSource_parsed stored parsed)
  have finite := (parseSource_wellFormed parsed).finite
  have fromTree := runTree_shown ⟨.runTree treeFile discriminant, definitions, limits⟩ usable
    finite readable plain kept
  dsimp only
  rw [fromSource]
  split at fromTree
  · rename_i fits
    have same := congrArg Outcome.ofResult fromTree
    constructor
    · exact iff_of_true same fits
    · intro deep
      exact absurd fits (Nat.not_le.mpr deep)
  · rename_i deep
    obtain ⟨e, fault, refused⟩ := fromTree
    have refusal := congrArg Outcome.ofResult refused
    constructor
    · refine iff_of_false ?_ deep
      intro same
      exact runRoot_ne_json e (same.symm.trans refusal)
    · intro _
      exact ⟨e, fault, refusal⟩

section GuardedNumber

/-- A program with a number, which is its value if a global is true: `if (answer) 4;`. -/
def guardedNumber : Stmt := .block [.ifThen (.identifier "answer") (.expression (.number 4))]

theorem guardedNumber_accepted : parseSource 100 "if (answer) 4;\n" = .ok guardedNumber := by
  have name : Definition.isName "answer".toList = true ∧ "answer" ∉ Token.keywords := by decide
  have number : (4 : Float).isFinite = true ∧ Number.signBit 4 = false := by decide +kernel
  have wellFormed : guardedNumber.WellFormedRoot := ⟨_, rfl, ⟨name, number⟩, trivial⟩
  have text : guardedNumber.renderProgram = "if (answer) 4;\n" := by decide +kernel
  rw [← text]
  exact (Stmt.parseSource_renderProgram wellFormed 100).1 (by decide)

/-- The JSON form of four has a fraction, so that it is read back as a double. -/
theorem readsBack_four : ReadsBack 4 := by
  have text : Number.json 4 = "4.0" := by decide +kernel
  have scaled : Json.scale? 40 (-1) = some 4 := by decide +kernel
  have digits : Json.absorb Json.wordMax 0 ['4'] = (4, 1) := rfl
  have fraction : Json.absorb Json.wordMax 4 ['0'] = (40, 1) := rfl
  have value : Json.Numeral.value ⟨false, ['4'], ['0'], none⟩ = .ok (.float 4) := by
    simp [Json.Numeral.value, digits, fraction, scaled, Json.signed]
  have cut : Json.outcome (Json.cutNumeral false ['4', '.', '0']) =
      .ok (⟨false, ['4'], ['0'], none⟩, []) := rfl
  have number : Json.outcome (Json.readNumber false ['4', '.', '0']) = .ok (.float 4, []) := by
    rw [Json.outcome_number, cut]
    simp only [bind, Except.bind, value]
    rfl
  rw [ReadsBack, text]
  exact Json.read_of_outcome ((Json.readValue_digit rfl rfl).trans number) rfl

theorem guardedNumber_runs_alike :
    let text := (guardedNumber.encode "kind").render .indented ++ "\n"
    let files : Files := fun name =>
      .ok (if name = "source" then "if (answer) 4;\n" else text).toUTF8
    let perform (task : Task) := (Invocation.mk task ["answer=true"] {}).perform files .empty
    guardedNumber.numbers = [4] ∧ ReadsBack 4 ∧
    perform (.showTree "source" "kind" false) = ⟨0, text, ""⟩ ∧
    perform (.runTree "tree" "kind") = perform (.run "source") := by
  have usable : Discriminant.Usable "kind" := Discriminant.isUsable_iff.mp (by decide)
  intro text files perform
  have stored : files "source" = .ok "if (answer) 4;\n".toUTF8 := rfl
  have kept : files "tree" = .ok text.toUTF8 := rfl
  have shown : perform (.showTree "source" "kind" false) = ⟨0, text, ""⟩ :=
    congrArg Outcome.ofResult (showTree_parsed stored guardedNumber_accepted usable false)
  obtain ⟨root, parsed, agrees⟩ := shown_tree_runs_iff stored shown kept
  cases parsed.symm.trans guardedNumber_accepted
  have numbers : guardedNumber.numbers = [4] := rfl
  have readable : ∀ x ∈ guardedNumber.numbers, ReadsBack x := by
    rw [numbers]
    exact List.forall_mem_singleton.mpr readsBack_four
  exact ⟨numbers, readsBack_four, shown, (agrees readable).1.mpr (by decide)⟩

end GuardedNumber

section NestedBlocks

/-- The root of blocks inside one another, the innermost one empty. -/
def nestedBlocks : Nat → Stmt
  | 0 => .block []
  | n + 1 => .block [nestedBlocks n]

theorem nestedBlocks_wellFormed (n : Nat) : (nestedBlocks n).WellFormed := by
  induction n with
  | zero => trivial
  | succ n ih => exact ⟨ih, trivial⟩

theorem nestedBlocks_jsonLevels (n : Nat) : (nestedBlocks n).jsonLevels = 2 * n + 2 := by
  induction n with
  | zero => rfl
  | succ n ih =>
    rw [nestedBlocks, Stmt.jsonLevels, Stmt.mostJsonLevels, Stmt.mostJsonLevels, ih]
    omega

theorem nestedBlocks_numbers (n : Nat) : (nestedBlocks n).numbers = [] := by
  induction n with
  | zero => rfl
  | succ n ih =>
    rw [nestedBlocks, Stmt.numbers, Stmt.allNumbers, Stmt.allNumbers, ih]
    rfl

theorem nestedBlocks_levels (n : Nat) : (nestedBlocks n).sentence.levels = n + 1 := by
  induction n with
  | zero => rfl
  | succ n ih =>
    rw [nestedBlocks, Stmt.sentence, Stmt.sentences, Stmt.sentences, Sentence.levels,
      Sentence.mostLevels, Sentence.mostLevels, ih]
    omega

theorem nestedBlocks_accepted (enough : n ≤ limit) :
    parseSource limit (nestedBlocks n).renderProgram = .ok (nestedBlocks n) := by
  have formed := nestedBlocks_wellFormed n
  cases n with
  | zero => exact (Stmt.parseSource_renderProgram ⟨[], rfl, formed⟩ limit).1 (Nat.zero_le _)
  | succ n =>
    refine (Stmt.parseSource_renderProgram ⟨[nestedBlocks n], rfl, formed⟩ limit).1 ?_
    change max (nestedBlocks n).sentence.levels 0 ≤ limit
    rwa [nestedBlocks_levels, Nat.max_zero]

theorem executeAll_nestedBlocks (n : Nat) (state : Interpreter)
    (room : state.depth + n ≤ state.limits.evaluation) :
    (Execution.executeAll .unit (nestedBlocks n).statements state).1 = .ok .unit := by
  induction n generalizing state with
  | zero => rfl
  | succ n ih =>
    have single : Execution.executeAll .unit (nestedBlocks (n + 1)).statements =
        Execution.execute (nestedBlocks n) := bind_pure _
    have block : Execution.execute (nestedBlocks n) =
        .nested (.enclosed (Execution.executeAll .unit (nestedBlocks n).statements)) := by
      cases n <;> rfl
    rw [single, block, Execution.nested_of_room (by omega)]
    exact ih ⟨state.scopes.enter, state.depth + 1, state.limits⟩ (by dsimp only; omega)

theorem runRoot_nestedBlocks (task : Task) {limits : Limits} (room : n ≤ limits.evaluation) :
    Invocation.runRoot ⟨task, [], limits⟩ (nestedBlocks n) = .ok "" := by
  have ran : ((Interpreter.new limits).interpret (nestedBlocks n)).1 = .ok .unit :=
    executeAll_nestedBlocks n (.new limits) (by simpa [Interpreter.new] using room)
  change (((Interpreter.new limits).interpret (nestedBlocks n)).1.mapError _ >>= _) = _
  rw [ran]
  rfl

/-- Blocks inside one another are run from their source where the limits leave room for them. Their
tree can be shown, but not be run from what was shown. -/
theorem nestedBlocks_outcomes {limits : Limits} (reading : n ≤ limits.parsing)
    (running : n ≤ limits.evaluation) (deep : 63 ≤ n) :
    let source := (nestedBlocks n).renderProgram
    let text := ((nestedBlocks n).encode "$kind").render .compact ++ "\n"
    let files : Files := fun name => .ok (if name = "source" then source else text).toUTF8
    let perform (task : Task) := (Invocation.mk task [] limits).perform files .empty
    perform (.showTree "source" "$kind" true) = ⟨0, text, ""⟩ ∧
    perform (.run "source") = ⟨0, "", ""⟩ ∧
    ∃ e : Json.TextError, e.fault = .tooDeep ∧
      perform (.runTree "tree" "$kind") = ⟨1, "", "Invalid syntax tree: " ++ e.message ++ "\n"⟩ := by
  have usable := Discriminant.usable_standard
  have parsed := nestedBlocks_accepted reading
  have finite := (parseSource_wellFormed parsed).finite
  intro source text files perform
  have stored : files "source" = .ok source.toUTF8 := rfl
  have kept : files "tree" = .ok text.toUTF8 := rfl
  refine ⟨?_, ?_, ?_⟩
  · exact congrArg Outcome.ofResult (showTree_parsed stored parsed usable true)
  · exact congrArg Outcome.ofResult
      ((runSource_parsed stored parsed).trans (runRoot_nestedBlocks _ running))
  · have outcome := runTree_shown ⟨.runTree "tree" "$kind", [], limits⟩ usable finite
      (by simp [nestedBlocks_numbers]) Json.Layout.plain_compact kept
    have beyond : ¬ 2 * n + 2 ≤ Json.depthLimit := by
      rw [Json.depthLimit]
      omega
    rw [nestedBlocks_jsonLevels, if_neg beyond] at outcome
    obtain ⟨e, fault, refused⟩ := outcome
    exact ⟨e, fault, congrArg Outcome.ofResult refused⟩

/-- Sixty-three blocks inside one another are a program within the standard limits. -/
theorem nestedBlocks_refused :
    let source := (nestedBlocks 63).renderProgram
    let text := ((nestedBlocks 63).encode "$kind").render .compact ++ "\n"
    let files : Files := fun name => .ok (if name = "source" then source else text).toUTF8
    let perform (task : Task) := (Invocation.mk task [] {}).perform files .empty
    perform (.showTree "source" "$kind" true) = ⟨0, text, ""⟩ ∧
    perform (.run "source") = ⟨0, "", ""⟩ ∧
    ∃ e : Json.TextError, e.fault = .tooDeep ∧
      perform (.runTree "tree" "$kind") = ⟨1, "", "Invalid syntax tree: " ++ e.message ++ "\n"⟩ :=
  nestedBlocks_outcomes (by decide) (by decide) (by decide)

end NestedBlocks

end Scriptlet.CommandLine

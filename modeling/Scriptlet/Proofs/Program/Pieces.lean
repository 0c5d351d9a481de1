import Mathlib.Data.List.Basic
import Mathlib.Data.List.Forall2
import Scriptlet.Proofs.Evaluation.Invariant
import Scriptlet.Proofs.Program.RoundTrip
import Scriptlet.Proofs.Token.Continued

/-! Programs in pieces. A source is read the same in front of other lines, so that sources joined
by line breaks are read as the statements of each in turn; and one interpreter that runs the pieces
one after the other does what it does with the whole. -/
namespace Scriptlet

open Grammar

namespace Sentence

theorem allKinds_append (first last : List Sentence) :
    allKinds (first ++ last) = allKinds first ++ allKinds last := by
  induction first with
  | nil => rfl
  | cons s more ih => rw [List.cons_append, allKinds, allKinds, ih, List.append_assoc]

theorem trees_append (first last : List Sentence) :
    trees (first ++ last) = trees first ++ trees last := by
  induction first with
  | nil => rfl
  | cons s more ih => rw [List.cons_append, trees, trees, ih, List.cons_append]

theorem mostLevels_append (first last : List Sentence) :
    mostLevels (first ++ last) = max (mostLevels first) (mostLevels last) := by
  induction first with
  | nil => exact (Nat.zero_max _).symm
  | cons s more ih => rw [List.cons_append, mostLevels, mostLevels, ih, Nat.max_assoc]

theorem AllFit.append {first last : List Sentence} (front : AllFit first) (back : AllFit last) :
    AllFit (first ++ last) := by
  induction first with
  | nil => exact back
  | cons s more ih => exact ⟨front.1, ih front.2⟩

end Sentence

/-- A source that is read as these sentences, wherever it stands and whatever lines follow it. -/
structure Reads (limit : Nat) (source : String) (body : List Sentence) : Prop where
  fits : Sentence.AllFit body
  room : Sentence.mostLevels body ≤ limit
  passes : ∀ rest, Token.LineEnd rest →
    Token.Passes (source.toList ++ rest) (Sentence.allKinds body) rest

namespace Reads

theorem parseSource (reads : Reads limit source body) :
    parseSource limit source = .ok (.block (Sentence.trees body)) := by
  have passes := reads.passes [] Token.lineEnd_nil
  rw [List.append_nil] at passes
  exact (parseSource_sentences reads.fits passes limit).1 reads.room

/-- An accepted source has one end mark, which closes it. -/
theorem of_parseSource (parsed : Scriptlet.parseSource limit source = .ok root) :
    ∃ body, Reads limit source body ∧ root = .block (Sentence.trees body) := by
  cases scans : Token.scan source with
  | error e => rw [Scriptlet.parseSource, scans] at parsed; contradiction
  | ok tokens =>
    rw [parseSource_of_scan scans, mapError_eq_ok_iff] at parsed
    obtain ⟨body, ending, after, fits, rfl, ⟨used, rfl, spelled⟩, sign, room⟩ :=
      program_sound parsed
    obtain ⟨kinds, found, noEnd, passes⟩ := Token.scan_passes scans
    rw [List.map_append, List.map_cons, spelled, sign] at found
    obtain ⟨rfl, _⟩ := (List.append_cons_inj_of_notMem noEnd List.not_mem_nil).mp found.symm
    exact ⟨body, ⟨fits, room, passes⟩, rfl⟩

/-- The line break between two sources belongs to neither, and ends a comment of the first. -/
theorem append (first : Reads limit source front) (last : Reads limit more back) :
    Reads limit (source ++ "\n" ++ more) (front ++ back) := by
  constructor
  · exact first.fits.append last.fits
  · rw [Sentence.mostLevels_append]
    exact Nat.max_le.mpr ⟨first.room, last.room⟩
  · intro rest ended
    have text : (source ++ "\n" ++ more).toList ++ rest =
        source.toList ++ '\n' :: (more.toList ++ rest) := by
      simp only [String.toList_append, List.append_assoc]
      rfl
    rw [text, Sentence.allKinds_append]
    refine (first.passes _ (Token.lineEnd_newline _)).append ?_
    exact (last.passes rest ended).blank (by decide)

end Reads

/-- A source is read as the statements of this body. -/
def IsBody (limit : Nat) (source : String) (body : List Stmt) : Prop :=
  parseSource limit source = .ok (.block body)

theorem exists_bodies {sources : List String}
    (accepted : ∀ source ∈ sources, ∃ root, parseSource limit source = .ok root) :
    ∃ bodies, List.Forall₂ (IsBody limit) sources bodies := by
  induction sources with
  | nil => exact ⟨[], .nil⟩
  | cons source more ih =>
    obtain ⟨⟨root, parsed⟩, others⟩ := List.forall_mem_cons.mp accepted
    obtain ⟨body, _, rfl⟩ := Reads.of_parseSource parsed
    obtain ⟨bodies, each⟩ := ih others
    exact ⟨Sentence.trees body :: bodies, .cons parsed each⟩

/-- Nothing is read across the line break between two sources. -/
theorem IsBody.append (first : IsBody limit source front) (last : IsBody limit more back) :
    IsBody limit (source ++ "\n" ++ more) (front ++ back) := by
  obtain ⟨head, reads, same⟩ := Reads.of_parseSource first
  obtain ⟨tail, readsMore, sameMore⟩ := Reads.of_parseSource last
  cases same
  cases sameMore
  rw [← Sentence.trees_append]
  exact (reads.append readsMore).parseSource

/-- The text of all sources, with line breaks between them. -/
def joined (sources : List String) : String := String.intercalate "\n" sources

theorem IsBody.joined {sources : List String} {bodies : List (List Stmt)} (nonempty : sources ≠ [])
    (each : List.Forall₂ (IsBody limit) sources bodies) :
    IsBody limit (Scriptlet.joined sources) bodies.flatten := by
  induction each with
  | nil => contradiction
  | @cons source body sources bodies first rest ih =>
    cases rest with
    | nil =>
      rw [Scriptlet.joined, String.intercalate_singleton, List.flatten_singleton]
      exact first
    | cons _ _ =>
      rw [Scriptlet.joined, String.intercalate_cons_of_ne_nil (List.cons_ne_nil _ _),
        List.flatten_cons]
      exact first.append (ih (List.cons_ne_nil _ _))

namespace Execution

theorem executeAll_append (last : Value) (front back : List Stmt) :
    executeAll last (front ++ back) =
      executeAll last front >>= fun value => executeAll value back := by
  induction front generalizing last with
  | nil => rfl
  | cons s rest ih =>
    rw [List.cons_append, executeAll, executeAll, bind_assoc]
    exact congrArg _ (funext ih)

end Execution

namespace Interpreter

/-- Runs sources in turn, up to the first failure. Their value is that of the last one, or the
given one. -/
def runEach (last : Value) (state : Interpreter) :
    List String → Except ProgramError Value × Interpreter
  | [] => (.ok last, state)
  | source :: more =>
    match state.run source with
    | (.ok value, after) => runEach value after more
    | (.error e, after) => (.error e, after)

theorem run_of_body (parsed : IsBody limit source body) (same : state.limits.parsing = limit) :
    state.run source = (Execution.executeAll .unit body state).map (·.mapError .execution) id := by
  rw [run, same, parsed]
  rfl

theorem limits_executeAll (last : Value) (body : List Stmt) (state : Interpreter) :
    (Execution.executeAll last body state).2.limits = state.limits :=
  (follows_composes.executeAll last body state).limits

/-- Two runs that fail with the same errors and leave the same state. -/
structure EndsAs (first second : Except ε α × Interpreter) : Prop where
  error : ∀ e, first.1 = .error e ↔ second.1 = .error e
  state : first.2 = second.2

/-- Pieces and the whole do the same. They may start from different values, and only a last body
that is empty leaves one of these in place. -/
theorem runEach_endsAs {sources : List String} {bodies : List (List Stmt)} {state : Interpreter}
    (each : List.Forall₂ (IsBody limit) sources bodies) (same : state.limits.parsing = limit)
    (last given : Value) :
    let pieces := state.runEach last sources
    let whole := (Execution.executeAll given bodies.flatten state).map (·.mapError .execution) id
    EndsAs pieces whole ∧ ((bodies = [] → last = given) →
      (∀ final ∈ bodies.getLast?, final ≠ []) → pieces.1 = whole.1) := by
  induction each generalizing state last given with
  | nil =>
    refine ⟨⟨fun e => ⟨nofun, nofun⟩, rfl⟩, ?_⟩
    intro values _
    rw [values rfl]
    rfl
  | @cons source body sources bodies first rest ih =>
    have remaining : (∀ final ∈ (body :: bodies).getLast?, final ≠ []) →
        ∀ final ∈ bodies.getLast?, final ≠ [] := by
      cases bodies with
      | nil => simp
      | cons next more => simp
    simp only [runEach, run_of_body first same, List.flatten_cons, Execution.executeAll_append,
      Execution.bind_apply]
    have limits := limits_executeAll .unit body state
    cases body with
    | nil =>
      obtain ⟨ends, values⟩ := ih same .unit given
      refine ⟨ends, fun _ filled => values ?_ (remaining filled)⟩
      rintro rfl
      exact absurd rfl (filled [] rfl)
    | cons s more =>
      -- the value before a body that is not empty does not matter
      have nothing : Execution.executeAll given (s :: more) =
        Execution.executeAll .unit (s :: more) := rfl
      rw [nothing]
      generalize Execution.executeAll .unit (s :: more) state = outcome at limits ⊢
      obtain ⟨result, after⟩ := outcome
      cases result with
      | error e => exact ⟨⟨fun _ => Iff.rfl, rfl⟩, fun _ _ => rfl⟩
      | ok value =>
        obtain ⟨ends, values⟩ := ih (limits ▸ same) value value
        exact ⟨ends, fun _ filled => values (fun _ => rfl) (remaining filled)⟩

end Interpreter

/-- Sources that are accepted one by one are accepted together, as the statements of each in turn;
and to run them in one interpreter, up to the first failure, is to run them together. They have the
same value if the last of them has a statement. -/
theorem run_joined (limit : Nat) (sources : List String) (nonempty : sources ≠ [])
    (accepted : ∀ source ∈ sources, ∃ root, parseSource limit source = .ok root) :
    ∃ bodies : List (List Stmt),
      List.Forall₂ (fun source body => parseSource limit source = .ok (.block body))
        sources bodies ∧
      parseSource limit (joined sources) = .ok (.block bodies.flatten) ∧
      ∀ state : Interpreter, state.limits.parsing = limit →
        let pieces := state.runEach .unit sources
        let whole := state.run (joined sources)
        (∀ e, pieces.1 = .error e ↔ whole.1 = .error e) ∧ pieces.2 = whole.2 ∧
          ((∀ final ∈ bodies.getLast?, final ≠ []) → pieces.1 = whole.1) := by
  obtain ⟨bodies, each⟩ := exists_bodies accepted
  have whole := IsBody.joined nonempty each
  refine ⟨bodies, each, whole, ?_⟩
  intro state same
  obtain ⟨ends, values⟩ := state.runEach_endsAs each same .unit .unit
  rw [← state.run_of_body whole same] at ends values
  exact ⟨ends.error, ends.state, values fun _ => rfl⟩

section OpenConditional

/-- A conditional without `else`, and a name. -/
def openConditional : Stmt := .block [.ifThen (.identifier "a") (.expression (.identifier "b"))]

def singleName : Stmt := .block [.expression (.identifier "c")]

theorem openConditional_accepted : parseSource 2 "if (a) b;\n" = .ok openConditional := by
  have name : Definition.isName "a".toList = true ∧ "a" ∉ Token.keywords := by decide
  have branch : Definition.isName "b".toList = true ∧ "b" ∉ Token.keywords := by decide
  have wellFormed : openConditional.WellFormedRoot := ⟨_, rfl, ⟨name, branch⟩, trivial⟩
  have text : openConditional.renderProgram = "if (a) b;\n" := by decide
  rw [← text]
  exact (Stmt.parseSource_renderProgram wellFormed 2).1 (by decide)

theorem singleName_accepted : parseSource 2 "c;\n" = .ok singleName := by
  have name : Definition.isName "c".toList = true ∧ "c" ∉ Token.keywords := by decide
  have wellFormed : singleName.WellFormedRoot := ⟨_, rfl, name, trivial⟩
  have text : singleName.renderProgram = "c;\n" := by decide
  rw [← text]
  exact (Stmt.parseSource_renderProgram wellFormed 2).1 (by decide)

theorem openConditional_then_name :
    parseSource 2 "if (a) b;\n\nc;\n" =
      .ok (.block (openConditional.statements ++ singleName.statements)) ∧
    ((Interpreter.new ⟨2, 9⟩).runEach .unit ["if (a) b;\n", "c;\n"]).2 =
      ((Interpreter.new ⟨2, 9⟩).run "if (a) b;\n\nc;\n").2 := by
  obtain ⟨bodies, each, whole, runs⟩ := run_joined 2 ["if (a) b;\n", "c;\n"]
    (List.cons_ne_nil _ _) (by simp [openConditional_accepted, singleName_accepted])
  obtain ⟨front, _, first, rest, rfl⟩ := List.forall₂_cons_left_iff.mp each
  obtain ⟨back, _, last, nothing, rfl⟩ := List.forall₂_cons_left_iff.mp rest
  cases nothing
  cases first.symm.trans openConditional_accepted
  cases last.symm.trans singleName_accepted
  exact ⟨whole, (runs (Interpreter.new ⟨2, 9⟩) rfl).2.1⟩

end OpenConditional

end Scriptlet

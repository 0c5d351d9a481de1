import Scriptlet.Proofs.Grammar.Context

/-! The end mark. No rule takes an end mark that stands behind what it reads, and none looks behind
one. So what stands behind the first end mark does not matter, and an error names a token that
stands no later than that. -/
namespace Scriptlet
namespace Grammar

variable {before after : List Token} {ending : Token}

/-- Tokens that hold no end mark stand in front of it. -/
theorem split_before_end {used rest : List Token} (sign : ending.kind = .endOfInput)
    (free : .endOfInput ∉ used.map Token.kind) (split : before ++ ending :: after = used ++ rest) :
    ∃ more, before = used ++ more ∧ rest = more ++ ending :: after := by
  rcases List.append_eq_append_iff.mp split with ⟨more, rfl, same⟩ | ⟨more, rfl, rfl⟩
  · cases more with
    | nil => exact ⟨[], by simp, by simpa using same.symm⟩
    | cons token more =>
      obtain ⟨rfl, -⟩ := List.cons.inj same
      simp [sign] at free
  · exact ⟨more, rfl, rfl⟩

theorem ahead_before_end (more : List Token) (ending : Token) (after : List Token) :
    ahead (more ++ ending :: after) = ahead (more ++ [ending]) := ahead_append more rfl

/-- What a reader does in front of an end mark, whatever stands behind it. -/
inductive EndsBefore (read : Reader α) (before : List Token) (ending : Token) : Prop where
  | took (a : α) (used more : List Token) (split : before = used ++ more)
      (again : ∀ after, read (before ++ ending :: after) = .ok (a, more ++ ending :: after))
  | failed (cause : SyntaxError.Cause) (context : List Rule) (used more : List Token)
      (split : before = used ++ more)
      (again : ∀ after, read (before ++ ending :: after) =
        .error ⟨cause, context, (more ++ [ending]).head?⟩)

theorem Ends.inFront {blame : SyntaxError.Cause → List Rule → List Token.Kind → Prop}
    {read : Reader α} (spares : Spares read)
    (free : ∀ cause context kinds, blame cause context kinds → .endOfInput ∉ kinds)
    (sign : ending.kind = .endOfInput) (ends : Ends blame read (before ++ [ending])) :
    EndsBefore read before ending := by
  cases ends with
  | took a used rest split again =>
    have unread := spares used rest a (again rest rfl)
    obtain ⟨more, rfl, rfl⟩ := split_before_end sign unread split
    refine .took a used more rfl fun after => ?_
    rw [List.append_assoc]
    exact again _ (ahead_before_end more ending after)
  | failed cause context used rest split again blamed =>
    obtain ⟨more, rfl, rfl⟩ := split_before_end sign (free _ _ _ blamed) split
    refine .failed cause context used more rfl fun after => ?_
    rw [List.append_assoc, again _ (ahead_before_end more ending after)]
    cases more <;> rfl

/-- How an entry ends in front of an end mark: with one result, whatever stands behind the mark. An
error names a token that stands no later than the mark. -/
def Settles (entry : List Token → Except SyntaxError α) (before : List Token) (ending : Token) :
    Prop :=
  ∃ result, (∀ after, entry (before ++ ending :: after) = result) ∧
    ∀ e, result = .error e → ∃ i token, i ≤ before.length ∧
      (∀ after, (before ++ ending :: after)[i]? = some token) ∧ e.found = some token

theorem found_before {used more : List Token} (split : before = used ++ more) :
    ∃ i token, i ≤ before.length ∧ (∀ after, (before ++ ending :: after)[i]? = some token) ∧
      (more ++ [ending]).head? = some token := by
  have here (after : List Token) :
      (before ++ ending :: after)[used.length]? = (more ++ [ending]).head? := by
    rw [split, List.append_assoc, List.getElem?_append_right (Nat.le_refl _), Nat.sub_self,
      ← List.head?_eq_getElem?]
    cases more <;> rfl
  obtain ⟨token, first⟩ : ∃ token, (more ++ [ending]).head? = some token := by
    cases more <;> exact ⟨_, rfl⟩
  exact ⟨used.length, token, by simp [split], fun after => (here after).trans first, first⟩

/-- An entry reads a body up to the end mark. -/
theorem EndsBefore.settles {read : Reader α} (ends : EndsBefore read before ending) (rule : Rule)
    (make : α → β) :
    Settles (fun tokens => rule.during (read tokens >>= fun body =>
      (expect .endOfInput body.2).outcome >>= fun _ => .ok (make body.1))) before ending := by
  cases ends with
  | failed cause context used more split again =>
    refine ⟨.error ⟨cause, rule :: context, (more ++ [ending]).head?⟩, fun after => ?_, ?_⟩
    · simp only [again after]
      rfl
    · rintro e ⟨⟩
      exact found_before split
  | took a used more split again =>
    by_cases close : ahead (more ++ [ending]) = some .endOfInput
    · refine ⟨.ok (make a), fun after => ?_, fun e same => by contradiction⟩
      simp only [again after, bind_ok, expect_eq, if_pos ((ahead_before_end ..).trans close)]
      rfl
    · refine ⟨.error ⟨.expected .endOfInput, [rule], (more ++ [ending]).head?⟩,
        fun after => ?_, ?_⟩
      · have other : ahead (more ++ ending :: after) ≠ some .endOfInput := by
          rwa [ahead_before_end]
        simp only [again after, bind_ok, expect_eq, if_neg other]
        cases more <;> rfl
      · rintro e ⟨⟩
        exact found_before split

theorem program_settles (limit : Nat) (sign : ending.kind = .endOfInput) :
    Settles (program limit) before ending := by
  have ends := (topLevel_fails limit (before ++ [ending])).inFront (statements_spares _ _)
    (fun _ _ _ within => within.1) sign
  rw [funext (program_eq limit)]
  exact ends.settles .program Stmt.block

theorem singleExpression_settles (limit : Nat) (sign : ending.kind = .endOfInput) :
    Settles (singleExpression limit) before ending := by
  have body := expression_fails (levels_fail limit limit) (before ++ [ending])
  have ends := body.inFront expression_spares (fun _ _ _ fails => fails.1) sign
  rw [funext (singleExpression_eq limit)]
  exact ends.settles .singleExpression id

/-- The token that an error names stands at or before the first end mark. -/
def NamesInFront (tokens : List Token) (e : SyntaxError) : Prop :=
  ∃ i token, tokens[i]? = some token ∧ e.found = some token ∧ e.span? = some token.span ∧
    ∀ earlier ∈ tokens.take i, earlier.kind ≠ .endOfInput

theorem Settles.same {entry : List Token → Except SyntaxError α}
    (settles : Settles entry before ending) (after : List Token) :
    entry (before ++ [ending] ++ after) = entry (before ++ [ending]) := by
  obtain ⟨result, same, _⟩ := settles
  rw [List.append_assoc]
  exact (same after).trans (same []).symm

theorem Settles.names {entry : List Token → Except SyntaxError α}
    (settles : Settles entry before ending) (free : ∀ token ∈ before, token.kind ≠ .endOfInput)
    (failed : entry (before ++ ending :: after) = .error e) :
    NamesInFront (before ++ ending :: after) e := by
  obtain ⟨result, same, named⟩ := settles
  obtain ⟨i, token, within, here, found⟩ := named e ((same after).symm.trans failed)
  refine ⟨i, token, here after, found, by rw [SyntaxError.span?, found]; rfl,
    fun earlier member => ?_⟩
  rw [List.take_append_of_le_length within] at member
  exact free earlier (List.mem_of_mem_take member)

/-- The parser does not see beyond an end mark: what stands behind the first one changes nothing,
and an error on tokens that hold an end mark names a token no later than the first. -/
theorem nothing_read_past_end (limit : Nat) :
    (∀ before ending after, ending.kind = .endOfInput →
      program limit (before ++ [ending] ++ after) = program limit (before ++ [ending]) ∧
        singleExpression limit (before ++ [ending] ++ after) =
          singleExpression limit (before ++ [ending])) ∧
    ∀ tokens, (∃ token ∈ tokens, token.kind = .endOfInput) → ∀ e,
      program limit tokens = .error e ∨ singleExpression limit tokens = .error e →
        NamesInFront tokens e := by
  constructor
  · intro before ending after sign
    exact ⟨(program_settles limit sign).same after, (singleExpression_settles limit sign).same after⟩
  · rintro tokens ⟨token, member, sign⟩ e failed
    have first : (tokens.find? fun token => decide (token.kind = .endOfInput)).isSome :=
      List.find?_isSome.mpr ⟨token, member, decide_eq_true sign⟩
    obtain ⟨ending, first⟩ := Option.isSome_iff_exists.mp first
    obtain ⟨ends, before, after, rfl, free⟩ := List.find?_eq_some_iff_append.mp first
    have sign := of_decide_eq_true ends
    have free : ∀ token ∈ before, token.kind ≠ .endOfInput := by simpa using free
    rcases failed with failed | failed
    · exact (program_settles limit sign).names free failed
    · exact (singleExpression_settles limit sign).names free failed

/-- The tokens of `{ (a`. -/
def openGroup : List Token := unplaced [.leftBrace, .leftParen, .identifier "a"]

def endMark : Token := ⟨.endOfInput, "", .point .start⟩

/-- The tokens of `); }` with an end mark. -/
def groupEnd : List Token :=
  unplaced [.rightParen, .semicolon, .rightBrace, .endOfInput]

/-- The error about the group. -/
def groupOpen : SyntaxError where
  cause := .expected .rightParen
  context := [.program, .statement, .block, .statement, .expressionStatement, .expression,
    .level .assignment, .level .logicalOr, .level .logicalAnd, .level .equality,
    .level .relational, .level .additive, .level .multiplicative, .level .primary]
  found := some endMark

/-- What would close the group stands behind the end mark. -/
theorem openGroup_refused : endMark.kind = .endOfInput ∧
    program 9 (openGroup ++ [endMark] ++ groupEnd) = program 9 (openGroup ++ [endMark]) ∧
    (∃ token ∈ openGroup ++ [endMark] ++ groupEnd, token.kind = .endOfInput) ∧
    program 9 (openGroup ++ [endMark] ++ groupEnd) = .error groupOpen ∧
    NamesInFront (openGroup ++ [endMark] ++ groupEnd) groupOpen := by
  have refused : program 9 (openGroup ++ [endMark] ++ groupEnd) = .error groupOpen := by cbv
  have ended : ∃ token ∈ openGroup ++ [endMark] ++ groupEnd, token.kind = .endOfInput :=
    ⟨endMark, by simp, rfl⟩
  exact ⟨rfl, ((nothing_read_past_end 9).1 openGroup endMark groupEnd rfl).1, ended, refused,
    (nothing_read_past_end 9).2 _ ended _ (.inl refused)⟩

end Grammar
end Scriptlet

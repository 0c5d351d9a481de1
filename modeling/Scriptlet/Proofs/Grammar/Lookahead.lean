import Scriptlet.Proofs.Grammar.Outcome

/-! Looking one token ahead. A rule reads tokens off the head of a list and sees the kind of the one
after them, but nothing beyond it: in front of any other tokens that go on with the same kind it
does the same, and an error then names the first of those. The lemmas here follow the combinators
that rules are made of. -/
namespace Scriptlet
namespace Grammar

/-- What reads tokens off the head of a list and leaves the rest. -/
abbrev Reader (α : Type) := List Token → Except SyntaxError (α × List Token)

theorem ahead_append (used : List Token) (same : ahead other = ahead rest) :
    ahead (used ++ other) = ahead (used ++ rest) := by
  cases used with
  | nil => exact same
  | cons token more => rfl

/-- How a reader ends, having seen one token more than it has read. Where it fails, `blame` holds
of the cause, of the rules around it and of the kinds of the tokens before the failure. -/
inductive Ends (blame : SyntaxError.Cause → List Rule → List Token.Kind → Prop) (read : Reader α)
    (tokens : List Token) : Prop where
  | took (a : α) (used rest : List Token) (split : tokens = used ++ rest)
      (again : ∀ other, ahead other = ahead rest → read (used ++ other) = .ok (a, other))
  | failed (cause : SyntaxError.Cause) (context : List Rule) (used rest : List Token)
      (split : tokens = used ++ rest)
      (again : ∀ other, ahead other = ahead rest →
        read (used ++ other) = .error ⟨cause, context, other.head?⟩)
      (blamed : blame cause context (used.map Token.kind))

namespace Ends

variable {blame blame' : SyntaxError.Cause → List Rule → List Token.Kind → Prop}
  {read : Reader α} {tokens : List Token}

theorem mono
    (weaker : ∀ cause context kinds, blame cause context kinds → blame' cause context kinds)
    (ends : Ends blame read tokens) : Ends blame' read tokens := by
  cases ends with
  | took a used rest split again => exact .took a used rest split again
  | failed cause context used rest split again blamed =>
    exact .failed cause context used rest split again (weaker _ _ _ blamed)

/-- A reader matters only on lists that begin with the same kind. -/
theorem congr (other : Reader α)
    (same : ∀ list, ahead list = ahead tokens → read list = other list)
    (ends : Ends blame other tokens) : Ends blame read tokens := by
  cases ends with
  | took a used rest split again =>
    refine .took a used rest split fun list next => ?_
    rw [same _ (split ▸ ahead_append used next), again list next]
  | failed cause context used rest split again blamed =>
    refine .failed cause context used rest split (fun list next => ?_) blamed
    rw [same _ (split ▸ ahead_append used next), again list next]

theorem done (a : α) : Ends blame (fun tokens => .ok (a, tokens)) tokens :=
  .took a [] tokens rfl fun _ _ => rfl

theorem stop (cause : SyntaxError.Cause) (blamed : blame cause [] []) :
    Ends blame (Grammar.stop cause : Reader α) tokens :=
  .failed cause [] [] tokens rfl (fun _ _ => rfl) blamed

theorem during (rule : Rule)
    (ends : Ends (fun cause context => blame cause (rule :: context)) read tokens) :
    Ends blame (fun tokens => rule.during (read tokens)) tokens := by
  cases ends with
  | took a used rest split again =>
    exact .took a used rest split fun list next => by rw [again list next, Rule.during_ok]
  | failed cause context used rest split again blamed =>
    refine .failed cause (rule :: context) used rest split (fun list next => ?_) blamed
    rw [again list next]
    rfl

/-- A reader that goes on as `onward` does behind a first token of this kind. -/
theorem token {token : Token} {after : List Token} (onward : Reader α)
    (same : ∀ (first : Token) (more : List Token), first.kind = token.kind →
      read (first :: more) = onward more)
    (ends : Ends (fun cause context kinds => blame cause context (token.kind :: kinds)) onward
      after) : Ends blame read (token :: after) := by
  cases ends with
  | took a used rest split again =>
    refine .took a (token :: used) rest (congrArg _ split) fun list next => ?_
    exact (same token _ rfl).trans (again list next)
  | failed cause context used rest split again blamed =>
    refine .failed cause context (token :: used) rest (congrArg _ split)
      (fun list next => ?_) blamed
    exact (same token _ rfl).trans (again list next)

/-- The second reader goes on where the first one has stopped. -/
theorem bind (next : α → Reader β) (first : Ends blame read tokens)
    (onward : ∀ a used rest, tokens = used ++ rest → read tokens = .ok (a, rest) →
      Ends (fun cause context kinds => blame cause context (used.map Token.kind ++ kinds))
        (next a) rest) :
    Ends blame (fun tokens => read tokens >>= fun result => next result.1 result.2) tokens := by
  cases first with
  | took a used rest split again =>
    have here : read tokens = .ok (a, rest) := split ▸ again rest rfl
    cases onward a used rest split here with
    | took b more rest' split' again' =>
      refine .took b (used ++ more) rest' (by rw [split, split', List.append_assoc]) ?_
      intro list same
      rw [List.append_assoc, again _ (split' ▸ ahead_append more same), bind_ok]
      exact again' list same
    | failed cause context more rest' split' again' blamed =>
      refine .failed cause context (used ++ more) rest'
        (by rw [split, split', List.append_assoc]) ?_ (by rwa [List.map_append])
      intro list same
      rw [List.append_assoc, again _ (split' ▸ ahead_append more same), bind_ok]
      exact again' list same
  | failed cause context used rest split again blamed =>
    refine .failed cause context used rest split (fun list same => ?_) blamed
    rw [again list same, bind_error]

/-- Where a token of the kind is missing, the error is about that. -/
theorem expect_unless {kind : Token.Kind}
    (blamed : ahead tokens ≠ some kind → blame (.expected kind) [] []) :
    Ends blame (fun tokens => (Grammar.expect kind tokens).outcome) tokens := by
  by_cases sign : ahead tokens = some kind
  · obtain ⟨token, after, rfl, rfl⟩ := ahead_eq_some_iff.mp sign
    refine .token (fun rest => .ok ((), rest)) (fun first more same => ?_) (done ())
    rw [expect_eq]
    exact if_pos (congrArg some same)
  · refine congr (Grammar.stop (.expected kind)) ?_ (stop _ (blamed sign))
    intro list same
    rw [expect_eq, if_neg (same ▸ sign)]

theorem expect {kind : Token.Kind} (blamed : blame (.expected kind) [] []) :
    Ends blame (fun tokens => (Grammar.expect kind tokens).outcome) tokens :=
  expect_unless fun _ => blamed

/-- A closing token ends what has been read. -/
theorem close {kind : Token.Kind} (a : α) (blamed : blame (.expected kind) [] []) :
    Ends blame (fun tokens => (Grammar.expect kind tokens).outcome >>= fun closing =>
      .ok (a, closing.2)) tokens :=
  bind (fun _ rest => .ok (a, rest)) (expect blamed) fun _ _ _ _ _ => done a

end Ends

end Grammar
end Scriptlet

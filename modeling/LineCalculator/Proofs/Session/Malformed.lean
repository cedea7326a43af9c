import LineCalculator.Proofs.Session.Failure
/-! # Malformed assignments

An assignment is malformed where it has no equals sign, nothing on one of its sides, or no name
before the sign. All of these are reported as errors of the assignment but one: where a name is to
be bound to nothing, the empty text is read as an expression, and its end comes too early.

* `IsMalformed line`: what a malformed assignment is.
* `IsClassified env line`: the line fails as an assignment just where it is malformed.
* `isClassified_iff`: that is so unless `LacksExpression line`.
-/

namespace LineCalculator
set_option autoImplicit false
open Text Expression Substitution

/-- No equals sign, or nothing on one of its sides, or no name before it. -/
inductive IsMalformed (line : String) : Prop
  | unsplit (h : '=' ∉ line.toList) : IsMalformed line
  | noName {expression : String} (h : assignmentParts? line = some ("", expression)) :
      IsMalformed line
  | noExpression {name : String} (h : assignmentParts? line = some (name, "")) : IsMalformed line
  | badName {name expression : String} (h : assignmentParts? line = some (name, expression))
      (hname : ¬ IsName name) : IsMalformed line

/-- A name is to be bound to nothing. -/
def LacksExpression (line : String) : Prop :=
  ∃ name, assignmentParts? line = some (name, "") ∧ IsName name

theorem LacksExpression.isMalformed {line : String} (h : LacksExpression line) :
    IsMalformed line :=
  let ⟨_, hp, _⟩ := h
  .noExpression hp

/-- What is malformed lacks an equals sign, a name or an expression. -/
theorem isMalformed_iff {line : String} :
    IsMalformed line ↔ ('=' ∉ line.toList ∨ HasBadName line) ∨ LacksExpression line := by
  rw [hasBadName_iff_parts]
  constructor
  · intro h
    cases h with
    | unsplit h => exact .inl (.inl h)
    | noName h => exact .inl (.inr ⟨_, _, h, by decide⟩)
    | @noExpression name h =>
      by_cases hn : IsName name
      · exact .inr ⟨name, h, hn⟩
      · exact .inl (.inr ⟨_, _, h, hn⟩)
    | badName h hn => exact .inl (.inr ⟨_, _, h, hn⟩)
  · rintro ((h | ⟨name, expression, hp, hn⟩) | h)
    · exact .unsplit h
    · exact .badName hp hn
    · exact h.isMalformed

section
variable [PatternCompiler]

/-- The line is refused as an assignment, whatever its expression. -/
def FailsAsAssignment (env : Environment) (line : String) : Prop :=
  ∃ e, (assign env line).result = .error e ∧ e.kind = .assignment

/-- The line is refused as an assignment just where it is malformed, and any other error is one of
an expression. -/
def IsClassified (env : Environment) (line : String) : Prop :=
  (FailsAsAssignment env line ↔ IsMalformed line) ∧
    ∀ e, (assign env line).result = .error e → e.kind ≠ .assignment →
      e.kind = .malformed ∨ e.kind = .unknownName ∨ e.kind = .domain

variable {env : Environment} {line expression : String} {e : LineError}

/-! ## The errors of an assignment -/

/-- No path through an expression ends in an error of the assignment around it. -/
theorem kind_ne_assignment_of_evaluate (h : (evaluate env expression).result = .error e) :
    e.kind ≠ .assignment := by
  rcases evaluate_error_cases h with ⟨refusal, rfl⟩ | ⟨cause, rfl, -⟩
  · intro hk
    cases hk
  · intro hk
    cases cause <;> cases hk

theorem failsAsAssignment_iff :
    FailsAsAssignment env line ↔ '=' ∉ line.toList ∨ HasBadName line := by
  rw [hasBadName_iff_parts]
  constructor
  · rintro ⟨e, he, hk⟩
    rcases assign_result_eq_error_iff.1 he with
      ⟨hsign, -⟩ | ⟨name, expression, hp, ⟨hn, -⟩ | ⟨-, hv⟩⟩
    · exact .inl hsign
    · exact .inr ⟨name, expression, hp, hn⟩
    · exact absurd hk (kind_ne_assignment_of_evaluate hv)
  · rintro (hsign | ⟨name, expression, hp, hn⟩)
    · exact ⟨_, assign_result_eq_error_iff.2 (.inl ⟨hsign, rfl⟩), rfl⟩
    · exact ⟨_, assign_result_eq_error_iff.2 (.inr ⟨_, _, hp, .inl ⟨hn, rfl⟩⟩), rfl⟩

/-! ## The gap -/

/-- The empty text ends too early, unless the search for names fails before it is read. -/
theorem evaluate_empty (env : Environment) : ∃ cause,
    (evaluate env "").result = .error (.invalidExpression "" cause) ∧
      (Searchable env → cause = .unexpectedEnd 0) ∧
      ∀ name, missing? env = some name → cause = .unsubstituted name := by
  cases hm : missing? env with
  | none =>
    have hsearch := (missing?_eq_none_iff env).1 hm
    exact ⟨_, evaluate_eq_error_iff.2 (.inr ⟨hsearch, _, rfl, rfl⟩), fun _ => rfl, nofun⟩
  | some name =>
    have hnot := not_searchable_iff.2 ⟨name, hm⟩
    refine ⟨_, evaluate_eq_error_iff.2 (.inl ⟨name, hm, rfl⟩), fun h => absurd h hnot, ?_⟩
    rintro _ ⟨⟩
    rfl

theorem LacksExpression.result_eq (h : LacksExpression line) :
    (assign env line).result = .error e ↔ (evaluate env "").result = .error e := by
  obtain ⟨name, hp, hn⟩ := h
  rw [assign_of_parts hp, assignTo_result_eq_error_iff]
  simp [hn]

theorem LacksExpression.not_failsAsAssignment (h : LacksExpression line) :
    ¬ FailsAsAssignment env line := by
  rintro ⟨e, he, hk⟩
  exact kind_ne_assignment_of_evaluate (h.result_eq.1 he) hk

/-- Malformed assignments are classified as such, but for a name that is to be bound to nothing.
That one fails as the expression that it lacks. Whatever else is wrong with a line is an error of
the expression after its first equals sign. -/
theorem isClassified_iff (env : Environment) (line : String) :
    (IsClassified env line ↔ ¬ LacksExpression line) ∧
    (LacksExpression line → ∃ cause,
      (assign env line).result = .error (.invalidExpression "" cause) ∧
        (Searchable env → cause = .unexpectedEnd 0) ∧
        ∀ name, missing? env = some name → cause = .unsubstituted name) ∧
    (FailsAsAssignment env line ↔ '=' ∉ line.toList ∨ HasBadName line) ∧
    ∀ e, (assign env line).result = .error e → e.kind ≠ .assignment →
      (∃ name expression, assignmentParts? line = some (name, expression) ∧ IsName name ∧
        (evaluate env expression).result = .error e) ∧
      (e.kind = .malformed ∨ e.kind = .unknownName ∨ e.kind = .domain) := by
  have hothers : ∀ e : LineError, e.kind ≠ .assignment →
      e.kind = .malformed ∨ e.kind = .unknownName ∨ e.kind = .domain := by
    intro e
    cases e.kind <;> simp
  refine ⟨⟨?_, ?_⟩, ?_, failsAsAssignment_iff, ?_⟩
  · rintro ⟨hfails, -⟩ hlacks
    exact hlacks.not_failsAsAssignment (hfails.2 hlacks.isMalformed)
  · intro hlacks
    refine ⟨?_, fun e _ hk => hothers e hk⟩
    rw [failsAsAssignment_iff, isMalformed_iff, or_iff_left hlacks]
  · intro hlacks
    obtain ⟨cause, he, hcause⟩ := evaluate_empty env
    exact ⟨cause, hlacks.result_eq.2 he, hcause⟩
  · intro e he hk
    refine ⟨?_, hothers e hk⟩
    rcases assign_result_eq_error_iff.1 he with
      ⟨-, rfl⟩ | ⟨name, expression, hp, ⟨-, rfl⟩ | ⟨hn, hv⟩⟩
    · exact absurd rfl hk
    · exact absurd rfl hk
    · exact ⟨name, expression, hp, hn, hv⟩

end

attribute [local instance] PatternCompiler.bySize in
theorem not_isClassified_blank_side : ¬ IsClassified .standard "x =" := by
  rintro ⟨hfails, -⟩
  have hp : assignmentParts? "x =" = some ("x", "") := by decide +kernel
  have hlacks : LacksExpression "x =" := ⟨"x", hp, by decide⟩
  exact hlacks.not_failsAsAssignment (hfails.2 hlacks.isMalformed)

end LineCalculator

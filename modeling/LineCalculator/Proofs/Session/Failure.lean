import LineCalculator.Proofs.Grammar.Failure
import LineCalculator.Proofs.Session.Assignment
import LineCalculator.Proofs.Substitution.Compiled
/-! # What a line reports

A line fails on the name it is to bind, or as the one expression fails that it has evaluated.

* `Evaluates line expression`: the line has that expression evaluated.
* `HasBadName`, `RefusesIn`: the name before the first equals sign is none; a factorial refuses its
  argument.
* `evaluate_error_cases`, `evaluate_eq_domain_iff`: the errors of an expression.
* `respond_eq_error_iff`: the errors of a line.
* `failed_line`: the errors that a line of a session can report, and the kind of each.
-/

namespace LineCalculator
set_option autoImplicit false
open Text Expression Substitution

/-- A text that is neither blank nor a command. -/
def IsExpression (text : List Char) : Prop :=
  text ≠ [] ∧ ∀ command ∈ ["exit", "help", ":vars"], isCommand command text = false

/-- The expression that a line has evaluated: the line, or what stands after its first equals
sign. -/
inductive Evaluates (line : String) : String → Prop
  | line (hequals : '=' ∉ line.toList) (h : IsExpression (trim line.toList)) :
      Evaluates line (String.ofList (trim line.toList))
  | assigned {name expression : String} (h : assignmentParts? line = some (name, expression))
      (hname : IsName name) : Evaluates line expression

/-- What stands before the first equals sign is no name. -/
def HasBadName (line : String) : Prop :=
  ∃ left right, line.toList = left ++ '=' :: right ∧ '=' ∉ left ∧
    ¬ IsName (String.ofList (trim left))

/-- In the course of a line a factorial is applied to an argument that it refuses. -/
def RefusesIn [PatternCompiler] (env : Environment) (line : String) (refusal : DomainError) :
    Prop :=
  ∃ expression text, Evaluates line expression ∧
    (search env expression.toList).result = .ok text ∧ RefusesFactorial env text refusal

variable {env : Environment} {line : String} {e : LineError}

/-! ## Expressions -/

section
variable [PatternCompiler] {expression : String}

/-- A refused argument keeps its own error; any other error carries the expression. -/
theorem evaluate_error_cases (h : (evaluate env expression).result = .error e) :
    (∃ refusal, e = .domain refusal) ∨
      ∃ cause, e = .invalidExpression expression cause ∧ (∀ refusal, cause ≠ .domain refusal) ∧
        ∀ name, cause = .unsubstituted name ↔ missing? env = some name := by
  rcases evaluate_eq_error_iff.1 h with ⟨name, hname, rfl⟩ | ⟨hsearch, cause, hread, rfl⟩
  · exact .inr ⟨_, rfl, nofun, by simp [hname]⟩
  have hfound := (missing?_eq_none_iff env).2 hsearch
  have hsubstituted : ∀ name, cause ≠ .unsubstituted name := by
    rintro name rfl
    exact read_ne_unsubstituted name hread
  cases cause with
  | domain refusal => exact .inl ⟨refusal, rfl⟩
  | _ => exact .inr ⟨_, rfl, by simp, by simp [hfound, hsubstituted]⟩

theorem evaluate_eq_domain_iff {refusal : DomainError} :
    (evaluate env expression).result = .error (.domain refusal) ↔
      ∃ text, (search env expression.toList).result = .ok text ∧
        RefusesFactorial env text refusal := by
  simp only [search_eq_ok_iff, ← read_eq_domain_iff]
  rw [evaluate_eq_error_iff]
  constructor
  · rintro (⟨name, -, he⟩ | ⟨hsearch, cause, hread, he⟩)
    · cases he
    cases cause with
    | domain refusal' =>
      cases he
      exact ⟨_, ⟨hsearch, rfl⟩, hread⟩
    | _ => cases he
  · rintro ⟨_, ⟨hsearch, rfl⟩, hread⟩
    exact .inr ⟨hsearch, _, hread, rfl⟩

end

/-! ## Lines -/

theorem map_result_eq_error {α β : Type} {s : Step α} {f : α → β} :
    (s.map f).result = .error e ↔ s.result = .error e := by
  unfold Step.map
  cases s.result <;> simp [Except.map]

theorem result_ofLogged {α : Type} (l : Logged LineError α) :
    (Step.ofLogged env l).result = l.result := rfl

theorem hasBadName_iff_parts : HasBadName line ↔
    ∃ name expression, assignmentParts? line = some (name, expression) ∧ ¬ IsName name := by
  constructor
  · rintro ⟨left, right, hline, hleft, hn⟩
    exact ⟨_, _, assignmentParts?_eq_some_iff.2 ⟨left, right, ⟨hline, hleft⟩, rfl, rfl⟩, hn⟩
  · rintro ⟨name, expression, hp, hn⟩
    obtain ⟨left, right, ⟨hline, hleft⟩, rfl, -⟩ := assignmentParts?_eq_some_iff.1 hp
    exact ⟨left, right, hline, hleft, hn⟩

theorem Evaluates.eq_trim {expression : String} (h : Evaluates line expression) :
    '=' ∉ line.toList ∧ expression = String.ofList (trim line.toList) ∨
      ∃ left right, line.toList = left ++ '=' :: right ∧ '=' ∉ left ∧
        expression = String.ofList (trim right) := by
  cases h with
  | line hequals => exact .inl ⟨hequals, rfl⟩
  | assigned hp =>
    obtain ⟨left, right, ⟨hline, hleft⟩, -, rfl⟩ := assignmentParts?_eq_some_iff.1 hp
    exact .inr ⟨left, right, hline, hleft, rfl⟩

theorem kind_eq_unknownName_iff :
    e.kind = .unknownName ↔ ∃ name position, e.cause = some (.unknownName name position) := by
  cases e with
  | invalidExpression expression cause => cases cause <;> simp [LineError.kind, LineError.cause]
  | _ => simp [LineError.kind, LineError.cause]

theorem kind_eq_malformed_iff :
    e.kind = .malformed ↔ e.kind ≠ .domain ∧ e.kind ≠ .unknownName ∧ e.kind ≠ .assignment := by
  cases e.kind <;> decide

section
variable [PatternCompiler]

/-- A line without an equals sign is answered at once or it is an expression. -/
theorem respondTrimmed_of_no_equals {text : List Char} (h : '=' ∉ text) :
    (¬ IsExpression text ∧ ∃ reply, respondTrimmed env text = .value env reply) ∨
      (IsExpression text ∧ respondTrimmed env text =
        (Step.ofLogged env (evaluate env (String.ofList text))).map .value) := by
  unfold respondTrimmed
  split
  · rename_i hc
    refine .inl ⟨fun he => ?_, _, rfl⟩
    rw [he.2 "exit" (by simp)] at hc
    cases hc
  rename_i hexit
  split
  · rename_i hc
    refine .inl ⟨fun he => ?_, _, rfl⟩
    rw [he.2 "help" (by simp)] at hc
    cases hc
  rename_i hhelp
  split
  · rename_i hc
    refine .inl ⟨fun he => ?_, _, rfl⟩
    rw [he.2 ":vars" (by simp)] at hc
    cases hc
  rename_i hvars
  split
  · rename_i hnil
    exact .inl ⟨fun he => he.1 hnil, _, rfl⟩
  rename_i hne
  refine .inr ⟨⟨hne, ?_⟩, rfl⟩
  simp only [List.forall_mem_cons, List.not_mem_nil, false_implies, implies_true, and_true]
  exact ⟨Bool.eq_false_iff.2 hexit, Bool.eq_false_iff.2 hhelp, Bool.eq_false_iff.2 hvars⟩

/-- A line fails on a bad name, or as the expression fails that it has evaluated. -/
theorem respond_eq_error_iff : (respond env line).result = .error e ↔
    (∃ name expression, assignmentParts? line = some (name, expression) ∧ ¬ IsName name ∧
      e = .invalidName name) ∨
    ∃ expression, Evaluates line expression ∧ (evaluate env expression).result = .error e := by
  by_cases h : '=' ∈ line.toList
  · obtain ⟨left, right, hline, hleft⟩ := List.eq_append_cons_of_mem h
    have hp : assignmentParts? line =
        some (String.ofList (trim left), String.ofList (trim right)) :=
      assignmentParts?_eq_some_iff.2 ⟨left, right, ⟨hline, hleft⟩, rfl, rfl⟩
    rw [respond_of_equals h, map_result_eq_error,
      assign_of_parts ((assignmentParts?_trim line).trans hp), assignTo_result_eq_error_iff]
    constructor
    · rintro (⟨hn, he⟩ | ⟨hn, he⟩)
      · exact .inl ⟨_, _, hp, hn, he⟩
      · exact .inr ⟨_, .assigned hp hn, he⟩
    · rintro (⟨name, expression, hp', hn, he⟩ | ⟨expression, hexpression, he⟩)
      · cases hp.symm.trans hp'
        exact .inl ⟨hn, he⟩
      · cases hexpression with
        | line hequals => exact absurd h hequals
        | assigned hp' hn =>
          cases hp.symm.trans hp'
          exact .inr ⟨hn, he⟩
  · have htrim : '=' ∉ trim line.toList := by rwa [mem_trim_iff (by decide)]
    have hparts : assignmentParts? line = none := by
      rw [assignmentParts?, splitAssignment?_eq_none_iff.2 h]
      rfl
    rw [hparts, respond]
    rcases respondTrimmed_of_no_equals htrim with ⟨hnot, reply, hr⟩ | ⟨hexpression, hr⟩
    · rw [hr]
      constructor
      · intro he
        cases he
      · rintro (⟨name, expression, hp, -⟩ | ⟨expression, hexpression, -⟩)
        · cases hp
        · cases hexpression with
          | line _ hexpression => exact absurd hexpression hnot
          | assigned hp =>
            rw [hparts] at hp
            cases hp
    · rw [hr, map_result_eq_error, result_ofLogged]
      constructor
      · intro he
        exact .inr ⟨_, .line h hexpression, he⟩
      · rintro (⟨name, expression, hp, -⟩ | ⟨expression, hexpression, he⟩)
        · cases hp
        · cases hexpression with
          | line => exact he
          | assigned hp =>
            rw [hparts] at hp
            cases hp

theorem respond_eq_domain_iff {refusal : DomainError} :
    (respond env line).result = .error (.domain refusal) ↔ RefusesIn env line refusal := by
  rw [respond_eq_error_iff]
  constructor
  · rintro (⟨name, expression, -, -, he⟩ | ⟨expression, hexpression, he⟩)
    · cases he
    · obtain ⟨text, hrefuses⟩ := evaluate_eq_domain_iff.1 he
      exact ⟨expression, text, hexpression, hrefuses⟩
  · rintro ⟨expression, text, hexpression, hrefuses⟩
    exact .inr ⟨expression, hexpression, evaluate_eq_domain_iff.2 ⟨text, hrefuses⟩⟩

variable (env) in
theorem hasBadName_iff : HasBadName line ↔
    ∃ name, (respond env line).result = .error (.invalidName name) := by
  rw [hasBadName_iff_parts]
  constructor
  · rintro ⟨name, expression, hp, hn⟩
    exact ⟨name, respond_eq_error_iff.2 (.inl ⟨name, expression, hp, hn, rfl⟩)⟩
  · rintro ⟨name, h⟩
    rcases respond_eq_error_iff.1 h with ⟨name', expression, hp, hn, -⟩ | ⟨expression, -, he⟩
    · exact ⟨name', expression, hp, hn⟩
    · rcases evaluate_error_cases he with ⟨refusal, he⟩ | ⟨cause, he, -⟩
      · cases he
      · cases he

theorem respond_error_cases (h : (respond env line).result = .error e) :
    (∃ name, e = .invalidName name) ∨ (∃ refusal, e = .domain refusal) ∨
      ∃ expression cause, Evaluates line expression ∧ e = .invalidExpression expression cause ∧
        (∀ refusal, cause ≠ .domain refusal) ∧
          ∀ name, cause = .unsubstituted name ↔ missing? env = some name := by
  rcases respond_eq_error_iff.1 h with ⟨name, -, -, -, he⟩ | ⟨expression, hexpression, he⟩
  · exact .inl ⟨name, he⟩
  · rcases evaluate_error_cases he with hrefusal | ⟨cause, hcause⟩
    · exact .inr (.inl hrefusal)
    · exact .inr (.inr ⟨expression, cause, hexpression, hcause⟩)

/-! ## Kinds -/

section
variable (h : (respond env line).result = .error e)
include h

theorem kind_eq_domain_iff : e.kind = .domain ↔ ∃ refusal, RefusesIn env line refusal := by
  constructor
  · intro hk
    rcases respond_error_cases h with
      ⟨name, rfl⟩ | ⟨refusal, rfl⟩ | ⟨expression, cause, -, rfl, hdomain, -⟩
    · cases hk
    · exact ⟨refusal, respond_eq_domain_iff.1 h⟩
    · cases cause with
      | domain refusal => exact absurd rfl (hdomain refusal)
      | _ => cases hk
  · rintro ⟨refusal, hrefuses⟩
    rw [respond_eq_domain_iff.2 hrefuses] at h
    cases h
    rfl

theorem kind_eq_assignment_iff : e.kind = .assignment ↔ HasBadName line := by
  constructor
  · intro hk
    rcases respond_error_cases h with
      ⟨name, rfl⟩ | ⟨refusal, rfl⟩ | ⟨expression, cause, -, rfl, -⟩
    · exact (hasBadName_iff env).2 ⟨name, h⟩
    · cases hk
    · cases cause <;> cases hk
  · intro hbad
    obtain ⟨name, hname⟩ := (hasBadName_iff env).1 hbad
    rw [hname] at h
    cases h
    rfl

end

/-- What a line of a session can report. It is never that an equals sign is missing and never a
refused argument as the cause of another error, and it repeats the expression as it was typed. A
name is reported as left in the text just where no pattern is made for it, and not at all as long
as the bound names can be looked for. A refused argument is reported just where a factorial was
applied to it, and a bad assignment just where no name stands before the first equals sign. -/
theorem failed_line {start : Environment} {lines : List String}
    (h : (respond (afterLines start lines) line).result = .error e) :
    (∀ text, e ≠ .invalidAssignment text) ∧
    (∀ expression cause, e = .invalidExpression expression cause →
      (∀ refusal, cause ≠ .domain refusal) ∧
        (∀ name, cause = .unsubstituted name ↔ missing? (afterLines start lines) = some name) ∧
        (Searchable (afterLines start lines) → ∀ name, cause ≠ .unsubstituted name) ∧
        ('=' ∉ line.toList ∧ expression = String.ofList (trim line.toList) ∨
          ∃ left right, line.toList = left ++ '=' :: right ∧ '=' ∉ left ∧
            expression = String.ofList (trim right))) ∧
    (e.kind = .domain ↔ ∃ refusal, RefusesIn (afterLines start lines) line refusal) ∧
    (e.kind = .unknownName ↔ ∃ name position, e.cause = some (.unknownName name position)) ∧
    (e.kind = .assignment ↔ HasBadName line) ∧
    (e.kind = .malformed ↔
      (¬ ∃ refusal, RefusesIn (afterLines start lines) line refusal) ∧
        (¬ ∃ name position, e.cause = some (.unknownName name position)) ∧
          ¬ HasBadName line) := by
  refine ⟨?_, ?_, kind_eq_domain_iff h, kind_eq_unknownName_iff, kind_eq_assignment_iff h, ?_⟩
  · rintro text rfl
    rcases respond_error_cases h with ⟨name, he⟩ | ⟨refusal, he⟩ | ⟨expression, cause, -, he, -⟩
    · cases he
    · cases he
    · cases he
  · rintro expression cause rfl
    rcases respond_error_cases h with
      ⟨name, he⟩ | ⟨refusal, he⟩ | ⟨expression', cause', hexpression, he, hdomain, hsubstituted⟩
    · cases he
    · cases he
    · cases he
      refine ⟨hdomain, hsubstituted, fun hsearch name hcause => ?_, hexpression.eq_trim⟩
      have hmissing := (hsubstituted name).1 hcause
      rw [(missing?_eq_none_iff _).2 hsearch] at hmissing
      cases hmissing
  · rw [kind_eq_malformed_iff, ← kind_eq_domain_iff h, ← kind_eq_unknownName_iff,
      ← kind_eq_assignment_iff h]

end

attribute [local instance] PatternCompiler.bySize in
/-- The refused argument may stand deep in an assignment and depend on the lines before. -/
theorem failed_line_fact :
    (respond (afterLines .standard ["x = 1.5"]) " y = 2 * (1 + fact -x) = ").result =
      .error (.domain (.negativeFactorial (-1.5))) ∧
    ∃ refusal, RefusesIn (afterLines .standard ["x = 1.5"])
      " y = 2 * (1 + fact -x) = " refusal := by
  have h : (respond (afterLines .standard ["x = 1.5"]) " y = 2 * (1 + fact -x) = ").result =
      .error (.domain (.negativeFactorial (-1.5))) := by decide +kernel
  exact ⟨h, (failed_line h).2.2.1.1 rfl⟩

end LineCalculator

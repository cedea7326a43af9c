import LineCalculator.Proofs.Grammar.Interruption
import LineCalculator.Proofs.Session.Failure
import LineCalculator.Proofs.Substitution.Mention
import LineCalculator.Proofs.Substitution.Parentheses
/-! # The log of an evaluation

What an evaluation logs is a warning if the bound names have no pattern together, then the text
that it reads, and then the factorials that it applies, in the order in which their arguments are
complete. An assignment adds the binding that it makes.

* `Warns env events`: what is logged about the patterns.
* `Traces env text xs events`: what is logged of a text whose factorials are those of `xs`.
* `traces_evaluate`: what is logged of an expression whose names are found.
* `assign_events`: the events of the expression, then the binding.
* `log_is_trace`: the log of an expression with a value, of one without, and of an assignment.
* `evaluate_longNames`: names that lead to the warning.
-/

namespace LineCalculator
set_option autoImplicit false
open Expression Substitution

/-! ## Traces -/

section
variable [PatternCompiler] {env : Environment} {expression line name : String} {v : Float}

/-- What is logged about the patterns: nothing, or that none is made for all bound names. -/
inductive Warns (env : Environment) : List Event → Prop
  | nothing (h : env.bindings = [] ∨ Compiles (triedNames env)) : Warns env []
  | rejected {reason : String} {event : Event} (hne : env.bindings ≠ [])
      (h : refusal? (triedNames env) = some reason)
      (hevent : Says event .warn ("combined pattern for " ++ toString env.bindings.length ++
        " variables rejected (" ++ reason ++ "), substituting one at a time")) : Warns env [event]

/-- What is logged of a text: about the patterns, the text itself, and the factorials one by one. -/
inductive Traces (env : Environment) (text : List Char) (xs : List FactorTree) : List Event → Prop
  | intro {warnings events : List Event} {opening : Event} (hwarnings : Warns env warnings)
      (hopening : Says opening .debug ("evaluating " ++ String.ofList text))
      (hevents : List.Forall₂ (Reports env) xs events) :
      Traces env text xs (warnings ++ opening :: events)

theorem warns_rejections (env : Environment) : Warns env (rejections env) := by
  rw [rejections]
  split
  · rename_i hnil
    exact .nothing (.inl hnil)
  · rename_i hne
    cases h : refusal? (triedNames env) with
    | none => exact .nothing (.inr h)
    | some reason => exact .rejected hne h ⟨rfl, rfl⟩

/-- Where a name is not found there is no pattern for all of them either. -/
theorem exists_rejections_eq (h : missing? env = some name) :
    ∃ warning, rejections env = [warning] := by
  rw [missing?] at h
  split at h
  · cases h
  · rename_i hnot
    obtain ⟨hne, hc⟩ := not_or.1 hnot
    obtain ⟨reason, hreason⟩ := Option.ne_none_iff_exists'.1 hc
    refine ⟨.patternRejected env.size reason, ?_⟩
    rw [rejections, if_neg hne, hreason]
    rfl

theorem traces_evaluate {xs : List FactorTree} (hsearch : Searchable env)
    (h : List.Forall₂ (Reports env) xs (read env (substitute env expression.toList)).events) :
    Traces env (substitute env expression.toList) xs (evaluate env expression).events := by
  rw [hsearch.evaluate_eq]
  exact .intro (warns_rejections env) ⟨rfl, rfl⟩ h

/-! ## Assignments -/

omit [PatternCompiler] in
theorem bindingEvent_cases (env : Environment) (name : String) (v : Float) :
    (∃ previous, env.get? name = some previous ∧ Says (bindingEvent env name v) .debug
        (name ++ ": " ++ Layout.plain.text previous ++ " -> " ++ Layout.plain.text v)) ∨
      (env.get? name = none ∧ Says (bindingEvent env name v) .debug
        (name ++ " bound to " ++ Layout.plain.text v)) := by
  rw [bindingEvent]
  cases env.get? name with
  | some previous => exact .inl ⟨previous, rfl, rfl, rfl⟩
  | none => exact .inr ⟨rfl, rfl, rfl⟩

/-- The expression is evaluated, and then the name is bound, and nothing else is logged. -/
theorem assign_events (h : (assign env line).result = .ok (name, v)) :
    ∃ expression, assignmentParts? line = some (name, expression) ∧
      (evaluate env expression).result = .ok v ∧
      (assign env line).events = (evaluate env expression).events ++ [bindingEvent env name v] := by
  obtain ⟨expression, hp, hn, hv⟩ := assign_result_eq_ok_iff.1 h
  refine ⟨expression, hp, hv, ?_⟩
  rw [assign_of_parts hp, assignTo, dif_pos hn, hv]

/-! ## The log -/

/-- The log is the trace of the evaluation. An expression with a value logs its text and then, for
each factorial of its derivation, the product or that it is not formed: inner factorials before
the ones around them, left ones before right ones. An expression without a value logs its text and
then those that were complete before the error, and not the one that is refused. They are the
first ones of a derivation that begins as the text does. An assignment logs what its expression
does and then the binding, with the value before it if there was one. Before all this stands a
warning if no pattern is made for all bound names together, and it stands alone if one of them has
no pattern of its own either. -/
theorem log_is_trace (env : Environment) :
    (∀ expression v, (evaluate env expression).result = .ok v →
      (∃ e : SumTree, e.Derives env (substitute env expression.toList)) ∧
      ∀ e : SumTree, e.Derives env (substitute env expression.toList) →
        (e.value env.lookup).result = .ok v ∧
        Traces env (substitute env expression.toList) e.factorials
          (evaluate env expression).events) ∧
    (∀ expression error, (evaluate env expression).result = .error error →
      (∃ name warning, missing? env = some name ∧
        .invalidExpression expression (.unsubstituted name) = error ∧
        (evaluate env expression).events = [warning] ∧ Warns env [warning]) ∨
      ∃ cause, (read env (substitute env expression.toList)).result = .error cause ∧
        LineError.ofExpression expression cause = error ∧
        (∃ xs, CompletedBefore env (substitute env expression.toList) cause xs) ∧
        ∀ xs, CompletedBefore env (substitute env expression.toList) cause xs →
          (∃ (a : List Char) (e : SumTree), a <+: substitute env expression.toList ∧
            (∀ l ∈ e.lexemes, l.Resolved env) ∧ tokenTexts a <+: e.lexemes.map Lexeme.text ∧
            xs <+: e.factorials) ∧
          Traces env (substitute env expression.toList) xs (evaluate env expression).events) ∧
    ∀ line name v, (assign env line).result = .ok (name, v) →
      ∃ expression event, assignmentParts? line = some (name, expression) ∧
        (evaluate env expression).result = .ok v ∧
        (assign env line).events = (evaluate env expression).events ++ [event] ∧
        ((∃ previous, env.get? name = some previous ∧ Says event .debug
            (name ++ ": " ++ Layout.plain.text previous ++ " -> " ++ Layout.plain.text v)) ∨
          (env.get? name = none ∧ Says event .debug
            (name ++ " bound to " ++ Layout.plain.text v))) := by
  refine ⟨?_, ?_, ?_⟩
  · intro expression v h
    obtain ⟨hsearch, h⟩ := evaluate_eq_ok_iff.1 h
    obtain ⟨e, he, -⟩ := exists_derives_of_read h
    refine ⟨⟨e, he⟩, fun e he => ⟨?_, traces_evaluate hsearch (reports_of_derives he h)⟩⟩
    rw [read_eq_value he.tokenTexts_eq he.resolved he.depth_le] at h
    exact Logged.result_mapError_eq_ok.1 h
  · intro expression error h
    rcases evaluate_eq_error_iff.1 h with ⟨name, hname, he⟩ | ⟨hsearch, cause, hread, hcause⟩
    · obtain ⟨warning, hwarning⟩ := exists_rejections_eq hname
      refine .inl ⟨name, warning, hname, he, ?_, hwarning ▸ warns_rejections env⟩
      rw [evaluate_of_missing hname, hwarning]
    · refine .inr ⟨cause, hread, hcause, exists_completedBefore hread, fun xs hxs => ?_⟩
      exact ⟨hxs.exists_factorials, traces_evaluate hsearch hxs.reports⟩
  · intro line name v h
    obtain ⟨expression, hp, hv, hevents⟩ := assign_events h
    exact ⟨expression, _, hp, hv, hevents, bindingEvent_cases env name v⟩

end

section BySize
attribute [local instance] PatternCompiler.bySize

example : (evaluate .standard "fact fact 2 - fact(1) * fact(0 - 1) + fact 4").events =
    [.evaluating "fact fact 2 - fact(1) * fact(0 - 1) + fact 4", .factorial 2 2, .factorial 2 2,
      .factorial 1 1] := by
  decide +kernel

/-! ## Names that are too long together -/

theorem isName_replicate {c : Char} (hc : c.isAlpha = true) {n : Nat} (hn : n ≠ 0) :
    IsName (String.ofList (List.replicate n c)) := by
  rw [IsName, String.toList_ofList]
  refine ⟨mt (List.replicate_eq_nil_iff c).1 hn, fun d hd => ?_⟩
  rw [List.eq_of_mem_replicate hd]
  exact hc

theorem replicate_lt_replicate {c d : Char} (h : c < d) {n : Nat} (hn : n ≠ 0) :
    String.ofList (List.replicate n c) < String.ofList (List.replicate n d) := by
  obtain ⟨k, rfl⟩ := Nat.exists_eq_succ_of_ne_zero hn
  rw [String.lt_iff_toList_lt, String.toList_ofList, String.toList_ofList, List.replicate_succ,
    List.replicate_succ]
  exact List.Lex.rel h

/-- Two names of `n` letters each. -/
def longNames (n : Nat) (hn : n ≠ 0) : Environment where
  bindings := [(String.ofList (List.replicate n 'H'), 1), (String.ofList (List.replicate n 'J'), 1)]
  named := List.forall_mem_cons.2 ⟨isName_replicate (by decide) hn,
    List.forall_mem_singleton.2 (isName_replicate (by decide) hn)⟩
  ascending := List.pairwise_pair.2 (replicate_lt_replicate (by decide) hn)

section
variable {n : Nat} {hn : n ≠ 0}

theorem searchable_longNames (h : 32 * n ≤ patternBudget) : Searchable (longNames n hn) := by
  rw [searchable_bySize_iff]
  simpa [longNames] using h

theorem rejections_longNames (h : patternBudget < 136 * n) : rejections (longNames n hn) =
    [.patternRejected 2 "Compiled regex exceeds size limit of 67108864 bytes."] := by
  have hne : (longNames n hn).bindings ≠ [] := List.cons_ne_nil _ _
  have htwo : ((longNames n hn).bindings.map Prod.fst).length ≠ 1 := Nat.succ_ne_self 1
  have hsize : patternSize (triedNames (longNames n hn)) = 68 * (n + n) := by
    rw [patternSize_triedNames, patternSize_of_ne htwo]
    simp [longNames, letters]
  have hnot : ¬ patternSize (triedNames (longNames n hn)) ≤ patternBudget := by omega
  rw [rejections, refusal?_bySize, if_neg hne, if_neg hnot]
  rfl

end

/-- Together they have no pattern, but each of them has one: an expression has a value, and its
first event is a warning. -/
theorem evaluate_longNames :
    (evaluate (longNames 1100000 (by decide)) "1").result = .ok 1 ∧
      ∃ warning opening,
        (evaluate (longNames 1100000 (by decide)) "1").events = [warning, opening] ∧
        Says warning .warn ("combined pattern for 2 variables rejected (Compiled regex exceeds " ++
          "size limit of 67108864 bytes.), substituting one at a time") ∧
        Says opening .debug "evaluating 1" := by
  have hone : "1".toList = render 1 := by decide +kernel
  have hkept (env : Environment) : substitute env "1".toList = "1".toList :=
    (unbound_of_no_letter env (by decide)).substitute_eq
  have hread (env : Environment) : read env "1".toList = .value 1 := hone ▸ read_render_eq env 1
  rw [(searchable_longNames (by decide)).evaluate_eq, hkept, hread,
    rejections_longNames (by decide)]
  exact ⟨rfl, _, _, rfl, ⟨rfl, by decide⟩, ⟨rfl, rfl⟩⟩

end BySize

end LineCalculator

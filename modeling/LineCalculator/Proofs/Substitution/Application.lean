import LineCalculator.Proofs.Grammar.Composite
import LineCalculator.Proofs.Substitution.Mention
import LineCalculator.Proofs.Substitution.Parentheses
/-! # Applying a function to an expression

A name is resolved twice: bound names are replaced before the text is read, and what is left is a
function first and a variable second. So a function is applied unless its own name is bound. In that
case its value stands before the parenthesis, and no expression goes on like that.

* `application f expression`: the function applied to the expression in parentheses.
* `substitute_application`: substitution works on the name and on the expression.
* `evaluate_application`: the value of the application, from that of the expression.
-/

namespace LineCalculator.Substitution
set_option autoImplicit false
open Text Expression

variable {env : Environment} {f : Builtin} {expression : String} {v x : Float}

def application (f : Builtin) (expression : String) : String := f.name ++ "(" ++ expression ++ ")"

theorem toList_application (f : Builtin) (expression : String) :
    (application f expression).toList = f.name.toList ++ '(' :: (expression.toList ++ [')']) := by
  simp [application]

/-! ## Substitution -/

theorem substitute_application (env : Environment) (f : Builtin) (text : List Char) :
    substitute env (f.name.toList ++ '(' :: (text ++ [')'])) =
      replace env f.name.toList ++ '(' :: (substitute env text ++ [')']) := by
  have hname : ∀ c ∈ f.name.toList, isWord c = true := fun c hc =>
    isWord_of_isAlpha (isAlpha_of_isLower (isLower_of_mem_name f c hc))
  have hopen : isWord '(' = false := by decide
  rw [substitute_word_append env hname (name_toList_ne_nil f) (fun c hc => by cases hc; exact hopen),
    substitute_group]

theorem replace_of_get? (h : env.get? f.name = some x) : replace env f.name.toList = render x := by
  rw [replace, String.ofList_toList, h]

section
variable [PatternCompiler]

/-- The text of the application, as it is read. -/
theorem evaluate_application_eq (h : Searchable env) (f : Builtin) (expression : String) :
    (evaluate env (application f expression)).result =
      (read env (replace env f.name.toList ++
        '(' :: (substitute env expression.toList ++ [')']))).result.mapError
          (LineError.ofExpression (application f expression)) := by
  rw [← substitute_application, ← toList_application, h.evaluate_eq]
  rfl

/-! ## A bound name -/

/-- A value does not run together with a parenthesis, and is complete before it. -/
theorem evaluate_application_of_bound (hsearch : Searchable env) (h : env.get? f.name = some x)
    (expression : String) :
    (evaluate env (application f expression)).result =
      .error (.invalidExpression (application f expression)
        (.trailingInput '(' (byteLength (render x)))) := by
  rw [evaluate_application_eq hsearch, replace_of_get? h,
    read_append_trailing (read_render env x) (Apart.before_char _ _ (by decide)) (by decide)]
  rfl

/-! ## A function -/

section Function
variable (hsearch : Searchable env) (hf : env.get? f.name = none) {e : SumTree}
  (he : e.Derives env (substitute env expression.toList))
  (hv : (e.value env.lookup).result = .ok v)
include hsearch hf he hv

theorem evaluate_application_of_fits (hd : e.depth + 2 ≤ maxOpenFactors) :
    (evaluate env (application f expression)).result = (f.apply v).result.mapError .domain := by
  rw [evaluate_application_eq hsearch, replace, String.ofList_toList, hf,
    he.result_read_call hv hd]
  cases (f.apply v).result with
  | ok y => rfl
  | error e => rfl

theorem failsTooDeep_application (hd : maxOpenFactors < e.depth + 2) :
    FailsTooDeep (evaluate env (application f expression)) := by
  have hname : replace env f.name.toList = f.name.toList := by
    rw [replace, String.ofList_toList, hf]
  rw [failsTooDeep_iff, reading, toList_application, substitute_application, hname]
  exact ⟨hsearch, he.outcome_read_call hv hd⟩

end Function

/-- A function that is not itself bound is applied to the value of an expression, whatever other
functions are bound, unless the two levels that the application adds nest too deeply. A bound one is
not applied: its value stands before the parenthesis, where the reader stops. -/
theorem evaluate_application (h : (evaluate env expression).result = .ok v) :
    (env.get? f.name = none →
      (evaluate env (application f expression)).result = (f.apply v).result.mapError .domain ∨
        FailsTooDeep (evaluate env (application f expression)) ∧
          ∃ e : SumTree, e.Derives env (substitute env expression.toList) ∧
            maxOpenFactors < e.depth + 2) ∧
    ∀ x, env.get? f.name = some x →
      (evaluate env (application f expression)).result =
        .error (.invalidExpression (application f expression)
          (.trailingInput '(' (byteLength (render x)))) := by
  obtain ⟨hsearch, hread⟩ := evaluate_eq_ok_iff.1 h
  refine ⟨fun hf => ?_, fun x hx => evaluate_application_of_bound hsearch hx expression⟩
  obtain ⟨e, he, hv⟩ := exists_derives_of_read hread
  by_cases hd : e.depth + 2 ≤ maxOpenFactors
  · exact .inl (evaluate_application_of_fits hsearch hf he hv hd)
  · have hdeep := Nat.not_le.1 hd
    exact .inr ⟨failsTooDeep_application hsearch hf he hv hdeep, e, he, hdeep⟩

end

section
attribute [local instance] PatternCompiler.bySize

/-- With `sin` bound and `fact` not, `fact(sin + 1)` is a factorial. -/
theorem evaluate_fact_of_sin :
    (evaluate (.ofList [("sin", 2)]) "sin + 1").result = .ok 3 ∧
      (Environment.ofList [("sin", 2)]).get? "fact" = none ∧
      (evaluate (.ofList [("sin", 2)]) "fact(sin + 1)").result = .ok 6 := by
  have hv : (evaluate (.ofList [("sin", 2)]) "sin + 1").result = .ok 3 := by decide +kernel
  have hf : (Environment.ofList [("sin", 2)]).get? Builtin.fact.name = none := by decide +kernel
  have hsix : (Builtin.fact.apply 3).result.mapError LineError.domain = .ok 6 := by decide +kernel
  have hshallow : reading (.ofList [("sin", 2)]) (application .fact "sin + 1") ≠ .tooDeep := by
    decide +kernel
  refine ⟨hv, hf, ?_⟩
  rcases (evaluate_application (f := .fact) hv).1 hf with h | ⟨h, -⟩
  · exact h.trans hsix
  · exact absurd (failsTooDeep_iff.1 h).2 hshallow

/-- With `abs` bound, `abs(1)` is neither the absolute value nor nested too deeply. -/
theorem bound_function_is_not_applied :
    (evaluate (.ofList [("abs", 3)]) "1").result = .ok 1 ∧
      ¬ ((evaluate (.ofList [("abs", 3)]) (application .abs "1")).result =
          (Builtin.abs.apply 1).result.mapError .domain ∨
        FailsTooDeep (evaluate (.ofList [("abs", 3)]) (application .abs "1"))) := by
  have hv : (evaluate (.ofList [("abs", 3)]) "1").result = .ok 1 := by decide +kernel
  have he : (evaluate (.ofList [("abs", 3)]) (application .abs "1")).result =
      .error (.invalidExpression "abs(1)" (.trailingInput '(' 1)) := by decide +kernel
  refine ⟨hv, ?_⟩
  rintro (h | ⟨e, position, h, hc⟩)
  · rw [he] at h
    cases h
  · rw [he] at h
    cases h
    cases hc

end

end LineCalculator.Substitution

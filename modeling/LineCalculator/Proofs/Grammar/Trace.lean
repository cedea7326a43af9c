import LineCalculator.Proofs.Factorial
import LineCalculator.Proofs.Grammar.Beginning
import LineCalculator.Proofs.Grammar.Failure
/-! # The factorials of a derivation, in the order of the log

A function is applied when the last lexeme of its argument has been read, so that what reading a
text reports is a walk over its derivation: what is inside an argument first, and the left operand
before the right one.

* `factorials`: the arguments of the factorials of a phrase in that order.
* `completions`: the lexemes of a phrase, each with the arguments that are complete with it.
* `Applied`, `Refused`: the factorial of an argument is defined, or the argument is refused.
* `Says event severity message`: how important an event is, and its text.
* `Reports env x event`: what is logged of the factorial of `x`.
* `Completes env s l xs`: in the state `s` the lexeme `l` completes the arguments `xs`.
* `SumTree.completes`: what the next lexeme of a derivation completes.
* `SumTree.reports_of_run`: what a beginning of a derivation reports.
-/

namespace LineCalculator.Expression
set_option autoImplicit false
open Text
open scoped Nat

/-! ## The order of the applications -/

/-- The argument of a function, if the function is the factorial. -/
def factorialOf (f : Builtin) (x : FactorTree) : List FactorTree := if f = .fact then [x] else []

mutual
def SumTree.factorials : SumTree → List FactorTree
  | .term t => t.factorials
  | .add e _ t => e.factorials ++ t.factorials
def TermTree.factorials : TermTree → List FactorTree
  | .factor x => x.factorials
  | .scale t _ x => t.factorials ++ x.factorials
def FactorTree.factorials : FactorTree → List FactorTree
  | .sign _ x => x.factorials
  | .group e => e.factorials
  | .number _ => []
  | .name _ => []
  | .call f x => x.factorials ++ factorialOf f x
end

mutual
def SumTree.completions : SumTree → List (Lexeme × List FactorTree)
  | .term t => t.completions
  | .add e s t => e.completions ++ (s.mark, []) :: t.completions
def TermTree.completions : TermTree → List (Lexeme × List FactorTree)
  | .factor x => x.completions []
  | .scale t o x => t.completions ++ (o.mark, []) :: x.completions []
/-- The factor completes the arguments `xs`, besides those within it. -/
def FactorTree.completions : FactorTree → List FactorTree → List (Lexeme × List FactorTree)
  | .sign s x, xs => (s.mark, []) :: x.completions xs
  | .group e, xs => (.mark '(', []) :: (e.completions ++ [(.mark ')', xs)])
  | .number n, xs => [(.numeral n, xs)]
  | .name a, xs => [(.name a, xs)]
  | .call f x, xs => (.function f, []) :: x.completions (factorialOf f x ++ xs)
end

mutual
theorem SumTree.map_fst_completions (e : SumTree) : e.completions.map Prod.fst = e.lexemes := by
  cases e with
  | term t => exact t.map_fst_completions
  | add e s t =>
    rw [SumTree.completions, List.map_append, List.map_cons, e.map_fst_completions,
      t.map_fst_completions, SumTree.lexemes]
theorem TermTree.map_fst_completions (t : TermTree) : t.completions.map Prod.fst = t.lexemes := by
  cases t with
  | factor x => exact x.map_fst_completions []
  | scale t o x =>
    rw [TermTree.completions, List.map_append, List.map_cons, t.map_fst_completions,
      x.map_fst_completions, TermTree.lexemes]
theorem FactorTree.map_fst_completions (x : FactorTree) (xs : List FactorTree) :
    (x.completions xs).map Prod.fst = x.lexemes := by
  cases x with
  | sign s x =>
    rw [FactorTree.completions, List.map_cons, x.map_fst_completions, FactorTree.lexemes]
  | group e =>
    rw [FactorTree.completions, List.map_cons, List.map_append, e.map_fst_completions,
      FactorTree.lexemes]
    rfl
  | number n => rfl
  | name a => rfl
  | call f x =>
    rw [FactorTree.completions, List.map_cons, x.map_fst_completions, FactorTree.lexemes]
end

mutual
/-- Lexeme by lexeme the arguments are completed in their order. -/
theorem SumTree.flatMap_snd_completions (e : SumTree) :
    e.completions.flatMap Prod.snd = e.factorials := by
  cases e with
  | term t => exact t.flatMap_snd_completions
  | add e s t =>
    rw [SumTree.completions, List.flatMap_append, List.flatMap_cons, e.flatMap_snd_completions,
      t.flatMap_snd_completions, SumTree.factorials, List.nil_append]
theorem TermTree.flatMap_snd_completions (t : TermTree) :
    t.completions.flatMap Prod.snd = t.factorials := by
  cases t with
  | factor x => exact (x.flatMap_snd_completions []).trans (List.append_nil _)
  | scale t o x =>
    rw [TermTree.completions, List.flatMap_append, List.flatMap_cons, t.flatMap_snd_completions,
      x.flatMap_snd_completions, TermTree.factorials, List.nil_append, List.append_nil]
theorem FactorTree.flatMap_snd_completions (x : FactorTree) (xs : List FactorTree) :
    (x.completions xs).flatMap Prod.snd = x.factorials ++ xs := by
  cases x with
  | sign s x =>
    rw [FactorTree.completions, List.flatMap_cons, x.flatMap_snd_completions,
      FactorTree.factorials, List.nil_append]
  | group e =>
    rw [FactorTree.completions, List.flatMap_cons, List.flatMap_append, e.flatMap_snd_completions,
      FactorTree.factorials, List.flatMap_singleton, List.nil_append]
  | number n => exact List.flatMap_singleton _ _
  | name a => exact List.flatMap_singleton _ _
  | call f x =>
    rw [FactorTree.completions, List.flatMap_cons, x.flatMap_snd_completions,
      FactorTree.factorials, List.nil_append, List.append_assoc]
end

/-! ## What an application reports -/

variable {env : Environment} {x : FactorTree} {y z : Float} {refusal : DomainError}

/-- The factorial of the value of `x` is defined. -/
def Applied (env : Environment) (x : FactorTree) : Prop :=
  ∃ y z, (x.value env.lookup).result = .ok y ∧ (Builtin.factorial y).result = .ok z

/-- The value of `x` is refused by the factorial. -/
def Refused (env : Environment) (x : FactorTree) (refusal : DomainError) : Prop :=
  ∃ y, (x.value env.lookup).result = .ok y ∧ (Builtin.factorial y).result = .error refusal

/-- The event has this severity and this message. -/
def Says (event : Event) (severity : Severity) (message : String) : Prop :=
  event.severity = severity ∧ event.message = message

/-- What is logged of the factorial of `x`: the product, as long as it is formed, and otherwise a
warning. -/
inductive Reports (env : Environment) (x : FactorTree) (event : Event) : Prop
  | exact {y : Float} {n : Nat} (hx : (x.value env.lookup).result = .ok y)
      (hfin : Double.isFinite y = true) (hy : Double.value y = n) (hn : n ≤ Factorial.maxExact)
      (hevent : Says event .info ("Factorial Result > " ++ Factorial.summary n n !))
  | huge {y : Float} {n : Nat} (hx : (x.value env.lookup).result = .ok y)
      (hfin : Double.isFinite y = true) (hy : Double.value y = n) (hn : Factorial.maxExact < n)
      (hevent : Says event .warn ("fact(" ++ Layout.plain.text y ++ ") exceeds " ++
        toString Factorial.maxExact ++ ", result is infinite"))
  | infinite {y : Float} (hx : (x.value env.lookup).result = .ok y)
      (hy : y = Double.ofRank false Double.infinityRank)
      (hevent : Says event .warn ("fact(" ++ Layout.plain.text y ++ ") exceeds " ++
        toString Factorial.maxExact ++ ", result is infinite"))

theorem not_applied_of_refused (h : Refused env x refusal) : ¬ Applied env x := by
  obtain ⟨y, hy, he⟩ := h
  rintro ⟨y', z, hy', hz⟩
  rw [hy] at hy'
  cases hy'
  rw [he] at hz
  cases hz

theorem Reports.applied {event : Event} (h : Reports env x event) : Applied env x := by
  cases h with
  | exact hx hfin hy _ _ => exact ⟨_, _, hx, (Builtin.factorial_of_natural hfin hy).1⟩
  | huge hx hfin hy _ _ => exact ⟨_, _, hx, (Builtin.factorial_of_natural hfin hy).1⟩
  | infinite hx hy _ =>
    exact ⟨_, _, hx, congrArg Logged.result (Builtin.factorial_of_infinite hy).1⟩

theorem reports_factorial (hx : (x.value env.lookup).result = .ok y)
    (hz : (Builtin.factorial y).result = .ok z) :
    List.Forall₂ (Reports env) [x] (Builtin.factorial y).events := by
  rcases Builtin.argument_cases y with h0 | ⟨h0, hy⟩ | hy | ⟨n, hfin, hn⟩
  · rw [(Builtin.factorial_of_lt_zero h0).1] at hz
    cases hz
  · rw [(Builtin.factorial_of_not_whole h0 hy).1] at hz
    cases hz
  · rw [(Builtin.factorial_of_infinite hy).1]
    exact .cons (.infinite hx hy ⟨rfl, rfl⟩) .nil
  · rw [Builtin.factorial_of_value hfin hn]
    by_cases hbig : Factorial.maxExact < n
    · rw [if_pos hbig]
      exact .cons (.huge hx hfin hn hbig ⟨rfl, rfl⟩) .nil
    · rw [if_neg hbig]
      exact .cons (.exact hx hfin hn (Nat.not_lt.1 hbig) ⟨rfl, rfl⟩) .nil

/-- A refused argument is not reported. -/
theorem events_factorial_of_error (h : (Builtin.factorial y).result = .error refusal) :
    (Builtin.factorial y).events = [] := by
  rcases Builtin.argument_cases y with h0 | ⟨h0, hy⟩ | hy | ⟨n, hfin, hn⟩
  · rw [(Builtin.factorial_of_lt_zero h0).1]
    rfl
  · rw [(Builtin.factorial_of_not_whole h0 hy).1]
    rfl
  · rw [(Builtin.factorial_of_infinite hy).1] at h
    cases h
  · rw [(Builtin.factorial_of_natural hfin hn).1] at h
    cases h

theorem reports_apply {f : Builtin} (hx : (x.value env.lookup).result = .ok y)
    (hz : (f.apply y).result = .ok z) :
    List.Forall₂ (Reports env) (factorialOf f x) (f.apply y).events := by
  cases f with
  | fact => exact reports_factorial hx hz
  | _ => exact .nil

/-! ## What waits around a factor -/

/-- The arguments of the factorials that wait around a factor, innermost first. -/
def pending : List Waiting → FactorTree → List FactorTree
  | [], _ => []
  | .sign s :: ws, x => pending ws (.sign s x)
  | .call f :: ws, x => factorialOf f x ++ pending ws (.call f x)

theorem reports_applyAll {ws : List Waiting} (hx : (x.value env.lookup).result = .ok y)
    (hz : (Waiting.applyAll ws y).result = .ok z) :
    List.Forall₂ (Reports env) (pending ws x) (Waiting.applyAll ws y).events := by
  induction ws generalizing x y with
  | nil => exact .nil
  | cons w ws ih =>
    obtain ⟨y', hy', hws⟩ := Logged.result_bind_eq_ok.1 hz
    rw [Waiting.applyAll, Logged.events_bind hy']
    cases w with
    | sign s =>
      cases hy'
      exact ih (x := .sign s x) (Logged.result_bind_eq_ok.2 ⟨y, hx, rfl⟩) hws
    | call f =>
      exact List.rel_append (reports_apply hx hy')
        (ih (x := .call f x) (Logged.result_bind_eq_ok.2 ⟨y, hx, hy'⟩) hws)

/-- What was applied before the refused argument is reported, and nothing else. -/
theorem refused_applyAll {ws : List Waiting} (hx : (x.value env.lookup).result = .ok y)
    (he : (Waiting.applyAll ws y).result = .error refusal) :
    ∃ done x' rest, pending ws x = done ++ x' :: rest ∧ Refused env x' refusal ∧
      List.Forall₂ (Reports env) done (Waiting.applyAll ws y).events := by
  induction ws generalizing x y with
  | nil => cases he
  | cons w ws ih =>
    rcases Logged.result_bind_eq_error.1 he with hw | ⟨y', hy', hws⟩
    · cases w with
      | sign s => cases hw
      | call f =>
        obtain rfl := eq_fact_of_apply hw
        refine ⟨[], x, _, rfl, ⟨y, hx, hw⟩, ?_⟩
        rw [Waiting.applyAll, Logged.bind_of_error hw]
        exact List.forall₂_nil_left_iff.2 (events_factorial_of_error hw)
    · rw [Waiting.applyAll, Logged.events_bind hy']
      cases w with
      | sign s =>
        cases hy'
        exact ih (x := .sign s x) (Logged.result_bind_eq_ok.2 ⟨y, hx, rfl⟩) hws
      | call f =>
        obtain ⟨done, x', rest, hpending, hrefused, hdone⟩ :=
          ih (x := .call f x) (Logged.result_bind_eq_ok.2 ⟨y, hx, hy'⟩) hws
        refine ⟨factorialOf f x ++ done, x', rest, ?_, hrefused,
          List.rel_append (reports_apply hx hy') hdone⟩
        rw [pending, hpending, List.append_assoc]

/-! ## One lexeme -/

/-- What a lexeme completes: the operand of what waits, or nothing. -/
inductive Completes (env : Environment) (s : State) (l : Lexeme) : List FactorTree → Prop
  | operand {level : Level} {outer : List Level} {x : FactorTree} {y : Float}
      (hstep : ∀ t : Token, t.run.text = l.text → s.step env t = level.supply outer y)
      (hx : (x.value env.lookup).result = .ok y) : Completes env s l (pending level.waiting x)
  | nothing (hevents : ∀ t : Token, t.run.text = l.text → (s.step env t).events = [])
      (hresult : ∀ t : Token, t.run.text = l.text → ∀ refusal,
        (s.step env t).result ≠ .error (.domain refusal)) : Completes env s l []

section Step
variable {level : Level} {outer : List Level} {s s' : State} {l : Lexeme} {t : Token}
  {xs : List FactorTree}

theorem Completes.of_value {f : Token → State}
    (h : ∀ t : Token, t.run.text = l.text → s.step env t = .value (f t)) :
    Completes env s l [] := by
  refine .nothing ?_ ?_
  · intro t ht
    rw [h t ht]
    rfl
  · intro t ht refusal he
    rw [h t ht] at he
    cases he

theorem Completes.of_descend
    (h : ∀ t : Token, t.run.text = l.text → s.step env t = State.descend level outer t.stop) :
    Completes env s l [] := by
  refine .nothing ?_ ?_
  · intro t ht
    rw [h t ht, State.descend]
    split
    · rfl
    · rfl
  · intro t ht refusal he
    rw [h t ht] at he
    obtain ⟨-, he⟩ := descend_eq_error he
    cases he

theorem events_supply (level : Level) (outer : List Level) (y : Float) :
    (level.supply outer y).events = (Waiting.applyAll level.waiting y).events := by
  rw [Level.supply]
  cases h : (Waiting.applyAll level.waiting y).result with
  | ok z =>
    rw [Logged.events_bind (Logged.result_mapError_eq_ok.2 h)]
    exact List.append_nil _
  | error e =>
    rw [Logged.bind_of_error (Logged.result_mapError_eq_error.2 ⟨e, h, rfl⟩)]
    rfl

theorem Completes.reports (h : Completes env s l xs) (ht : t.run.text = l.text)
    (hs : (s.step env t).result = .ok s') :
    List.Forall₂ (Reports env) xs (s.step env t).events := by
  cases h with
  | operand hstep hx =>
    rw [hstep t ht] at hs ⊢
    obtain ⟨z, hz, -⟩ := Logged.result_bind_eq_ok.1 hs
    rw [events_supply]
    exact reports_applyAll hx (Logged.result_mapError_eq_ok.1 hz)
  | nothing hevents _ => exact List.forall₂_nil_left_iff.2 (hevents t ht)

theorem Completes.refused (h : Completes env s l xs) (ht : t.run.text = l.text)
    (he : (s.step env t).result = .error (.domain refusal)) :
    ∃ done x rest, xs = done ++ x :: rest ∧ Refused env x refusal ∧
      List.Forall₂ (Reports env) done (s.step env t).events := by
  cases h with
  | operand hstep hx =>
    rw [hstep t ht] at he ⊢
    rcases Logged.result_bind_eq_error.1 he with he | ⟨z, -, he⟩
    · obtain ⟨refusal', he, heq⟩ := Logged.result_mapError_eq_error.1 he
      cases heq
      rw [events_supply]
      exact refused_applyAll hx he
    · cases he
  | nothing _ hresult => exact absurd he (hresult t ht refusal)

end Step

/-! ## The lexemes of a phrase -/

mutual
/-- What the next lexeme of a derivation completes. -/
theorem SumTree.completes (e : SumTree) {outer : List Level} {ts : List Token} {s' : State}
    {before after : List (Lexeme × List FactorTree)} {l : Lexeme} {xs : List FactorTree}
    (he : e.completions = before ++ (l, xs) :: after)
    (hts : ts.map (fun t => t.run.text) = before.map fun c => c.1.text)
    (hr : ∀ l ∈ e.lexemes, l.Resolved env)
    (h : ((State.due .fresh outer).run env ts).result = .ok s') : Completes env s' l xs := by
  cases e with
  | term t => exact TermTree.completes t he hts hr h
  | add e s t =>
    simp only [SumTree.lexemes, List.forall_mem_append, List.forall_mem_cons] at hr
    rcases split_append_cons he with ⟨mid, he⟩ | ⟨rfl, hl⟩ | ⟨mid, rfl, ht⟩
    · exact SumTree.completes e he hts hr.1 h
    · cases hl
      obtain ⟨sum, y, -, rfl⟩ :=
        e.complete_of_run (texts_of_map_fst e.map_fst_completions hts) hr.1 h
      exact .of_value fun u hu => step_add hu
    · rw [List.map_append] at hts
      obtain ⟨ts₁, u, ts₂, rfl, h₁, hu, h₂⟩ := exists_of_map_eq_append_cons hts
      obtain ⟨s₁, hs₁, h⟩ := result_run_append h
      obtain ⟨sum, y, -, rfl⟩ :=
        e.complete_of_run (texts_of_map_fst e.map_fst_completions h₁) hr.1 hs₁
      obtain ⟨s₂, hs₂, h⟩ := result_run_cons h
      rw [step_add hu] at hs₂
      cases hs₂
      exact TermTree.completes t ht h₂ hr.2.2 h

theorem TermTree.completes (t : TermTree) {sum : Option (Float × Sign)} {outer : List Level}
    {ts : List Token} {s' : State} {before after : List (Lexeme × List FactorTree)} {l : Lexeme}
    {xs : List FactorTree} (ht : t.completions = before ++ (l, xs) :: after)
    (hts : ts.map (fun t => t.run.text) = before.map fun c => c.1.text)
    (hr : ∀ l ∈ t.lexemes, l.Resolved env)
    (h : ((State.due ⟨sum, none, []⟩ outer).run env ts).result = .ok s') :
    Completes env s' l xs := by
  cases t with
  | factor x =>
    have hx : x.completions (pending (⟨sum, none, []⟩ : Level).waiting x) =
        before ++ (l, xs) :: after := ht
    exact FactorTree.completes x hx hts hr h
  | scale t o x =>
    simp only [TermTree.lexemes, List.forall_mem_append, List.forall_mem_cons] at hr
    rcases split_append_cons ht with ⟨mid, ht⟩ | ⟨rfl, hl⟩ | ⟨mid, rfl, hx⟩
    · exact TermTree.completes t ht hts hr.1 h
    · cases hl
      obtain ⟨y, -, rfl⟩ :=
        t.complete_of_run (texts_of_map_fst t.map_fst_completions hts) hr.1 h
      exact .of_value fun u hu => step_scale hu
    · rw [List.map_append] at hts
      obtain ⟨ts₁, u, ts₂, rfl, h₁, hu, h₂⟩ := exists_of_map_eq_append_cons hts
      obtain ⟨s₁, hs₁, h⟩ := result_run_append h
      obtain ⟨y, -, rfl⟩ :=
        t.complete_of_run (texts_of_map_fst t.map_fst_completions h₁) hr.1 hs₁
      obtain ⟨s₂, hs₂, h⟩ := result_run_cons h
      rw [step_scale hu] at hs₂
      cases hs₂
      have hx' : x.completions (pending (⟨sum, some (y, o), []⟩ : Level).waiting x) =
          mid ++ (l, xs) :: after := hx
      exact FactorTree.completes x hx' h₂ hr.2.2 h

theorem FactorTree.completes (x : FactorTree) {level : Level} {outer : List Level}
    {ts : List Token} {s' : State} {before after : List (Lexeme × List FactorTree)} {l : Lexeme}
    {xs : List FactorTree}
    (hx : x.completions (pending level.waiting x) = before ++ (l, xs) :: after)
    (hts : ts.map (fun t => t.run.text) = before.map fun c => c.1.text)
    (hr : ∀ l ∈ x.lexemes, l.Resolved env)
    (h : ((State.due level outer).run env ts).result = .ok s') : Completes env s' l xs := by
  cases before with
  | nil =>
    obtain rfl := List.map_eq_nil_iff.1 hts
    cases h
    cases x with
    | sign s x =>
      cases hx
      exact .of_descend fun u hu => step_sign hu
    | group e =>
      cases hx
      exact .of_descend fun u hu => step_open hu
    | number n =>
      cases hx
      exact .operand (fun u hu => step_numeral hu) rfl
    | name a =>
      cases hx
      exact .operand (fun u hu => step_name hu (hr _ List.mem_cons_self)) rfl
    | call f x =>
      cases hx
      exact .of_descend fun u hu => step_function hu
  | cons c before =>
    obtain ⟨u, us, rfl, hu, hus⟩ := List.map_eq_cons_iff.1 hts
    obtain ⟨s₁, hs₁, h⟩ := result_run_cons h
    cases x with
    | sign s x =>
      obtain ⟨rfl, hrest⟩ := List.cons.inj hx
      rw [step_sign hu] at hs₁
      obtain ⟨-, rfl⟩ := descend_ok hs₁
      exact FactorTree.completes x hrest hus (List.forall_mem_cons.1 hr).2 h
    | group e =>
      obtain ⟨rfl, hrest⟩ := List.cons.inj hx
      rw [step_open hu] at hs₁
      obtain ⟨-, rfl⟩ := descend_ok hs₁
      simp only [FactorTree.lexemes, List.forall_mem_append, List.forall_mem_cons] at hr
      rcases split_append_cons hrest with ⟨mid, he⟩ | ⟨rfl, hl⟩ | ⟨mid, -, hnil⟩
      · exact SumTree.completes e he hus hr.2.1 h
      · cases hl
        obtain ⟨sum, y, hy, rfl⟩ :=
          e.complete_of_run (texts_of_map_fst e.map_fst_completions hus) hr.2.1 h
        exact .operand (x := .group e) (fun u hu => step_close hu) hy
      · cases mid <;> cases hnil
    | number n =>
      obtain ⟨rfl, hrest⟩ := List.cons.inj hx
      cases before <;> cases hrest
    | name a =>
      obtain ⟨rfl, hrest⟩ := List.cons.inj hx
      cases before <;> cases hrest
    | call f x =>
      obtain ⟨rfl, hrest⟩ := List.cons.inj hx
      rw [step_function hu] at hs₁
      obtain ⟨-, rfl⟩ := descend_ok hs₁
      have hx' : x.completions (pending (level.await (.call f)).waiting x) =
          before ++ (l, xs) :: after := hrest
      exact FactorTree.completes x hx' hus (List.forall_mem_cons.1 hr).2 h
end

/-- As far as a derivation was read, the factorials that are complete were reported. -/
theorem SumTree.reports_of_run (e : SumTree) {ts : List Token} {s : State}
    {before after : List (Lexeme × List FactorTree)} (he : e.completions = before ++ after)
    (hts : ts.map (fun t => t.run.text) = before.map fun c => c.1.text)
    (hr : ∀ l ∈ e.lexemes, l.Resolved env) (h : (State.start.run env ts).result = .ok s) :
    List.Forall₂ (Reports env) (before.flatMap Prod.snd) (State.start.run env ts).events := by
  induction before using List.reverseRecOn generalizing ts s after with
  | nil =>
    obtain rfl := List.map_eq_nil_iff.1 hts
    exact .nil
  | append_singleton before c ih =>
    rw [List.map_append] at hts
    obtain ⟨us, u, vs, rfl, hus, hu, hvs⟩ := exists_of_map_eq_append_cons hts
    obtain rfl := List.map_eq_nil_iff.1 hvs
    obtain ⟨s₁, hs₁, h⟩ := result_run_append h
    rw [List.append_assoc] at he
    have hc : Completes env s₁ c.1 c.2 := e.completes he hus hr hs₁
    rw [State.run_cons] at h
    obtain ⟨s₂, hs₂, -⟩ := Logged.result_bind_eq_ok.1 h
    rw [State.run_append, Logged.events_bind hs₁, State.run_cons, Logged.events_bind hs₂,
      List.flatMap_append, List.flatMap_singleton, State.run_nil, Logged.value, List.append_nil]
    exact List.rel_append (ih he hus hs₁) (hc.reports hu hs₂)

end LineCalculator.Expression

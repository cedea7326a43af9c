import LineCalculator.Proofs.Grammar.Opening
import LineCalculator.Proofs.Grammar.Outcome
/-! # Trees that open too many factors

A phrase whose applications are all in their domains is read to its end when its factors fit, and
ends in too deep a nesting when they do not, whatever else is in it. It ends right after the first
sign, parenthesis or function that opens a factor within which no operand is admitted.

* `SumTree.outcome_run`, `TermTree.outcome_run`, `FactorTree.outcome_run`: the factors fit.
* `FirstOpening n os ts t`: `t` is the token of the first lexeme that opens the factor number `n`.
* `SumTree.run_overflow`, `TermTree.run_overflow`, `FactorTree.run_overflow`: they do not, and
  where.
* `FactorTree.run_tooDeep`: the same, the place left out.
-/

namespace LineCalculator.Expression
set_option autoImplicit false

variable {env : Environment} {outer : List Level} {ts : List Token} {y : Float}

theorem outcome_mapError_bind {l : Logged DomainError Float}
    {f : Float → Logged ExpressionError State} (h : l.result = .ok y) :
    outcome ((l.mapError .domain).bind f) = outcome (f y) := by
  have hl : outcome (l.mapError ExpressionError.domain) = .reached y :=
    outcome_eq_reached.2 (Logged.result_mapError_eq_ok.2 h)
  rw [outcome_bind, hl, Outcome.reached_bind]

/-! ## Factors that fit -/

theorem FactorTree.outcome_run {x : FactorTree} {level : Level}
    (hts : ts.map (fun t => t.run.text) = x.lexemes.map Lexeme.text)
    (hr : ∀ l ∈ x.lexemes, l.Resolved env) (hv : (x.value env.lookup).result = .ok y)
    (hd : openFactors level outer + x.depth ≤ maxOpenFactors) :
    outcome ((State.due level outer).run env ts) = outcome (level.supply outer y) := by
  rw [x.run_eq hts hr hd, outcome_mapError_bind hv]

theorem TermTree.outcome_run {t : TermTree} {sum : Option (Float × Sign)}
    (hts : ts.map (fun t => t.run.text) = t.lexemes.map Lexeme.text)
    (hr : ∀ l ∈ t.lexemes, l.Resolved env) (hv : (t.value env.lookup).result = .ok y)
    (hd : openFactors ⟨sum, none, []⟩ outer + t.depth ≤ maxOpenFactors) :
    outcome ((State.due ⟨sum, none, []⟩ outer).run env ts) = .reached (.complete sum y outer) := by
  rw [t.run_eq hts hr hd, outcome_mapError_bind hv, outcome_value]

theorem SumTree.outcome_run {e : SumTree}
    (hts : ts.map (fun t => t.run.text) = e.lexemes.map Lexeme.text)
    (hr : ∀ l ∈ e.lexemes, l.Resolved env) (hv : (e.value env.lookup).result = .ok y)
    (hd : openFactors .fresh outer + e.depth ≤ maxOpenFactors) :
    ∃ sum z, total sum z = y ∧
      outcome ((State.due .fresh outer).run env ts) = .reached (.complete sum z outer) := by
  rw [e.value_eq_parts] at hv
  obtain ⟨p, hp, hpy⟩ := Logged.result_bind_eq_ok.1 hv
  refine ⟨p.1, p.2, Except.ok.inj hpy, ?_⟩
  have hl : outcome ((e.parts env.lookup).mapError ExpressionError.domain) = .reached p :=
    outcome_eq_reached.2 (Logged.result_mapError_eq_ok.2 hp)
  rw [e.run_eq hts hr hd, outcome_bind, hl, Outcome.reached_bind, outcome_value]

/-! ## The first lexeme that opens so many factors -/

inductive FirstOpening (n : Nat) : List (Lexeme × Option Nat) → List Token → Token → Prop
  | here {l : Lexeme} {os : List (Lexeme × Option Nat)} {ts : List Token} {t : Token} :
      FirstOpening n ((l, some n) :: os) (t :: ts) t
  | later {o : Lexeme × Option Nat} {os : List (Lexeme × Option Nat)} {u : Token} {ts : List Token}
      {t : Token} (ho : o.2 ≠ some n) (h : FirstOpening n os ts t) :
      FirstOpening n (o :: os) (u :: ts) t

namespace FirstOpening
variable {n : Nat} {os os' : List (Lexeme × Option Nat)} {ts us : List Token} {t : Token}

theorem skip (h : FirstOpening n os ts t) (l : Lexeme) (u : Token) :
    FirstOpening n ((l, none) :: os) (u :: ts) t := by
  refine .later ?_ h
  intro ho
  cases ho

theorem append_right (h : FirstOpening n os ts t) (os' : List (Lexeme × Option Nat))
    (us : List Token) : FirstOpening n (os ++ os') (ts ++ us) t := by
  induction h with
  | here => exact .here
  | later ho h ih => exact .later ho ih

theorem append_left (h : FirstOpening n os ts t) (hos : ∀ o ∈ os', o.2 ≠ some n)
    (hlen : os'.length = us.length) : FirstOpening n (os' ++ os) (us ++ ts) t := by
  induction os' generalizing us with
  | nil =>
    obtain rfl := List.length_eq_zero_iff.1 hlen.symm
    exact h
  | cons o os' ih =>
    obtain ⟨u, us, rfl⟩ := List.exists_cons_of_length_eq_add_one hlen.symm
    obtain ⟨ho, hos⟩ := List.forall_mem_cons.1 hos
    exact .later ho (ih hos (Nat.succ.inj hlen))

theorem exists_split (h : FirstOpening n os ts t) :
    ∃ before l after ts₁ ts₂, os = before ++ (l, some n) :: after ∧ (∀ o ∈ before, o.2 ≠ some n) ∧
      ts = ts₁ ++ t :: ts₂ ∧ before.length = ts₁.length := by
  induction h with
  | here => exact ⟨[], _, _, [], _, rfl, by simp, rfl, rfl⟩
  | @later o os u ts t ho h ih =>
    obtain ⟨before, l, after, ts₁, ts₂, rfl, hbefore, rfl, hlen⟩ := ih
    refine ⟨o :: before, l, after, u :: ts₁, ts₂, rfl, ?_, rfl, congrArg Nat.succ hlen⟩
    exact List.forall_mem_cons.2 ⟨ho, hbefore⟩

end FirstOpening

/-! ## Factors that do not fit -/

theorem descend_error {level : Level} {outer : List Level} (position : Nat)
    (h : maxOpenFactors ≤ openFactors level outer) :
    State.descend level outer position = .error (.nestedTooDeeply position) :=
  if_pos h

/-- A lexeme that opens a factor is read, and the reading fails there or goes on within it. -/
theorem overflow_of_descend {level level' : Level} {outer outer' : List Level} {u : Token}
    {us : List Token} {l : Lexeme} {os : List (Lexeme × Option Nat)}
    (hstep : (State.due level outer).step env u = State.descend level' outer' u.stop)
    (hopen : openFactors level' outer' = openFactors level outer + 1)
    (ho : openFactors level outer < maxOpenFactors)
    (h : openFactors level' outer' < maxOpenFactors → ∃ t, FirstOpening maxOpenFactors os us t ∧
      ((State.due level' outer').run env us).result = .error (.nestedTooDeeply t.stop)) :
    ∃ t, FirstOpening maxOpenFactors ((l, some (openFactors level outer + 1)) :: os) (u :: us) t ∧
      ((State.due level outer).run env (u :: us)).result = .error (.nestedTooDeeply t.stop) := by
  rw [State.run_cons, hstep]
  by_cases hd : openFactors level' outer' < maxOpenFactors
  · obtain ⟨t, ht, herror⟩ := h hd
    rw [descend_eq _ hd, Logged.value_bind]
    refine ⟨t, .later (fun he => ?_) ht, herror⟩
    have := Option.some.inj he
    omega
  · rw [descend_error _ (Nat.not_lt.1 hd)]
    have hfull : openFactors level outer + 1 = maxOpenFactors := by omega
    rw [hfull]
    exact ⟨u, .here, rfl⟩

theorem length_eq_of_texts {ls : List Lexeme}
    (h : ts.map (fun t => t.run.text) = ls.map Lexeme.text) : ls.length = ts.length := by
  have hlen := congrArg List.length h
  rw [List.length_map, List.length_map] at hlen
  exact hlen.symm

mutual
theorem SumTree.run_overflow (e : SumTree) {outer : List Level} {ts : List Token} {y : Float}
    (hts : ts.map (fun t => t.run.text) = e.lexemes.map Lexeme.text)
    (hr : ∀ l ∈ e.lexemes, l.Resolved env) (hv : (e.value env.lookup).result = .ok y)
    (ho : openFactors .fresh outer < maxOpenFactors)
    (hd : maxOpenFactors < openFactors .fresh outer + e.depth) :
    ∃ t, FirstOpening maxOpenFactors (e.openings (openFactors .fresh outer)) ts t ∧
      ((State.due .fresh outer).run env ts).result = .error (.nestedTooDeeply t.stop) := by
  cases e with
  | term t => exact TermTree.run_overflow t hts hr hv ho hd
  | add e s t =>
    simp only [SumTree.lexemes, List.map_append, List.map_cons] at hts
    obtain ⟨ts₁, u, ts₂, rfl, h₁, hu, h₂⟩ := exists_of_map_eq_append_cons hts
    simp only [SumTree.lexemes, List.forall_mem_append, List.forall_mem_cons] at hr
    simp only [SumTree.depth] at hd
    obtain ⟨x, hx, hv⟩ := Logged.result_bind_eq_ok.1 hv
    obtain ⟨z, hz, -⟩ := Logged.result_bind_eq_ok.1 hv
    rw [State.run_append]
    by_cases he : maxOpenFactors < openFactors .fresh outer + e.depth
    · obtain ⟨t', ht', herror⟩ := SumTree.run_overflow e h₁ hr.1 hx ho he
      exact ⟨t', ht'.append_right _ _, Logged.result_bind_eq_error.2 (.inl herror)⟩
    · obtain ⟨sum, w, -, hrun⟩ := SumTree.outcome_run h₁ hr.1 hx (Nat.not_lt.1 he)
      have hlast : ∃ t', FirstOpening maxOpenFactors
          (t.openings (openFactors ⟨some (total sum w, s), none, []⟩ outer)) ts₂ t' ∧
          ((State.due ⟨some (total sum w, s), none, []⟩ outer).run env ts₂).result =
            .error (.nestedTooDeeply t'.stop) := by
        refine TermTree.run_overflow t h₂ hr.2.2 hz ho ?_
        show maxOpenFactors < openFactors .fresh outer + t.depth
        omega
      obtain ⟨t', ht', herror⟩ := hlast
      rw [Logged.result_bind (outcome_eq_reached.1 hrun), State.run_cons, step_add hu,
        Logged.value_bind]
      refine ⟨t', (ht'.skip _ _).append_left (e.openings_ne (Nat.not_lt.1 he)) ?_, herror⟩
      rw [e.length_openings, length_eq_of_texts h₁]

theorem TermTree.run_overflow (t : TermTree) {sum : Option (Float × Sign)} {outer : List Level}
    {ts : List Token} {y : Float}
    (hts : ts.map (fun t => t.run.text) = t.lexemes.map Lexeme.text)
    (hr : ∀ l ∈ t.lexemes, l.Resolved env) (hv : (t.value env.lookup).result = .ok y)
    (ho : openFactors ⟨sum, none, []⟩ outer < maxOpenFactors)
    (hd : maxOpenFactors < openFactors ⟨sum, none, []⟩ outer + t.depth) :
    ∃ u, FirstOpening maxOpenFactors (t.openings (openFactors ⟨sum, none, []⟩ outer)) ts u ∧
      ((State.due ⟨sum, none, []⟩ outer).run env ts).result =
        .error (.nestedTooDeeply u.stop) := by
  cases t with
  | factor x => exact FactorTree.run_overflow x hts hr hv ho hd
  | scale t o x =>
    simp only [TermTree.lexemes, List.map_append, List.map_cons] at hts
    obtain ⟨ts₁, u, ts₂, rfl, h₁, hu, h₂⟩ := exists_of_map_eq_append_cons hts
    simp only [TermTree.lexemes, List.forall_mem_append, List.forall_mem_cons] at hr
    simp only [TermTree.depth] at hd
    obtain ⟨w, hw, hv⟩ := Logged.result_bind_eq_ok.1 hv
    obtain ⟨z, hz, -⟩ := Logged.result_bind_eq_ok.1 hv
    rw [State.run_append]
    by_cases ht : maxOpenFactors < openFactors ⟨sum, none, []⟩ outer + t.depth
    · obtain ⟨t', ht', herror⟩ := TermTree.run_overflow t h₁ hr.1 hw ho ht
      exact ⟨t', ht'.append_right _ _, Logged.result_bind_eq_error.2 (.inl herror)⟩
    · have hrun := TermTree.outcome_run h₁ hr.1 hw (Nat.not_lt.1 ht)
      have hlast : ∃ t', FirstOpening maxOpenFactors
          (x.openings (openFactors ⟨sum, some (w, o), []⟩ outer)) ts₂ t' ∧
          ((State.due ⟨sum, some (w, o), []⟩ outer).run env ts₂).result =
            .error (.nestedTooDeeply t'.stop) := by
        refine FactorTree.run_overflow x h₂ hr.2.2 hz ho ?_
        show maxOpenFactors < openFactors ⟨sum, none, []⟩ outer + x.depth
        omega
      obtain ⟨t', ht', herror⟩ := hlast
      rw [Logged.result_bind (outcome_eq_reached.1 hrun), State.run_cons, step_scale hu,
        Logged.value_bind]
      refine ⟨t', (ht'.skip _ _).append_left (t.openings_ne (Nat.not_lt.1 ht)) ?_, herror⟩
      rw [t.length_openings, length_eq_of_texts h₁]

theorem FactorTree.run_overflow (x : FactorTree) {level : Level} {outer : List Level}
    {ts : List Token} {y : Float}
    (hts : ts.map (fun t => t.run.text) = x.lexemes.map Lexeme.text)
    (hr : ∀ l ∈ x.lexemes, l.Resolved env) (hv : (x.value env.lookup).result = .ok y)
    (ho : openFactors level outer < maxOpenFactors)
    (hd : maxOpenFactors < openFactors level outer + x.depth) :
    ∃ t, FirstOpening maxOpenFactors (x.openings (openFactors level outer)) ts t ∧
      ((State.due level outer).run env ts).result = .error (.nestedTooDeeply t.stop) := by
  cases x with
  | sign s x =>
    obtain ⟨u, us, rfl, hu, hus⟩ := List.map_eq_cons_iff.1 hts
    have hopen := openFactors_await level outer (.sign s)
    simp only [FactorTree.depth] at hd
    obtain ⟨z, hz, -⟩ := Logged.result_bind_eq_ok.1 hv
    refine overflow_of_descend (step_sign hu) hopen ho fun ho' => ?_
    rw [← hopen]
    exact FactorTree.run_overflow x hus (List.forall_mem_cons.1 hr).2 hz ho' (by omega)
  | group e =>
    obtain ⟨u, us, rfl, hu, hus⟩ := List.map_eq_cons_iff.1 hts
    rw [List.map_append] at hus
    obtain ⟨ts₁, vs, rfl, h₁, -⟩ := List.map_eq_append_iff.1 hus
    have hopen := openFactors_fresh_cons level outer
    simp only [FactorTree.depth] at hd
    simp only [FactorTree.lexemes, List.forall_mem_append, List.forall_mem_cons] at hr
    refine overflow_of_descend (step_open hu) hopen ho fun ho' => ?_
    obtain ⟨t, ht, herror⟩ := SumTree.run_overflow e h₁ hr.2.1 hv ho' (by omega)
    rw [State.run_append, ← hopen]
    exact ⟨t, ht.append_right _ _, Logged.result_bind_eq_error.2 (.inl herror)⟩
  | number n =>
    simp only [FactorTree.depth] at hd
    omega
  | name a =>
    simp only [FactorTree.depth] at hd
    omega
  | call f x =>
    obtain ⟨u, us, rfl, hu, hus⟩ := List.map_eq_cons_iff.1 hts
    have hopen := openFactors_await level outer (.call f)
    simp only [FactorTree.depth] at hd
    obtain ⟨z, hz, -⟩ := Logged.result_bind_eq_ok.1 hv
    refine overflow_of_descend (step_function hu) hopen ho fun ho' => ?_
    rw [← hopen]
    exact FactorTree.run_overflow x hus (List.forall_mem_cons.1 hr).2 hz ho' (by omega)
end

theorem FactorTree.run_tooDeep (x : FactorTree) {level : Level} {outer : List Level}
    {ts : List Token} {y : Float}
    (hts : ts.map (fun t => t.run.text) = x.lexemes.map Lexeme.text)
    (hr : ∀ l ∈ x.lexemes, l.Resolved env) (hv : (x.value env.lookup).result = .ok y)
    (ho : openFactors level outer < maxOpenFactors)
    (hd : maxOpenFactors < openFactors level outer + x.depth) :
    outcome ((State.due level outer).run env ts) = .tooDeep := by
  obtain ⟨t, -, herror⟩ := x.run_overflow hts hr hv ho hd
  rw [outcome, herror]
  rfl

end LineCalculator.Expression

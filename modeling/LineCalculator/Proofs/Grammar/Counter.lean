import LineCalculator.Proofs.Grammar.Nesting
import LineCalculator.Proofs.Grammar.Soundness
/-! # How many factors are open

The number of open factors is a function of what waits in a state. It is that of the place in the
tree where the reader is: a phrase that was read leaves no factor open, and within a phrase each
factor that encloses the next lexeme is open.

* `State.depth`: how many factors are open in a state.
* `SumTree.complete_of_run`, `TermTree.complete_of_run`, `FactorTree.complete_of_run`: the state
  after a phrase, which has a value if it was read.
* `FactorTree.depth_of_run`, `depth_of_step_operator`: neither a factor nor an operator after one
  changes the number.
* `SumTree.depth_of_openings`, `TermTree.depth_of_openings`, `FactorTree.depth_of_openings`: the
  number in front of a lexeme that opens a factor.
-/

namespace LineCalculator.Expression
set_option autoImplicit false

variable {env : Environment} {level : Level} {outer : List Level} {s : State} {t : Token}

/-- How many factors are open. -/
def State.depth : State → Nat
  | due level outer => openFactors level outer
  | complete _ _ outer => outside outer

/-! ## After a phrase -/

theorem complete_of_supply {x : Float} (h : (level.supply outer x).result = .ok s) :
    ∃ y, s = .complete level.sum y outer := by
  obtain ⟨y, -, h⟩ := Logged.result_bind_eq_ok.1 h
  cases h
  exact ⟨_, rfl⟩

theorem result_run_cons {s₀ : State} {ts : List Token} (h : (s₀.run env (t :: ts)).result = .ok s) :
    ∃ s₁, (s₀.step env t).result = .ok s₁ ∧ (s₁.run env ts).result = .ok s := by
  rw [State.run_cons] at h
  exact Logged.result_bind_eq_ok.1 h

theorem result_run_append {s₀ : State} {ts us : List Token}
    (h : (s₀.run env (ts ++ us)).result = .ok s) :
    ∃ s₁, (s₀.run env ts).result = .ok s₁ ∧ (s₁.run env us).result = .ok s := by
  rw [State.run_append] at h
  exact Logged.result_bind_eq_ok.1 h

theorem supply_await_ok {w : Waiting} {x : Float}
    (h : ((level.await w).supply outer x).result = .ok s) :
    ∃ y, (w.apply x).result = .ok y ∧ (level.supply outer y).result = .ok s := by
  rw [supply_await] at h
  obtain ⟨y, hy, h⟩ := Logged.result_bind_eq_ok.1 h
  exact ⟨y, Logged.result_mapError_eq_ok.1 hy, h⟩

mutual
theorem SumTree.complete_of_run (e : SumTree) {outer : List Level} {ts : List Token} {s' : State}
    (hts : ts.map (fun t => t.run.text) = e.lexemes.map Lexeme.text)
    (hr : ∀ l ∈ e.lexemes, l.Resolved env)
    (h : ((State.due .fresh outer).run env ts).result = .ok s') :
    ∃ sum y, (e.value env.lookup).result = .ok (total sum y) ∧ s' = .complete sum y outer := by
  cases e with
  | term t =>
    obtain ⟨y, hy, hs'⟩ := TermTree.complete_of_run t hts hr h
    exact ⟨none, y, hy, hs'⟩
  | add e s t =>
    simp only [SumTree.lexemes, List.map_append, List.map_cons] at hts
    obtain ⟨ts₁, u, ts₂, rfl, h₁, hu, h₂⟩ := exists_of_map_eq_append_cons hts
    simp only [SumTree.lexemes, List.forall_mem_append, List.forall_mem_cons] at hr
    obtain ⟨s₁, hs₁, h⟩ := result_run_append h
    obtain ⟨sum, y, hy, rfl⟩ := SumTree.complete_of_run e h₁ hr.1 hs₁
    obtain ⟨s₂, hs₂, h⟩ := result_run_cons h
    rw [step_add hu] at hs₂
    cases hs₂
    obtain ⟨z, hz, hs'⟩ := TermTree.complete_of_run t h₂ hr.2.2 h
    refine ⟨_, z, ?_, hs'⟩
    exact Logged.result_bind_eq_ok.2 ⟨_, hy, Logged.result_bind_eq_ok.2 ⟨z, hz, rfl⟩⟩

theorem TermTree.complete_of_run (t : TermTree) {sum : Option (Float × Sign)} {outer : List Level}
    {ts : List Token} {s' : State}
    (hts : ts.map (fun t => t.run.text) = t.lexemes.map Lexeme.text)
    (hr : ∀ l ∈ t.lexemes, l.Resolved env)
    (h : ((State.due ⟨sum, none, []⟩ outer).run env ts).result = .ok s') :
    ∃ y, (t.value env.lookup).result = .ok y ∧ s' = .complete sum y outer := by
  cases t with
  | factor x =>
    obtain ⟨y, hy, hs'⟩ := FactorTree.complete_of_run x hts hr h
    cases hs'
    exact ⟨y, hy, rfl⟩
  | scale t o x =>
    simp only [TermTree.lexemes, List.map_append, List.map_cons] at hts
    obtain ⟨ts₁, u, ts₂, rfl, h₁, hu, h₂⟩ := exists_of_map_eq_append_cons hts
    simp only [TermTree.lexemes, List.forall_mem_append, List.forall_mem_cons] at hr
    obtain ⟨s₁, hs₁, h⟩ := result_run_append h
    obtain ⟨y, hy, rfl⟩ := TermTree.complete_of_run t h₁ hr.1 hs₁
    obtain ⟨s₂, hs₂, h⟩ := result_run_cons h
    rw [step_scale hu] at hs₂
    cases hs₂
    obtain ⟨z, hz, hs'⟩ := FactorTree.complete_of_run x h₂ hr.2.2 h
    cases hs'
    refine ⟨o.combine y z, ?_, rfl⟩
    exact Logged.result_bind_eq_ok.2 ⟨y, hy, Logged.result_bind_eq_ok.2 ⟨z, hz, rfl⟩⟩

theorem FactorTree.complete_of_run (x : FactorTree) {level : Level} {outer : List Level}
    {ts : List Token} {s' : State}
    (hts : ts.map (fun t => t.run.text) = x.lexemes.map Lexeme.text)
    (hr : ∀ l ∈ x.lexemes, l.Resolved env)
    (h : ((State.due level outer).run env ts).result = .ok s') :
    ∃ y, (x.value env.lookup).result = .ok y ∧ (level.supply outer y).result = .ok s' := by
  cases x with
  | sign s x =>
    obtain ⟨u, us, rfl, hu, hus⟩ := List.map_eq_cons_iff.1 hts
    obtain ⟨s₁, hs₁, h⟩ := result_run_cons h
    rw [step_sign hu] at hs₁
    obtain ⟨-, rfl⟩ := descend_ok hs₁
    obtain ⟨y, hy, hs'⟩ := FactorTree.complete_of_run x hus (List.forall_mem_cons.1 hr).2 h
    obtain ⟨z, hz, hs'⟩ := supply_await_ok hs'
    exact ⟨z, Logged.result_bind_eq_ok.2 ⟨y, hy, hz⟩, hs'⟩
  | group e =>
    obtain ⟨u, us, rfl, hu, hus⟩ := List.map_eq_cons_iff.1 hts
    rw [List.map_append] at hus
    obtain ⟨ts₁, w, ws, rfl, h₁, hw, hws⟩ := exists_of_map_eq_append_cons hus
    obtain rfl := List.map_eq_nil_iff.1 hws
    simp only [FactorTree.lexemes, List.forall_mem_append, List.forall_mem_cons] at hr
    obtain ⟨s₁, hs₁, h⟩ := result_run_cons h
    rw [step_open hu] at hs₁
    obtain ⟨-, rfl⟩ := descend_ok hs₁
    obtain ⟨s₂, hs₂, h⟩ := result_run_append h
    obtain ⟨sum, y, hy, rfl⟩ := SumTree.complete_of_run e h₁ hr.2.1 hs₂
    obtain ⟨s₃, hs₃, h⟩ := result_run_cons h
    cases h
    rw [step_close hw] at hs₃
    exact ⟨_, hy, hs₃⟩
  | number n =>
    obtain ⟨u, us, rfl, hu, hus⟩ := List.map_eq_cons_iff.1 hts
    obtain rfl := List.map_eq_nil_iff.1 hus
    obtain ⟨s₁, hs₁, h⟩ := result_run_cons h
    cases h
    rw [step_numeral hu] at hs₁
    exact ⟨_, rfl, hs₁⟩
  | name a =>
    obtain ⟨u, us, rfl, hu, hus⟩ := List.map_eq_cons_iff.1 hts
    obtain rfl := List.map_eq_nil_iff.1 hus
    obtain ⟨s₁, hs₁, h⟩ := result_run_cons h
    cases h
    rw [step_name hu (hr _ List.mem_cons_self)] at hs₁
    exact ⟨_, rfl, hs₁⟩
  | call f x =>
    obtain ⟨u, us, rfl, hu, hus⟩ := List.map_eq_cons_iff.1 hts
    obtain ⟨s₁, hs₁, h⟩ := result_run_cons h
    rw [step_function hu] at hs₁
    obtain ⟨-, rfl⟩ := descend_ok hs₁
    obtain ⟨y, hy, hs'⟩ := FactorTree.complete_of_run x hus (List.forall_mem_cons.1 hr).2 h
    obtain ⟨z, hz, hs'⟩ := supply_await_ok hs'
    exact ⟨z, Logged.result_bind_eq_ok.2 ⟨y, hy, hz⟩, hs'⟩
end

/-- A factor that was read is closed, and so is whatever has waited for it at its level. -/
theorem FactorTree.depth_of_run (x : FactorTree) {ts : List Token}
    (hts : ts.map (fun t => t.run.text) = x.lexemes.map Lexeme.text)
    (hr : ∀ l ∈ x.lexemes, l.Resolved env)
    (h : ((State.due level outer).run env ts).result = .ok s) :
    s.depth + level.waiting.length = (State.due level outer).depth := by
  obtain ⟨y, -, hs⟩ := x.complete_of_run hts hr h
  obtain ⟨z, rfl⟩ := complete_of_supply hs
  exact (openFactors_eq level outer).symm

/-- No operator that goes on after a term opens a factor. -/
theorem depth_of_step_operator {sum : Option (Float × Sign)} {y : Float}
    (h : ((State.complete sum y outer).step env t).result = .ok s) (hs : ¬ s.IsComplete) :
    s.depth = (State.complete sum y outer).depth := by
  rw [State.step] at h
  unfold readOperator at h
  split at h
  · cases h
    exact Nat.zero_add _
  split at h
  · cases h
    exact Nat.zero_add _
  split at h
  · cases h
    exact Nat.zero_add _
  split at h
  · cases h
    exact Nat.zero_add _
  split at h
  · cases h
  split at h
  · obtain ⟨z, rfl⟩ := complete_of_supply h
    exact absurd trivial hs
  · cases h

/-! ## Within a phrase -/

theorem split_append_cons {α : Type} {as bs before after : List α} {a b : α}
    (h : as ++ a :: bs = before ++ b :: after) :
    (∃ mid, as = before ++ b :: mid) ∨ (before = as ∧ b = a) ∨
      ∃ mid, before = as ++ a :: mid ∧ bs = mid ++ b :: after := by
  rcases List.append_eq_append_iff.1 h with ⟨mid, hbefore, hmid⟩ | ⟨mid, has, hmid⟩
  · cases mid with
    | nil =>
      cases hmid
      exact .inr (.inl ⟨hbefore.trans (List.append_nil as), rfl⟩)
    | cons c mid =>
      cases hmid
      exact .inr (.inr ⟨mid, hbefore, rfl⟩)
  · cases mid with
    | nil =>
      cases hmid
      exact .inr (.inl ⟨(has.trans (List.append_nil before)).symm, rfl⟩)
    | cons c mid =>
      cases hmid
      exact .inl ⟨mid, has⟩

/-- A lexeme that opens a factor stands before a lexeme that opens none, or after it. -/
theorem split_openings {os os' before after : List (Lexeme × Option Nat)} {l m : Lexeme} {k : Nat}
    (h : os ++ (m, none) :: os' = before ++ (l, some k) :: after) :
    (∃ mid, os = before ++ (l, some k) :: mid) ∨
      ∃ mid, before = os ++ (m, none) :: mid ∧ os' = mid ++ (l, some k) :: after := by
  rcases split_append_cons h with hbefore | ⟨-, heq⟩ | hafter
  · exact .inl hbefore
  · cases heq
  · exact .inr hafter

/-- Tokens that are spelled as lexemes with something beside them. -/
theorem texts_of_map_fst {α : Type} {ps : List (Lexeme × α)} {ls : List Lexeme} {ts : List Token}
    (hps : ps.map Prod.fst = ls) (hts : ts.map (fun t => t.run.text) = ps.map fun p => p.1.text) :
    ts.map (fun t => t.run.text) = ls.map Lexeme.text := by
  rw [hts, ← hps, List.map_map]
  rfl

mutual
theorem SumTree.depth_of_openings (e : SumTree) {outer : List Level} {ts : List Token} {s' : State}
    {before after : List (Lexeme × Option Nat)} {l : Lexeme} {k : Nat}
    (hopen : e.openings (openFactors .fresh outer) = before ++ (l, some k) :: after)
    (hts : ts.map (fun t => t.run.text) = before.map fun o => o.1.text)
    (hr : ∀ l ∈ e.lexemes, l.Resolved env)
    (h : ((State.due .fresh outer).run env ts).result = .ok s') : s'.depth + 1 = k := by
  cases e with
  | term t => exact TermTree.depth_of_openings t hopen hts hr h
  | add e s t =>
    simp only [SumTree.lexemes, List.forall_mem_append, List.forall_mem_cons] at hr
    rcases split_openings hopen with ⟨mid, he⟩ | ⟨mid, rfl, ht⟩
    · exact SumTree.depth_of_openings e he hts hr.1 h
    · rw [List.map_append] at hts
      obtain ⟨ts₁, u, ts₂, rfl, h₁, hu, h₂⟩ := exists_of_map_eq_append_cons hts
      obtain ⟨s₁, hs₁, h⟩ := result_run_append h
      obtain ⟨sum, y, -, rfl⟩ :=
        e.complete_of_run (texts_of_map_fst (e.map_fst_openings _) h₁) hr.1 hs₁
      obtain ⟨s₂, hs₂, h⟩ := result_run_cons h
      rw [step_add hu] at hs₂
      cases hs₂
      have hopen' : t.openings (openFactors ⟨some (total sum y, s), none, []⟩ outer) =
          mid ++ (l, some k) :: after := ht
      exact TermTree.depth_of_openings t hopen' h₂ hr.2.2 h

theorem TermTree.depth_of_openings (t : TermTree) {sum : Option (Float × Sign)}
    {outer : List Level} {ts : List Token} {s' : State}
    {before after : List (Lexeme × Option Nat)} {l : Lexeme} {k : Nat}
    (hopen : t.openings (openFactors ⟨sum, none, []⟩ outer) = before ++ (l, some k) :: after)
    (hts : ts.map (fun t => t.run.text) = before.map fun o => o.1.text)
    (hr : ∀ l ∈ t.lexemes, l.Resolved env)
    (h : ((State.due ⟨sum, none, []⟩ outer).run env ts).result = .ok s') : s'.depth + 1 = k := by
  cases t with
  | factor x => exact FactorTree.depth_of_openings x hopen hts hr h
  | scale t o x =>
    simp only [TermTree.lexemes, List.forall_mem_append, List.forall_mem_cons] at hr
    rcases split_openings hopen with ⟨mid, ht⟩ | ⟨mid, rfl, hx⟩
    · exact TermTree.depth_of_openings t ht hts hr.1 h
    · rw [List.map_append] at hts
      obtain ⟨ts₁, u, ts₂, rfl, h₁, hu, h₂⟩ := exists_of_map_eq_append_cons hts
      obtain ⟨s₁, hs₁, h⟩ := result_run_append h
      obtain ⟨y, -, rfl⟩ :=
        t.complete_of_run (texts_of_map_fst (t.map_fst_openings _) h₁) hr.1 hs₁
      obtain ⟨s₂, hs₂, h⟩ := result_run_cons h
      rw [step_scale hu] at hs₂
      cases hs₂
      have hopen' : x.openings (openFactors ⟨sum, some (y, o), []⟩ outer) =
          mid ++ (l, some k) :: after := hx
      exact FactorTree.depth_of_openings x hopen' h₂ hr.2.2 h

theorem FactorTree.depth_of_openings (x : FactorTree) {level : Level} {outer : List Level}
    {ts : List Token} {s' : State} {before after : List (Lexeme × Option Nat)} {l : Lexeme}
    {k : Nat}
    (hopen : x.openings (openFactors level outer) = before ++ (l, some k) :: after)
    (hts : ts.map (fun t => t.run.text) = before.map fun o => o.1.text)
    (hr : ∀ l ∈ x.lexemes, l.Resolved env)
    (h : ((State.due level outer).run env ts).result = .ok s') : s'.depth + 1 = k := by
  cases before with
  | nil =>
    obtain rfl := List.map_eq_nil_iff.1 hts
    cases h
    cases x with
    | sign s x => cases hopen; rfl
    | group e => cases hopen; rfl
    | number n => cases hopen
    | name a => cases hopen
    | call f x => cases hopen; rfl
  | cons o before =>
    obtain ⟨u, us, rfl, hu, hus⟩ := List.map_eq_cons_iff.1 hts
    obtain ⟨s₁, hs₁, h⟩ := result_run_cons h
    cases x with
    | sign s x =>
      obtain ⟨rfl, hrest⟩ := List.cons.inj hopen
      rw [step_sign hu] at hs₁
      obtain ⟨-, rfl⟩ := descend_ok hs₁
      rw [← openFactors_await level outer (.sign s)] at hrest
      exact FactorTree.depth_of_openings x hrest hus (List.forall_mem_cons.1 hr).2 h
    | group e =>
      obtain ⟨rfl, hrest⟩ := List.cons.inj hopen
      rw [step_open hu] at hs₁
      obtain ⟨-, rfl⟩ := descend_ok hs₁
      simp only [FactorTree.lexemes, List.forall_mem_append, List.forall_mem_cons] at hr
      rcases split_openings hrest with ⟨mid, he⟩ | ⟨mid, -, hnil⟩
      · rw [← openFactors_fresh_cons level outer] at he
        exact SumTree.depth_of_openings e he hus hr.2.1 h
      · cases mid <;> cases hnil
    | number n =>
      obtain ⟨rfl, hrest⟩ := List.cons.inj hopen
      cases before <;> cases hrest
    | name a =>
      obtain ⟨rfl, hrest⟩ := List.cons.inj hopen
      cases before <;> cases hrest
    | call f x =>
      obtain ⟨rfl, hrest⟩ := List.cons.inj hopen
      rw [step_function hu] at hs₁
      obtain ⟨-, rfl⟩ := descend_ok hs₁
      rw [← openFactors_await level outer (.call f)] at hrest
      exact FactorTree.depth_of_openings x hrest hus (List.forall_mem_cons.1 hr).2 h
end

end LineCalculator.Expression

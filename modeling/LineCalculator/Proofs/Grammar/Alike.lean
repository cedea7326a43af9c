import LineCalculator.Proofs.Grammar.Nesting
/-! # States that differ in their values

Of all functions the factorial alone refuses arguments. Where it is not applied, what a state can
read depends on what waits in it and not on the values that it keeps.

* `State.Alike s s'`: the two states keep values at the same places, the same waits at every level,
  and no factorial does.
* `Outcome.Alike`: two computations lead to such states, or fail in the same way.
* `Outcome.MatchedBy`: where the first one leads to a state, so does the second, or too many factors
  are open there.
* `alike_step`, `alike_run`, `alike_scan`: alike states remain alike over a token, over some tokens
  and over a text.
-/

namespace LineCalculator.Expression
set_option autoImplicit false
open Text

/-! ## Levels and states -/

/-- The same waits at both levels, and no factorial does. -/
structure Level.Alike (l l' : Level) : Prop where
  waiting : l.waiting = l'.waiting
  no_factorial : .call .fact ∉ l.waiting

/-- An operand is due in both states, or a term is complete in both. The levels are alike, and no
more factors are open than the reader admits. -/
inductive State.Alike : State → State → Prop where
  | due {level level' : Level} {outer outer' : List Level} (hl : level.Alike level')
      (ho : List.Forall₂ Level.Alike outer outer') (hd : openFactors level outer < maxOpenFactors) :
      Alike (.due level outer) (.due level' outer')
  | complete {sum sum' : Option (Float × Sign)} {term term' : Float} {outer outer' : List Level}
      (ho : List.Forall₂ Level.Alike outer outer') (hd : outside outer < maxOpenFactors) :
      Alike (.complete sum term outer) (.complete sum' term' outer')

theorem State.Alike.start : State.start.Alike .start :=
  .due ⟨rfl, List.not_mem_nil⟩ .nil (by decide)

theorem State.Alike.isComplete {s s' : State} (h : s.Alike s') (hs : s'.IsComplete) :
    s.IsComplete := by
  cases h with
  | due hl ho hd => exact hs
  | complete ho hd => trivial

inductive Outcome.Alike : Outcome State → Outcome State → Prop where
  | reached {s s' : State} (h : s.Alike s') : Alike (.reached s) (.reached s')
  | tooDeep : Alike .tooDeep .tooDeep
  | failed : Alike .failed .failed

theorem Outcome.Alike.bind {o o' : Outcome State} {f g : State → Outcome State} (h : o.Alike o')
    (hfg : ∀ s s', s.Alike s' → (f s).Alike (g s')) : (o.bind f).Alike (o'.bind g) := by
  cases h with
  | reached h => exact hfg _ _ h
  | tooDeep => exact .tooDeep
  | failed => exact .failed

/-- If the first computation reaches a state then the second reaches one that is alike, unless too
many factors are open there. -/
def Outcome.MatchedBy (o o' : Outcome State) : Prop :=
  ∀ s, o = .reached s → o' = .tooDeep ∨ ∃ s', o' = .reached s' ∧ s.Alike s'

theorem Outcome.Alike.matchedBy {o o' : Outcome State} (h : o.Alike o') : o.MatchedBy o' := by
  rintro s rfl
  cases h with
  | reached h => exact .inr ⟨_, rfl, h⟩

theorem Outcome.matchedBy_failed (o : Outcome State) : Outcome.failed.MatchedBy o := nofun

theorem Outcome.MatchedBy.bind {o o' : Outcome State} {f g : State → Outcome State}
    (h : o.MatchedBy o')
    (hfg : ∀ s s', o = .reached s → s.Alike s' → (f s).MatchedBy (g s')) :
    (o.bind f).MatchedBy (o'.bind g) := by
  intro t ht
  obtain ⟨s, rfl, hft⟩ := Outcome.bind_eq_reached.1 ht
  rcases h s rfl with rfl | ⟨s', rfl, hs⟩
  · exact .inl rfl
  · exact hfg s s' rfl hs t hft

section Levels
variable {level level' : Level} {outer outer' : List Level}

theorem outside_congr (h : List.Forall₂ Level.Alike outer outer') :
    outside outer = outside outer' := by
  induction h with
  | nil => rfl
  | cons hl ho ih => rw [outside, outside, hl.waiting, ih]

theorem openFactors_congr (hl : level.Alike level') (ho : List.Forall₂ Level.Alike outer outer') :
    openFactors level outer = openFactors level' outer' := by
  rw [openFactors, openFactors, hl.waiting, outside_congr ho]

theorem Level.Alike.await {w : Waiting} (h : level.Alike level') (hw : w ≠ .call .fact) :
    (level.await w).Alike (level'.await w) := by
  refine ⟨congrArg (w :: ·) h.waiting, fun hmem => ?_⟩
  rcases List.mem_cons.1 hmem with he | hmem
  · exact hw he.symm
  · exact h.no_factorial hmem

theorem alike_descend (hl : level.Alike level') (ho : List.Forall₂ Level.Alike outer outer')
    (position : Nat) : (outcome (State.descend level outer position)).Alike
      (outcome (State.descend level' outer' position)) := by
  rw [outcome_descend, outcome_descend, ← openFactors_congr hl ho]
  split
  · exact .tooDeep
  · rename_i hd
    exact .reached (.due hl ho (Nat.not_le.1 hd))

end Levels

/-! ## Operands -/

theorem apply_eq_value {f : Builtin} (hf : f ≠ .fact) (x : Float) : ∃ y, f.apply x = .value y := by
  cases f with
  | fact => exact absurd rfl hf
  | _ => exact ⟨_, rfl⟩

theorem applyAll_eq_value {ws : List Waiting} (h : .call .fact ∉ ws) (x : Float) :
    ∃ y, Waiting.applyAll ws x = .value y := by
  induction ws generalizing x with
  | nil => exact ⟨x, rfl⟩
  | cons w ws ih =>
    obtain ⟨hw, hws⟩ : .call .fact ≠ w ∧ .call .fact ∉ ws := by simpa using h
    obtain ⟨y, hy⟩ : ∃ y, w.apply x = .value y := by
      cases w with
      | sign s => exact ⟨_, rfl⟩
      | call f => exact apply_eq_value (fun hf => hw (hf ▸ rfl)) x
    rw [Waiting.applyAll, hy, Logged.value_bind]
    exact ih hws y

theorem supply_eq_value {level : Level} (h : .call .fact ∉ level.waiting) (outer : List Level)
    (x : Float) : ∃ y, level.supply outer x = .value (.complete level.sum y outer) := by
  obtain ⟨y, hy⟩ := applyAll_eq_value h x
  exact ⟨scaled level.product y, by rw [Level.supply, hy]; rfl⟩

theorem alike_supply {level level' : Level} {outer outer' : List Level}
    (hl : level.Alike level') (ho : List.Forall₂ Level.Alike outer outer')
    (hd : outside outer < maxOpenFactors) (x x' : Float) :
    (outcome (level.supply outer x)).Alike (outcome (level'.supply outer' x')) := by
  obtain ⟨y, hy⟩ := supply_eq_value hl.no_factorial outer x
  obtain ⟨y', hy'⟩ := supply_eq_value (hl.waiting ▸ hl.no_factorial) outer' x'
  rw [hy, hy']
  exact .reached (.complete ho hd)

/-! ## Tokens -/

theorem ne_fact_of_ofName? {text : List Char} {f : Builtin}
    (h : Builtin.ofName? (String.ofList text) = some f) (htext : text ≠ "fact".toList) :
    f ≠ .fact := by
  rintro rfl
  exact htext (text_of_ofName? h).symm

section Tokens
variable {env env' : Environment} (hsame : env.SameNames env')
include hsame

theorem alike_readOperand {level level' : Level} {outer outer' : List Level} {t : Token}
    (hl : level.Alike level') (ho : List.Forall₂ Level.Alike outer outer')
    (hd : openFactors level outer < maxOpenFactors) (ht : t.run.text ≠ "fact".toList) :
    (outcome (readOperand env level outer t)).Alike
      (outcome (readOperand env' level' outer' t)) := by
  have hout : outside outer < maxOpenFactors := by
    rw [openFactors] at hd
    omega
  have hsign : ∀ s, Waiting.sign s ≠ .call .fact := by
    intro s h
    cases h
  unfold readOperand
  by_cases hplus : t.run.first = '+'
  · rw [if_pos hplus, if_pos hplus]
    exact alike_descend (hl.await (hsign .plus)) ho t.stop
  rw [if_neg hplus, if_neg hplus]
  by_cases hminus : t.run.first = '-'
  · rw [if_pos hminus, if_pos hminus]
    exact alike_descend (hl.await (hsign .minus)) ho t.stop
  rw [if_neg hminus, if_neg hminus]
  by_cases hopen : t.run.first = '('
  · rw [if_pos hopen, if_pos hopen]
    exact alike_descend ⟨rfl, List.not_mem_nil⟩ (.cons hl ho) t.stop
  rw [if_neg hopen, if_neg hopen]
  split
  · split
    · exact alike_supply hl ho hout _ _
    · exact .failed
  · dsimp only
    cases hf : Builtin.ofName? (String.ofList t.run.text) with
    | some f =>
      have hfact : Waiting.call f ≠ .call .fact := fun h =>
        ne_fact_of_ofName? hf ht (Waiting.call.inj h)
      exact alike_descend (hl.await hfact) ho t.stop
    | none =>
      have hbound := hsame (String.ofList t.run.text)
      cases hb : env.contains (String.ofList t.run.text) with
      | true =>
        rw [Environment.get?_eq_some_lookup hb, Environment.get?_eq_some_lookup (hbound ▸ hb)]
        exact alike_supply hl ho hout _ _
      | false =>
        rw [Environment.get?_eq_none hb, Environment.get?_eq_none (hbound ▸ hb)]
        exact .failed
  · exact .failed

omit hsame in
theorem alike_readOperator {sum sum' : Option (Float × Sign)} {term term' : Float}
    {outer outer' : List Level} {t : Token} (ho : List.Forall₂ Level.Alike outer outer')
    (hd : outside outer < maxOpenFactors) :
    (outcome (readOperator sum term outer t)).Alike
      (outcome (readOperator sum' term' outer' t)) := by
  have next (sum₁ sum₂ : Option (Float × Sign)) (product₁ product₂ : Option (Float × Scale)) :
      (outcome (.value (.due ⟨sum₁, product₁, []⟩ outer))).Alike
        (outcome (.value (.due ⟨sum₂, product₂, []⟩ outer'))) :=
    .reached (.due ⟨rfl, List.not_mem_nil⟩ ho ((Nat.zero_add _).trans_lt hd))
  unfold readOperator
  by_cases htimes : t.run.first = '*'
  · rw [if_pos htimes, if_pos htimes]
    exact next _ _ _ _
  rw [if_neg htimes, if_neg htimes]
  by_cases hover : t.run.first = '/'
  · rw [if_pos hover, if_pos hover]
    exact next _ _ _ _
  rw [if_neg hover, if_neg hover]
  by_cases hplus : t.run.first = '+'
  · rw [if_pos hplus, if_pos hplus]
    exact next _ _ _ _
  rw [if_neg hplus, if_neg hplus]
  by_cases hminus : t.run.first = '-'
  · rw [if_pos hminus, if_pos hminus]
    exact next _ _ _ _
  rw [if_neg hminus, if_neg hminus]
  cases ho with
  | nil => exact .failed
  | @cons level level' outer outer' hl ho =>
    dsimp only
    by_cases hclose : t.run.first = ')'
    · rw [if_pos hclose, if_pos hclose]
      rw [outside] at hd
      exact alike_supply hl ho (by omega) _ _
    · rw [if_neg hclose, if_neg hclose]
      exact .failed

theorem alike_step {s s' : State} {t : Token} (hs : s.Alike s')
    (ht : t.run.text ≠ "fact".toList) :
    (outcome (s.step env t)).Alike (outcome (s'.step env' t)) := by
  cases hs with
  | due hl ho hd => exact alike_readOperand hsame hl ho hd ht
  | complete ho hd => exact alike_readOperator ho hd

theorem alike_run {s s' : State} {ts : List Token} (hs : s.Alike s')
    (hts : ∀ t ∈ ts, t.run.text ≠ "fact".toList) :
    (outcome (s.run env ts)).Alike (outcome (s'.run env' ts)) := by
  induction ts generalizing s s' with
  | nil => exact .reached hs
  | cons t ts ih =>
    obtain ⟨ht, hts⟩ := List.forall_mem_cons.1 hts
    rw [State.run_cons, State.run_cons, outcome_bind, outcome_bind]
    exact (alike_step hsame hs ht).bind fun _ _ h => ih h hts

/-- A text in which nothing spells `fact` is read alike from alike states. -/
theorem alike_scan {s s' : State} {text : List Char} (hs : s.Alike s')
    (htext : ¬ "fact".toList <:+: text) : (scan env s text).Alike (scan env' s' text) := by
  refine alike_run hsame hs fun t ht he => htext ?_
  have hmem : t.run ∈ (tokens text).map Token.run := List.mem_map_of_mem ht
  rw [tokens, map_run_locate] at hmem
  obtain ⟨before, after, hsplit⟩ := List.append_of_mem (List.mem_filter.1 hmem).1
  refine ⟨before.flatMap Run.text, after.flatMap Run.text, ?_⟩
  rw [← flatten_runs tokenKind text, hsplit, List.flatMap_append, List.flatMap_cons, he,
    List.append_assoc]

end Tokens

end LineCalculator.Expression

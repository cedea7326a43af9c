import LineCalculator.Proofs.Grammar.Derivation
import LineCalculator.Proofs.Grammar.Nesting
/-! # Texts made of texts

A text that has a value keeps its derivation when other text is put around it, as long as nothing
runs together where they meet.

* `tokens_append`: the second of two texts is read as it is alone, with its places moved.
* `read_append_trailing`: what follows a complete expression and does not continue it is refused.
* `tokenTexts_group`, `SumTree.Derives.scan_group`: a text in parentheses is one factor.
* `SumTree.Derives.result_read_call`, `outcome_read_call`: a function applied to such a factor.
-/

namespace LineCalculator.Expression
set_option autoImplicit false
open Text

variable {env : Environment} {a b text : List Char} {v : Float}

/-! ## One text after another -/

theorem byteLength_append (a b : List Char) :
    byteLength (a ++ b) = byteLength a + byteLength b := by
  induction a with
  | nil => exact (Nat.zero_add _).symm
  | cons c a ih => rw [List.cons_append, byteLength, byteLength, ih, Nat.add_assoc]

theorem locate_append (start : Nat) (rs rs' : List Run) :
    locate start (rs ++ rs') =
      locate start rs ++ locate (start + byteLength (rs.flatMap Run.text)) rs' := by
  induction rs generalizing start with
  | nil => rfl
  | cons r rs ih =>
    have hstart : start + byteLength ((r :: rs).flatMap Run.text) =
        start + r.size + byteLength (rs.flatMap Run.text) := by
      rw [List.flatMap_cons, byteLength_append, Run.size, Nat.add_assoc]
    rw [List.cons_append, locate, locate, ih, hstart]
    split
    · rfl
    · rfl

theorem tokens_append (h : Apart tokenKind a b) :
    tokens (a ++ b) = tokens a ++ locate (byteLength a) (runs tokenKind b) := by
  rw [tokens, runs_append h, locate_append, flatten_runs, Nat.zero_add]
  rfl

theorem tokenTexts_append (h : Apart tokenKind a b) :
    tokenTexts (a ++ b) = tokenTexts a ++ tokenTexts b := by
  simp only [tokenTexts_eq, runs_append h, List.filter_append, List.map_append]

theorem read_append_trailing {c : Char} (h : (read env a).result = .ok v)
    (ha : Apart tokenKind a (c :: b)) (hc : c ∉ [' ', '*', '/', '+', '-']) :
    (read env (a ++ c :: b)).result = .error (.trailingInput c (byteLength a)) := by
  simp only [List.mem_cons, List.not_mem_nil, or_false, not_or] at hc
  obtain ⟨hspace, htimes, hover, hplus, hminus⟩ := hc
  obtain ⟨s, hs, hf⟩ := Logged.result_bind_eq_ok.1 h
  obtain ⟨more, rs, hruns⟩ := exists_runs_cons tokenKind c b
  rw [read, tokens_append ha, State.run_append, Logged.bind_assoc, Logged.result_bind hs, hruns,
    locate, if_neg hspace, State.run_cons]
  cases s with
  | due level outer => cases hf
  | complete sum term outer =>
    cases outer with
    | cons level outer => cases hf
    | nil =>
      simp only [State.step, readOperator, htimes, hover, hplus, hminus, if_false]
      rfl

/-! ## Texts in parentheses -/

theorem isWord_name (f : Builtin) : IsWord f.name.toList :=
  isWord_of_forall (name_toList_ne_nil f) fun c hc => tokenKind_of_isLower (isLower_of_mem_name f c hc)

theorem scan_function {level : Level} {outer : List Level} {f : Builtin}
    (ho : openFactors level outer + 1 < maxOpenFactors) :
    scan env (.due level outer) f.name.toList = .reached (.due (level.await (.call f)) outer) := by
  obtain ⟨r, hr, hu, hs⟩ := isWord_name f
  have hopen := openFactors_await level outer (.call f)
  have hstep : (State.due level outer).step env ⟨r, 0⟩ =
      State.descend (level.await (.call f)) outer (Token.stop ⟨r, 0⟩) := step_function hr
  rw [← hr, scan_run hu hs, hstep, descend_eq _ (by omega), outcome_value]

section Group
variable {e : SumTree}

theorem tokenTexts_group (h : tokenTexts text = e.lexemes.map Lexeme.text) :
    tokenTexts ('(' :: (text ++ [')'])) = (FactorTree.group e).lexemes.map Lexeme.text := by
  have hopen : Apart tokenKind ['('] (text ++ [')']) := Apart.after_char [] _ (by decide)
  have hclose : Apart tokenKind text [')'] := Apart.before_char text [] (by decide)
  have hmark : tokenTexts ['('] = [['(']] ∧ tokenTexts [')'] = [[')']] := ⟨rfl, rfl⟩
  rw [← List.singleton_append, tokenTexts_append hopen, tokenTexts_append hclose, h, hmark.1,
    hmark.2, FactorTree.lexemes, List.map_cons, List.map_append]
  rfl

theorem tokenTexts_call (h : tokenTexts text = e.lexemes.map Lexeme.text) (f : Builtin) :
    tokenTexts (f.name.toList ++ '(' :: (text ++ [')'])) =
      (FactorTree.call f (.group e)).lexemes.map Lexeme.text := by
  rw [tokenTexts_word_append (isWord_name f) (Apart.before_char _ _ (by decide)),
    tokenTexts_group h]
  rfl

end Group

namespace SumTree.Derives
variable {e : SumTree} (h : e.Derives env text)
include h

variable (hv : (e.value env.lookup).result = .ok v)
include hv

theorem scan_group {level : Level} {outer : List Level}
    (ho : openFactors level outer < maxOpenFactors) :
    scan env (.due level outer) ('(' :: (text ++ [')'])) =
      if openFactors level outer + (e.depth + 1) ≤ maxOpenFactors then
        outcome (level.supply outer v)
      else .tooDeep := by
  split
  · rename_i hd
    exact FactorTree.outcome_run (tokenTexts_group h.tokenTexts_eq) (resolved_group h.resolved) hv hd
  · rename_i hd
    exact FactorTree.run_tooDeep (.group e) (tokenTexts_group h.tokenTexts_eq)
      (resolved_group h.resolved) hv ho (Nat.not_le.1 hd)

/-- The function may refuse the value. -/
theorem result_read_call {f : Builtin} (hd : e.depth + 2 ≤ maxOpenFactors) :
    (read env (f.name.toList ++ '(' :: (text ++ [')']))).result =
      (f.apply v).result.mapError .domain := by
  have htext : tokenTexts (f.name.toList ++ '(' :: (text ++ [')'])) =
      (SumTree.term (.factor (.call f (.group e)))).lexemes.map Lexeme.text :=
    tokenTexts_call h.tokenTexts_eq f
  have hr : ∀ l ∈ (SumTree.term (.factor (.call f (.group e)))).lexemes, l.Resolved env :=
    List.forall_mem_cons.2 ⟨trivial, resolved_group h.resolved⟩
  rw [read_eq_value htext hr hd]
  exact congrArg (Except.mapError ExpressionError.domain) (Logged.result_bind hv f.apply)

theorem outcome_read_call {f : Builtin} (hd : maxOpenFactors < e.depth + 2) :
    outcome (read env (f.name.toList ++ '(' :: (text ++ [')']))) = .tooDeep := by
  have hname : Apart tokenKind f.name.toList ('(' :: (text ++ [')'])) :=
    Apart.before_char _ _ (by decide)
  have hone : openFactors (Level.fresh.await (.call f)) [] = 1 := rfl
  rw [outcome_read, scan_append hname, State.start, scan_function (by decide),
    Outcome.reached_bind, h.scan_group hv (by rw [hone]; decide), if_neg (by omega),
    Outcome.tooDeep_bind]

end SumTree.Derives

end LineCalculator.Expression

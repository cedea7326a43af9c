import LineCalculator.Proofs.Grammar.Trace
/-! # What was reported before an error

A text that fails has no derivation. But what was read of it before the error is how derivations
begin, and the factorials of any of them that are complete there were applied.

* `Beginning env text before after`: a derivation begins with the tokens of the text.
* `CompletedBefore env text cause xs`: the arguments `xs` were complete when the text failed.
* `reports_of_derives`: what a text with a value reports.
* `exists_completedBefore`, `CompletedBefore.reports`: what a text that fails reports.
-/

namespace LineCalculator.Expression
set_option autoImplicit false
open Text

variable {env : Environment} {text a b : List Char} {r : Run} {t : Token} {s : State}
  {e : SumTree} {ls : List Lexeme} {before after : List (Lexeme × List FactorTree)}
  {xs : List FactorTree} {cause : ExpressionError} {refusal : DomainError}

/-! ## Texts with a value -/

theorem events_finish (s : State) (position : Nat) : (s.finish position).events = [] := by
  cases s with
  | due level outer => rfl
  | complete sum y outer => cases outer <;> rfl

theorem events_read (env : Environment) (text : List Char) :
    (read env text).events = (State.start.run env (tokens text)).events := by
  cases h : (State.start.run env (tokens text)).result with
  | ok s => rw [read, Logged.events_bind h, events_finish, List.append_nil]
  | error e => rw [read, Logged.bind_of_error h]

/-- A text with a value reports the factorials of its derivation. -/
theorem reports_of_derives {v : Float} (he : e.Derives env text)
    (h : (read env text).result = .ok v) :
    List.Forall₂ (Reports env) e.factorials (read env text).events := by
  obtain ⟨s, hs, -⟩ := Logged.result_bind_eq_ok.1 h
  have hts : (tokens text).map (fun t => t.run.text) = e.completions.map fun c => c.1.text := by
    have htexts := he.tokenTexts_eq
    rw [← e.map_fst_completions, List.map_map] at htexts
    exact htexts
  rw [events_read, ← e.flatMap_snd_completions]
  exact e.reports_of_run (List.append_nil _).symm hts he.resolved hs

/-! ## Beginnings -/

/-- A derivation begins with the tokens of the text, whose lexemes are those of `before`. -/
def Beginning (env : Environment) (text : List Char)
    (before after : List (Lexeme × List FactorTree)) : Prop :=
  ∃ e : SumTree, (∀ l ∈ e.lexemes, l.Resolved env) ∧ e.completions = before ++ after ∧
    before.map (fun c => c.1.text) = tokenTexts text

theorem Beginning.of_lexemes {after : List Lexeme} (hr : ∀ l ∈ e.lexemes, l.Resolved env)
    (he : e.lexemes = ls ++ after) (hls : ls.map Lexeme.text = tokenTexts text) :
    ∃ before after', Beginning env text before after' ∧ after'.map Prod.fst = after := by
  rw [← e.map_fst_completions] at he
  obtain ⟨before, after', hsplit, rfl, hafter⟩ := List.map_eq_append_iff.1 he
  rw [List.map_map] at hls
  exact ⟨before, after', ⟨e, hr, hsplit, hls⟩, hafter⟩

theorem exists_beginning (hs : scan env .start a = .reached s) :
    ∃ before after, Beginning env a before after := by
  obtain ⟨ls, hls, hread⟩ := exists_stateRead hs
  obtain ⟨e, hr, after, he⟩ := hread.exists_lexemes
  obtain ⟨before, after', h, -⟩ := Beginning.of_lexemes hr he hls
  exact ⟨before, after', h⟩

theorem Beginning.reports (h : Beginning env a before after)
    (hs : scan env .start a = .reached s) :
    List.Forall₂ (Reports env) (before.flatMap Prod.snd)
      (State.start.run env (tokens a)).events := by
  obtain ⟨e, hr, he, htexts⟩ := h
  exact e.reports_of_run he htexts.symm hr (outcome_eq_reached.1 hs)

theorem Beginning.completes {l : Lexeme} (h : Beginning env a before ((l, xs) :: after))
    (hs : scan env .start a = .reached s) : Completes env s l xs := by
  obtain ⟨e, hr, he, htexts⟩ := h
  exact e.completes he htexts.symm hr (outcome_eq_reached.1 hs)

/-! ## The token at which an argument is refused -/

section
variable {level : Level} {outer : List Level} {sum : Option (Float × Sign)} {y : Float}

/-- Where an operand is due, that token is a number or a variable. -/
theorem exists_operand_of_domain (hu : t.run.Uniform tokenKind)
    (h : ((State.due level outer).step env t).result = .error (.domain refusal)) :
    ∃ (x : FactorTree) (l : Lexeme), (∀ n, x.openings n = [(l, none)]) ∧
      (∀ l ∈ x.lexemes, l.Resolved env) ∧ l.text = t.run.text := by
  have hdescend : ∀ {level outer position},
      (State.descend level outer position).result ≠ .error (.domain refusal) := by
    intro level outer position he
    obtain ⟨-, he⟩ := descend_eq_error he
    cases he
  rw [State.step, readOperand] at h
  split at h
  · exact absurd h hdescend
  split at h
  · exact absurd h hdescend
  split at h
  · exact absurd h hdescend
  split at h
  · split at h
    · rename_i hread
      obtain ⟨n, hn, -⟩ := Numeral.exists_of_read? hread
      exact ⟨.number n, .numeral n, fun _ => rfl, List.forall_mem_singleton.2 trivial, hn⟩
    · cases h
  · rename_i hk
    dsimp only at h
    split at h
    · exact absurd h hdescend
    · rename_i hf
      split at h
      · rename_i hx
        exact ⟨.name _, .name _, fun _ => rfl,
          List.forall_mem_singleton.2 (resolved_name hu hk hf hx), String.toList_ofList⟩
      · cases h
  · cases h

/-- After a term, it is a parenthesis that closes one. -/
theorem close_of_domain (hu : t.run.Uniform tokenKind)
    (h : ((State.complete sum y outer).step env t).result = .error (.domain refusal)) :
    ∃ level outer', outer = level :: outer' ∧ (Lexeme.mark ')').text = t.run.text := by
  rw [State.step] at h
  unfold readOperator at h
  split at h
  · cases h
  split at h
  · cases h
  split at h
  · cases h
  split at h
  · cases h
  split at h
  · cases h
  · split at h
    · rename_i hc
      exact ⟨_, _, rfl, text_eq_mark hu hc (by decide)⟩
    · cases h

theorem StateRead.exists_of_domain (hread : StateRead env s ls) (hu : t.run.Uniform tokenKind)
    (h : (s.step env t).result = .error (.domain refusal)) :
    ∃ (e : SumTree) (l : Lexeme) (after : List Lexeme), (∀ l ∈ e.lexemes, l.Resolved env) ∧
      e.lexemes = ls ++ l :: after ∧ l.text = t.run.text := by
  cases s with
  | due level outer =>
    obtain ⟨x, l, hopen, hx, hl⟩ := exists_operand_of_domain hu h
    obtain ⟨e, hr, after, he⟩ := (hread.begins x hx).exists_lexemes
    rw [hopen] at he
    exact ⟨e, l, after, hr, he, hl⟩
  | complete sum y outer =>
    obtain ⟨level, outer, rfl, hl⟩ := close_of_domain hu h
    obtain ⟨e, hr, after, he⟩ := hread.begins_close.exists_lexemes
    exact ⟨e, .mark ')', after, hr, he, hl⟩

end

/-! ## Texts that fail -/

/-- The arguments of the factorials that were complete when the text failed: those that the tokens
before the error complete in a derivation that begins with them. Where the error is that an
argument is refused, those that its last token completes before it come after these. -/
inductive CompletedBefore (env : Environment) (text : List Char) :
    ExpressionError → List FactorTree → Prop
  | token {a b : List Char} {r : Run} {s : State} {cause : ExpressionError}
      {before after : List (Lexeme × List FactorTree)} (htext : text = a ++ (r.text ++ b))
      (ht : TokenAt a r b) (hs : scan env .start a = .reached s)
      (herror : Refuses env s ⟨r, byteLength a⟩ cause) (hread : Beginning env a before after) :
      CompletedBefore env text cause (before.flatMap Prod.snd)
  | ended {s : State} {cause : ExpressionError} {before after : List (Lexeme × List FactorTree)}
      (hs : scan env .start text = .reached s)
      (herror : (s.finish (byteLength text)).result = .error cause)
      (hread : Beginning env text before after) :
      CompletedBefore env text cause (before.flatMap Prod.snd)
  | argument {a b : List Char} {r : Run} {s : State} {refusal : DomainError}
      {before after : List (Lexeme × List FactorTree)} {l : Lexeme}
      {done rest : List FactorTree} {x : FactorTree} (htext : text = a ++ (r.text ++ b))
      (ht : TokenAt a r b) (hs : scan env .start a = .reached s)
      (herror : (s.step env ⟨r, byteLength a⟩).result = .error (.domain refusal))
      (hread : Beginning env a before ((l, done ++ x :: rest) :: after)) (hl : l.text = r.text)
      (hdone : ∀ x' ∈ done, Applied env x') (hx : Refused env x refusal) :
      CompletedBefore env text (.domain refusal) (before.flatMap Prod.snd ++ done)

theorem applied_of_reports {events : List Event} (h : List.Forall₂ (Reports env) xs events) :
    ∀ x ∈ xs, Applied env x := by
  induction h with
  | nil => exact List.forall_mem_nil _
  | cons hx _ ih => exact List.forall_mem_cons.2 ⟨hx.applied, ih⟩

/-- Only one argument is the first that is refused. -/
theorem first_refused_unique {done done' rest rest' : List FactorTree} {x x' : FactorTree}
    {refusal' : DomainError} (h : done ++ x :: rest = done' ++ x' :: rest')
    (hdone : ∀ y ∈ done, Applied env y) (hx : Refused env x refusal)
    (hdone' : ∀ y ∈ done', Applied env y) (hx' : Refused env x' refusal') : done' = done := by
  rcases split_append_cons h with ⟨mid, rfl⟩ | ⟨h, -⟩ | ⟨mid, rfl, -⟩
  · exact absurd (hdone x' (by simp)) (not_applied_of_refused hx')
  · exact h
  · exact absurd (hdone' x (by simp)) (not_applied_of_refused hx)

theorem events_read_of_error (htext : text = a ++ (r.text ++ b)) (ht : TokenAt a r b)
    (hs : scan env .start a = .reached s)
    (he : (s.step env ⟨r, byteLength a⟩).result = .error cause) :
    (read env text).events =
      (State.start.run env (tokens a)).events ++ (s.step env ⟨r, byteLength a⟩).events := by
  rw [events_read, htext, ht.tokens_eq, State.run_append,
    Logged.events_bind (outcome_eq_reached.1 hs), State.run_cons, Logged.bind_of_error he]

theorem CompletedBefore.reports (h : CompletedBefore env text cause xs) :
    List.Forall₂ (Reports env) xs (read env text).events := by
  cases h with
  | token htext ht hs herror hread =>
    have hstep := step_of_refuses herror
    rw [events_read_of_error htext ht hs (congrArg Logged.result hstep), hstep, Logged.error,
      List.append_nil]
    exact hread.reports hs
  | ended hs _ hread =>
    rw [events_read]
    exact hread.reports hs
  | argument htext ht hs herror hread hl hdone hx =>
    rw [events_read_of_error htext ht hs herror]
    refine List.rel_append (hread.reports hs) ?_
    obtain ⟨done', x', rest', hsplit, hx', hdone'⟩ := (hread.completes hs).refused hl.symm herror
    rwa [first_refused_unique hsplit hdone hx (applied_of_reports hdone') hx'] at hdone'

theorem Beginning.exists_factorials (h : Beginning env a before after) :
    ∃ e : SumTree, (∀ l ∈ e.lexemes, l.Resolved env) ∧
      tokenTexts a <+: e.lexemes.map Lexeme.text ∧
      e.factorials = before.flatMap Prod.snd ++ after.flatMap Prod.snd := by
  obtain ⟨e, hr, he, htexts⟩ := h
  refine ⟨e, hr, ⟨after.map fun c => c.1.text, ?_⟩, ?_⟩
  · rw [← e.map_fst_completions, he, List.map_map, List.map_append, ← htexts]
    rfl
  · rw [← e.flatMap_snd_completions, he, List.flatMap_append]

/-- They are the first factorials of a derivation that begins as the text does. -/
theorem CompletedBefore.exists_factorials (h : CompletedBefore env text cause xs) :
    ∃ (a : List Char) (e : SumTree), a <+: text ∧ (∀ l ∈ e.lexemes, l.Resolved env) ∧
      tokenTexts a <+: e.lexemes.map Lexeme.text ∧ xs <+: e.factorials := by
  cases h with
  | token htext _ _ _ hread =>
    obtain ⟨e, hr, htexts, he⟩ := hread.exists_factorials
    exact ⟨_, e, ⟨_, htext.symm⟩, hr, htexts, _, he.symm⟩
  | ended _ _ hread =>
    obtain ⟨e, hr, htexts, he⟩ := hread.exists_factorials
    exact ⟨text, e, List.prefix_refl text, hr, htexts, _, he.symm⟩
  | @argument _ _ _ _ _ before after l done rest x htext _ _ _ hread _ _ _ =>
    obtain ⟨e, hr, htexts, he⟩ := hread.exists_factorials
    refine ⟨_, e, ⟨_, htext.symm⟩, hr, htexts, x :: rest ++ after.flatMap Prod.snd, ?_⟩
    rw [he, List.flatMap_cons]
    simp only [List.append_assoc]

theorem exists_completedBefore (h : (read env text).result = .error cause) :
    ∃ xs, CompletedBefore env text cause xs := by
  rcases Logged.result_bind_eq_error.1 h with h | ⟨s, hs, h⟩
  · obtain ⟨us, t, vs, s, hts, hs, he⟩ := run_eq_error h
    obtain ⟨a, b, htext, ht, rfl, hstart⟩ := exists_tokenAt hts
    obtain ⟨r, start⟩ := t
    obtain rfl : start = byteLength a := hstart
    have hs := outcome_eq_reached.2 hs
    rcases step_error_cases ht.uniform he with hrefuses | ⟨refusal, rfl⟩
    · obtain ⟨before, after, hread⟩ := exists_beginning hs
      exact ⟨_, .token htext ht hs hrefuses hread⟩
    · -- the refused argument is among those that the token completes
      obtain ⟨ls, hls, hread⟩ := exists_stateRead hs
      obtain ⟨e, l, after, hr, hlexemes, hl⟩ := hread.exists_of_domain ht.uniform he
      obtain ⟨before, after', hread, hafter⟩ := Beginning.of_lexemes hr hlexemes hls
      obtain ⟨⟨l, xs⟩, after, rfl, rfl, -⟩ := List.map_eq_cons_iff.1 hafter
      obtain ⟨done, x, rest, rfl, hx, hdone⟩ := (hread.completes hs).refused hl.symm he
      exact ⟨_, .argument htext ht hs he hread hl (applied_of_reports hdone) hx⟩
  · have hs := outcome_eq_reached.2 hs
    obtain ⟨before, after, hread⟩ := exists_beginning hs
    exact ⟨_, .ended hs h hread⟩

end LineCalculator.Expression

import LineCalculator.Proofs.Grammar.Agreement
/-! # Where the reader stops

A text that has no value is refused at one of its tokens or at its end. What stands before that
place was read, and what stands after it was not looked at.

* `TokenAt a r b`: the run `r` is a token of a text, `a` standing before it and `b` after it.
* `exists_tokenAt`: so is every token, and its offset is where `a` ends.
* `eq_of_byteLength_eq`: a byte offset cuts a text in one way.
* `Refuses env s t e`: in the state `s` the token `t` is refused, for another reason than that a
  function refuses its argument.
* `Stops env text e`: the text is refused at one of its tokens or at its end.
* `read_eq_error_iff_stops`: the errors of a text, those of functions apart.
-/

namespace LineCalculator.Expression
set_option autoImplicit false
open Text

/-! ## Tokens in their place -/

structure TokenAt (before : List Char) (r : Run) (after : List Char) : Prop where
  uniform : r.Uniform tokenKind
  not_space : r.first ≠ ' '
  apart_before : Apart tokenKind before (r.text ++ after)
  apart_after : Apart tokenKind r.text after

section
variable {a a' b b' text : List Char} {r : Run} {t : Token}

theorem TokenAt.tokens_eq (h : TokenAt a r b) : tokens (a ++ (r.text ++ b)) =
    tokens a ++ ⟨r, byteLength a⟩ :: locate (byteLength a + r.size) (runs tokenKind b) := by
  rw [tokens_append h.apart_before, runs_text_append h.uniform h.apart_after, locate,
    if_neg h.not_space]

theorem TokenAt.tokenTexts_eq (h : TokenAt a r b) :
    tokenTexts (a ++ r.text) = tokenTexts a ++ [r.text] := by
  have hlast : TokenAt a r [] := by
    refine ⟨h.uniform, h.not_space, h.apart_before.congr_right ?_, Apart.nil_right _ _⟩
    rw [List.head?_append_of_ne_nil _ r.text_ne_nil, List.append_nil]
  have htokens := hlast.tokens_eq
  rw [List.append_nil] at htokens
  rw [tokenTexts, htokens, List.map_append]
  rfl

theorem TokenAt.text_append (h : TokenAt a r b) {r' : Run}
    (ha : Apart tokenKind r'.text (a ++ (r.text ++ b))) : TokenAt (r'.text ++ a) r b :=
  ⟨h.uniform, h.not_space, h.apart_before.append_left ha, h.apart_after⟩

theorem exists_tokenAt_of_locate {start : Nat} {ts us : List Token}
    (h : locate start (runs tokenKind text) = ts ++ t :: us) :
    ∃ a b, text = a ++ (t.run.text ++ b) ∧ TokenAt a t.run b ∧
      locate start (runs tokenKind a) = ts ∧ t.start = start + byteLength a := by
  induction text using cut_induction tokenKind generalizing start ts with
  | nil =>
    have hlen := congrArg List.length h
    simp [locate] at hlen
  | run r rest hu ha ih =>
    rw [runs_text_append hu ha, locate] at h
    have behind {a b : List Char} {ts : List Token} (hrest : rest = a ++ (t.run.text ++ b))
        (ht : TokenAt a t.run b) (hts : locate (start + r.size) (runs tokenKind a) = ts)
        (hstart : t.start = start + r.size + byteLength a) :
        r.text ++ rest = r.text ++ a ++ (t.run.text ++ b) ∧ TokenAt (r.text ++ a) t.run b ∧
          runs tokenKind (r.text ++ a) = r :: runs tokenKind a ∧
          t.start = start + byteLength (r.text ++ a) := by
      rw [hrest] at ha
      refine ⟨by rw [hrest, List.append_assoc], ht.text_append ha,
        runs_text_append hu ha.of_append, ?_⟩
      rw [hstart, byteLength_append, Run.size, Nat.add_assoc]
    by_cases hspace : r.first = ' '
    · rw [if_pos hspace] at h
      obtain ⟨a, b, hrest, ht, hts, hstart⟩ := ih h
      obtain ⟨htext, hat, hruns, hstart⟩ := behind hrest ht hts hstart
      refine ⟨r.text ++ a, b, htext, hat, ?_, hstart⟩
      rw [hruns, locate, if_pos hspace, hts]
    · rw [if_neg hspace] at h
      cases ts with
      | nil =>
        cases h
        refine ⟨[], rest, rfl, ⟨hu, hspace, Apart.nil_left _ _, ha⟩, rfl, rfl⟩
      | cons u ts =>
        obtain ⟨rfl, hts⟩ := List.cons.inj h
        obtain ⟨a, b, hrest, ht, hts, hstart⟩ := ih hts
        obtain ⟨htext, hat, hruns, hstart⟩ := behind hrest ht hts hstart
        refine ⟨r.text ++ a, b, htext, hat, ?_, hstart⟩
        rw [hruns, locate, if_neg hspace, hts]

/-- Every token of a text stands somewhere in it, behind the tokens before it. -/
theorem exists_tokenAt {ts us : List Token} (h : tokens text = ts ++ t :: us) :
    ∃ a b, text = a ++ (t.run.text ++ b) ∧ TokenAt a t.run b ∧ tokens a = ts ∧
      t.start = byteLength a := by
  obtain ⟨a, b, htext, ht, hts, hstart⟩ := exists_tokenAt_of_locate h
  exact ⟨a, b, htext, ht, hts, hstart.trans (Nat.zero_add _)⟩

theorem eq_of_byteLength_eq (h : a ++ b = a' ++ b') (hlen : byteLength a = byteLength a') :
    a = a' := by
  induction a generalizing a' with
  | nil =>
    cases a' with
    | nil => rfl
    | cons c a' =>
      have := c.utf8Size_pos
      simp only [byteLength] at hlen
      omega
  | cons c a ih =>
    cases a' with
    | nil =>
      have := c.utf8Size_pos
      simp only [byteLength] at hlen
      omega
    | cons c' a' =>
      obtain ⟨rfl, hrest⟩ := List.cons.inj h
      rw [ih hrest (Nat.add_left_cancel hlen)]

end

/-! ## Refused tokens -/

variable {env : Environment}

inductive Refuses (env : Environment) : State → Token → ExpressionError → Prop
  | opening {level : Level} {outer : List Level} {t : Token} {l : Lexeme} (hl : l.Opens)
      (ht : l.text = t.run.text) (hd : maxOpenFactors ≤ openFactors level outer + 1) :
      Refuses env (.due level outer) t (.nestedTooDeeply t.stop)
  | operand {level : Level} {outer : List Level} {t : Token}
      (hs : Sign.ofChar? t.run.first = none) (ho : t.run.first ≠ '(')
      (hk : tokenKind t.run.first = none) :
      Refuses env (.due level outer) t (.unexpectedCharacter t.run.first t.start)
  | numeral {level : Level} {outer : List Level} {t : Token}
      (hk : tokenKind t.run.first = some .numeral) (hread : Decimal.read? t.run.text = none) :
      Refuses env (.due level outer) t (.malformedNumeral (String.ofList t.run.text) t.start)
  | name {level : Level} {outer : List Level} {t : Token}
      (hk : tokenKind t.run.first = some .word)
      (hf : Builtin.ofName? (String.ofList t.run.text) = none)
      (hx : env.get? (String.ofList t.run.text) = none) :
      Refuses env (.due level outer) t (.unknownName (String.ofList t.run.text) t.start)
  | trailing {sum : Option (Float × Sign)} {y : Float} {t : Token}
      (ho : Scale.ofChar? t.run.first = none) (hs : Sign.ofChar? t.run.first = none) :
      Refuses env (.complete sum y []) t (.trailingInput t.run.first t.start)
  | unclosed {sum : Option (Float × Sign)} {y : Float} {level : Level} {outer : List Level}
      {t : Token} (ho : Scale.ofChar? t.run.first = none) (hs : Sign.ofChar? t.run.first = none)
      (hc : t.run.first ≠ ')') :
      Refuses env (.complete sum y (level :: outer)) t (.missingParenthesis t.start)

theorem descend_eq_error {level : Level} {outer : List Level} {position : Nat}
    {e : ExpressionError} (h : (State.descend level outer position).result = .error e) :
    maxOpenFactors ≤ openFactors level outer ∧ e = .nestedTooDeeply position := by
  by_cases hd : maxOpenFactors ≤ openFactors level outer
  · rw [descend_error _ hd] at h
    cases h
    exact ⟨hd, rfl⟩
  · rw [descend_eq _ (Nat.not_le.1 hd)] at h
    cases h

theorem supply_eq_error {level : Level} {outer : List Level} {x : Float} {e : ExpressionError}
    (h : (level.supply outer x).result = .error e) : ∃ refusal, e = .domain refusal := by
  rcases Logged.result_bind_eq_error.1 h with h | ⟨y, -, h⟩
  · obtain ⟨refusal, -, rfl⟩ := Logged.result_mapError_eq_error.1 h
    exact ⟨refusal, rfl⟩
  · cases h

section
variable {level : Level} {outer : List Level} {t : Token} {e : ExpressionError}

theorem sign_text {s : Sign} (hu : t.run.Uniform tokenKind)
    (hs : Sign.ofChar? t.run.first = some s) : t.run.text = s.mark.text := by
  rw [← Sign.text_mark_of_ofChar? hs, hu.text_eq (tokenKind_of_sign hs)]

theorem scale_text {o : Scale} (hu : t.run.Uniform tokenKind)
    (ho : Scale.ofChar? t.run.first = some o) : t.run.text = o.mark.text := by
  rw [← Scale.text_mark_of_ofChar? ho, hu.text_eq (tokenKind_of_scale ho)]

theorem step_due_error_cases (hu : t.run.Uniform tokenKind)
    (h : ((State.due level outer).step env t).result = .error e) :
    Refuses env (.due level outer) t e ∨ ∃ refusal, e = .domain refusal := by
  cases hs : Sign.ofChar? t.run.first with
  | some s =>
    have htext := sign_text hu hs
    rw [step_sign htext] at h
    obtain ⟨hd, rfl⟩ := descend_eq_error h
    rw [openFactors_await] at hd
    have hl : s.mark.Opens := by cases s <;> simp [Sign.mark, Lexeme.Opens]
    exact .inl (.opening hl htext.symm hd)
  | none =>
    by_cases ho : t.run.first = '('
    · have htext : (Lexeme.mark '(').text = t.run.text := text_eq_mark hu ho (by decide)
      rw [step_open htext.symm] at h
      obtain ⟨hd, rfl⟩ := descend_eq_error h
      rw [openFactors_fresh_cons] at hd
      exact .inl (.opening (by simp [Lexeme.Opens]) htext hd)
    rw [State.step] at h
    cases hk : tokenKind t.run.first with
    | none =>
      rw [readOperand_of_none hs ho hk] at h
      cases h
      exact .inl (.operand hs ho hk)
    | some k =>
      cases k with
      | numeral =>
        rw [readOperand_of_numeral hk] at h
        cases hread : Decimal.read? t.run.text with
        | some d =>
          rw [hread] at h
          exact .inr (supply_eq_error h)
        | none =>
          rw [hread] at h
          cases h
          exact .inl (.numeral hk hread)
      | word =>
        rw [readOperand_of_word hk] at h
        cases hf : Builtin.ofName? (String.ofList t.run.text) with
        | some f =>
          rw [hf] at h
          obtain ⟨hd, rfl⟩ := descend_eq_error h
          rw [openFactors_await] at hd
          have hl : (Lexeme.function f).Opens := trivial
          exact .inl (.opening hl (text_of_ofName? hf) hd)
        | none =>
          rw [hf] at h
          cases hx : env.get? (String.ofList t.run.text) with
          | some x =>
            rw [hx] at h
            exact .inr (supply_eq_error h)
          | none =>
            rw [hx] at h
            cases h
            exact .inl (.name hk hf hx)

theorem step_complete_error_cases {sum : Option (Float × Sign)} {y : Float}
    (hu : t.run.Uniform tokenKind)
    (h : ((State.complete sum y outer).step env t).result = .error e) :
    Refuses env (.complete sum y outer) t e ∨ ∃ refusal, e = .domain refusal := by
  cases ho : Scale.ofChar? t.run.first with
  | some o =>
    rw [step_scale (scale_text hu ho)] at h
    cases h
  | none =>
    cases hs : Sign.ofChar? t.run.first with
    | some s =>
      rw [step_add (sign_text hu hs)] at h
      cases h
    | none =>
      rw [State.step, readOperator_total ho hs] at h
      cases outer with
      | nil =>
        cases h
        exact .inl (.trailing ho hs)
      | cons level outer =>
        dsimp only at h
        by_cases hc : t.run.first = ')'
        · rw [if_pos hc] at h
          exact .inr (supply_eq_error h)
        · rw [if_neg hc] at h
          cases h
          exact .inl (.unclosed ho hs hc)

/-- A token is refused, or a function refuses the operand that the token completes. -/
theorem step_error_cases {s : State} (hu : t.run.Uniform tokenKind)
    (h : (s.step env t).result = .error e) :
    Refuses env s t e ∨ ∃ refusal, e = .domain refusal := by
  cases s with
  | due level outer => exact step_due_error_cases hu h
  | complete sum y outer => exact step_complete_error_cases hu h

/-- Nothing happens on the way to such an error. -/
theorem step_of_refuses {s : State} (h : Refuses env s t e) : s.step env t = .error e := by
  cases h with
  | @opening level outer t l hl ht hd =>
    have hawait (w : Waiting) : maxOpenFactors ≤ openFactors (level.await w) outer := by
      rwa [openFactors_await]
    cases l with
    | mark c =>
      simp only [Lexeme.Opens, List.mem_cons, List.not_mem_nil, or_false] at hl
      rcases hl with rfl | rfl | rfl
      · exact (step_sign (s := .plus) ht.symm).trans (descend_error _ (hawait _))
      · exact (step_sign (s := .minus) ht.symm).trans (descend_error _ (hawait _))
      · refine (step_open ht.symm).trans (descend_error _ ?_)
        rwa [openFactors_fresh_cons]
    | function f => exact (step_function ht.symm).trans (descend_error _ (hawait _))
    | numeral n => cases hl
    | name a => cases hl
  | operand hs ho hk => exact readOperand_of_none hs ho hk
  | numeral hk hread => rw [State.step, readOperand_of_numeral hk, hread]
  | name hk hf hx => rw [State.step, readOperand_of_word hk, hf, hx]
  | trailing ho hs => rw [State.step, readOperator_total ho hs]
  | unclosed ho hs hc =>
    rw [State.step, readOperator_total ho hs]
    exact if_neg hc

end

/-! ## Refused texts -/

/-- What was read of the text leads to a state in which the next token, or the end, is refused. -/
inductive Stops (env : Environment) (text : List Char) : ExpressionError → Prop
  | token {a b : List Char} {r : Run} {s : State} {e : ExpressionError}
      (htext : text = a ++ (r.text ++ b)) (ht : TokenAt a r b)
      (hs : scan env .start a = .reached s) (h : Refuses env s ⟨r, byteLength a⟩ e) :
      Stops env text e
  | operandMissing {level : Level} {outer : List Level}
      (hs : scan env .start text = .reached (.due level outer)) :
      Stops env text (.unexpectedEnd (byteLength text))
  | parenthesisMissing {sum : Option (Float × Sign)} {y : Float} {level : Level}
      {outer : List Level}
      (hs : scan env .start text = .reached (.complete sum y (level :: outer))) :
      Stops env text (.missingParenthesis (byteLength text))

theorem run_eq_error {s : State} {ts : List Token} {e : ExpressionError}
    (h : (s.run env ts).result = .error e) : ∃ us t vs s', ts = us ++ t :: vs ∧
      (s.run env us).result = .ok s' ∧ (s'.step env t).result = .error e := by
  induction ts generalizing s with
  | nil => cases h
  | cons t ts ih =>
    rw [State.run_cons] at h
    rcases Logged.result_bind_eq_error.1 h with h | ⟨s₁, hs₁, h⟩
    · exact ⟨[], t, ts, s, rfl, rfl, h⟩
    · obtain ⟨us, u, vs, s', rfl, hs', he⟩ := ih h
      refine ⟨t :: us, u, vs, s', rfl, ?_, he⟩
      rw [State.run_cons, Logged.result_bind hs₁, hs']

section
variable {text : List Char} {e : ExpressionError}

theorem stops_of_finish {s : State} (hs : scan env .start text = .reached s)
    (h : (s.finish (byteLength text)).result = .error e) : Stops env text e := by
  cases s with
  | due level outer =>
    cases h
    exact .operandMissing hs
  | complete sum y outer =>
    cases outer with
    | nil => cases h
    | cons level outer =>
      cases h
      exact .parenthesisMissing hs

theorem error_of_stops (h : Stops env text e) : (read env text).result = .error e := by
  cases h with
  | token htext ht hs h =>
    rw [htext, read, ht.tokens_eq, State.run_append, Logged.bind_assoc,
      Logged.result_bind (outcome_eq_reached.1 hs), State.run_cons, Logged.bind_assoc]
    exact Logged.result_bind_eq_error.2 (.inl (congrArg Logged.result (step_of_refuses h)))
  | operandMissing hs =>
    rw [read, Logged.result_bind (outcome_eq_reached.1 hs)]
    rfl
  | parenthesisMissing hs =>
    rw [read, Logged.result_bind (outcome_eq_reached.1 hs)]
    rfl

/-- A text fails where it is refused, or with the refusal of a function. -/
theorem read_eq_error_iff_stops (hdomain : ∀ refusal, e ≠ .domain refusal) :
    (read env text).result = .error e ↔ Stops env text e := by
  refine ⟨fun h => ?_, error_of_stops⟩
  rcases Logged.result_bind_eq_error.1 h with h | ⟨s, hs, h⟩
  · obtain ⟨us, t, vs, s, hts, hs, he⟩ := run_eq_error h
    obtain ⟨a, b, htext, ht, rfl, hstart⟩ := exists_tokenAt hts
    obtain ⟨r, start⟩ := t
    obtain rfl : start = byteLength a := hstart
    rcases step_error_cases ht.uniform he with he | ⟨refusal, rfl⟩
    · exact .token htext ht (outcome_eq_reached.2 hs) he
    · exact absurd rfl (hdomain refusal)
  · exact stops_of_finish (outcome_eq_reached.2 hs) h

end

end LineCalculator.Expression

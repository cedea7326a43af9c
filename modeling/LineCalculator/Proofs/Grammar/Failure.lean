import LineCalculator.Proofs.Grammar.Agreement
/-! # Where a reading fails

The functions of the descent call each other, and each passes on the error of a call it makes. So
the error of a text was found by one call that is reached in the course of reading it.

* `Call`: a function of the descent, called at a cursor; `Call.run` is what it finds.
* `Enters env call inner`: in the course of `call`, `inner` is called directly.
* `Applies env call f x`: `call` itself applies the function `f` of the language to `x`.
* `Raises env call e`: `call` itself finds the error `e`.
* `run_eq_error_iff`: a call fails with what some call reached from it finds.
* `read_eq_error_iff`: the errors of a text.
* `RefusesFactorial`, `read_eq_domain_iff`: a refused argument is always that of a factorial.
-/

namespace LineCalculator.Expression
set_option autoImplicit false
open Text Relation

/-! ## Calls -/

inductive Call where
  | factor (depth : Nat) (c : Cursor)
  | term (depth : Nat) (c : Cursor)
  | scaled (depth : Nat) (x : Float) (c : Cursor)
  | sum (depth : Nat) (c : Cursor)
  | added (depth : Nat) (x : Float) (c : Cursor)

namespace Call

def run (env : Environment) : Call → Logged ExpressionError (Float × Cursor)
  | factor depth c => parseFactor env depth c
  | term depth c => parseTerm env depth c
  | scaled depth x c => parseScaled env depth x c
  | sum depth c => parseSum env depth c
  | added depth x c => parseAdded env depth x c

/-- What is left of the text, and at the same place the level of the grammar. -/
def size : Call → Nat
  | factor _ c | scaled _ _ c | added _ _ c => 3 * c.text.length
  | term _ c => 3 * c.text.length + 1
  | sum _ c => 3 * c.text.length + 2

end Call

/-- The cursor after the spaces and one more character. -/
def Cursor.next (c : Cursor) (ch : Char) (rest : List Char) : Cursor :=
  ⟨c.skip.position + ch.utf8Size, rest⟩

variable {env : Environment}

/-- A call that another call makes. -/
inductive Enters (env : Environment) : Call → Call → Prop
  | operand {depth : Nat} {c : Cursor} {ch : Char} {rest : List Char} {s : Sign}
      (hd : depth < maxOpenFactors) (h : c.skip.text = ch :: rest)
      (hs : Sign.ofChar? ch = some s) :
      Enters env (.factor depth c) (.factor (depth + 1) (c.next ch rest))
  | contents {depth : Nat} {c : Cursor} {rest : List Char}
      (hd : depth < maxOpenFactors) (h : c.skip.text = '(' :: rest) :
      Enters env (.factor depth c) (.sum (depth + 1) (c.next '(' rest))
  | argument {depth : Nat} {c : Cursor} {f : Builtin}
      (hd : depth < maxOpenFactors) (hf : Builtin.ofName? c.word = some f) :
      Enters env (.factor depth c) (.factor (depth + 1) (c.skip.pass Char.isLower))
  | firstFactor {depth : Nat} {c : Cursor} : Enters env (.term depth c) (.factor depth c)
  | furtherFactors {depth : Nat} {c : Cursor} {r : Float × Cursor}
      (hr : (parseFactor env depth c).result = .ok r) :
      Enters env (.term depth c) (.scaled depth r.1 r.2)
  | nextFactor {depth : Nat} {x : Float} {c : Cursor} {ch : Char} {rest : List Char} {o : Scale}
      (h : c.skip.text = ch :: rest) (ho : Scale.ofChar? ch = some o) :
      Enters env (.scaled depth x c) (.factor depth (c.next ch rest))
  | scaleOn {depth : Nat} {x : Float} {c : Cursor} {ch : Char} {rest : List Char} {o : Scale}
      {r : Float × Cursor} (h : c.skip.text = ch :: rest) (ho : Scale.ofChar? ch = some o)
      (hr : (parseFactor env depth (c.next ch rest)).result = .ok r) :
      Enters env (.scaled depth x c) (.scaled depth (o.combine x r.1) r.2)
  | firstTerm {depth : Nat} {c : Cursor} : Enters env (.sum depth c) (.term depth c)
  | furtherTerms {depth : Nat} {c : Cursor} {r : Float × Cursor}
      (hr : (parseTerm env depth c).result = .ok r) :
      Enters env (.sum depth c) (.added depth r.1 r.2)
  | nextTerm {depth : Nat} {x : Float} {c : Cursor} {ch : Char} {rest : List Char} {s : Sign}
      (h : c.skip.text = ch :: rest) (hs : Sign.ofChar? ch = some s) :
      Enters env (.added depth x c) (.term depth (c.next ch rest))
  | addOn {depth : Nat} {x : Float} {c : Cursor} {ch : Char} {rest : List Char} {s : Sign}
      {r : Float × Cursor} (h : c.skip.text = ch :: rest) (hs : Sign.ofChar? ch = some s)
      (hr : (parseTerm env depth (c.next ch rest)).result = .ok r) :
      Enters env (.added depth x c) (.added depth (s.combine x r.1) r.2)

/-- A function of the language that a call applies, and the argument. -/
inductive Applies (env : Environment) : Call → Builtin → Float → Prop
  | intro {depth : Nat} {c : Cursor} {f : Builtin} {r : Float × Cursor}
      (hd : depth < maxOpenFactors) (hf : Builtin.ofName? c.word = some f)
      (hr : (parseFactor env (depth + 1) (c.skip.pass Char.isLower)).result = .ok r) :
      Applies env (.factor depth c) f r.1

/-- An error that a call finds and no call that it makes. -/
inductive Raises (env : Environment) : Call → ExpressionError → Prop
  | nestedTooDeeply {depth : Nat} {c : Cursor} (hd : maxOpenFactors ≤ depth) :
      Raises env (.factor depth c) (.nestedTooDeeply c.position)
  | unexpectedEnd {depth : Nat} {c : Cursor} (hd : depth < maxOpenFactors)
      (h : c.skip.text = []) : Raises env (.factor depth c) (.unexpectedEnd c.skip.position)
  | unexpectedCharacter {depth : Nat} {c : Cursor} {ch : Char} {rest : List Char}
      (hd : depth < maxOpenFactors) (h : c.skip.text = ch :: rest)
      (hs : Sign.ofChar? ch = none) (ho : ch ≠ '(') (hk : tokenKind ch = none) :
      Raises env (.factor depth c) (.unexpectedCharacter ch c.skip.position)
  | malformedNumeral {depth : Nat} {c : Cursor} (hd : depth < maxOpenFactors)
      (hn : c.literal ≠ []) (hread : Decimal.read? c.literal = none) :
      Raises env (.factor depth c) (.malformedNumeral (String.ofList c.literal) c.skip.position)
  | unknownName {depth : Nat} {c : Cursor} (hd : depth < maxOpenFactors) (hw : c.word ≠ "")
      (hf : Builtin.ofName? c.word = none) (hx : env.get? c.word = none) :
      Raises env (.factor depth c) (.unknownName c.word c.skip.position)
  | missingParenthesis {depth : Nat} {c : Cursor} {rest : List Char} {r : Float × Cursor}
      (hd : depth < maxOpenFactors) (h : c.skip.text = '(' :: rest)
      (hr : (parseSum env (depth + 1) (c.next '(' rest)).result = .ok r)
      (hclose : ')' ∉ r.2.skip.text.head?) :
      Raises env (.factor depth c) (.missingParenthesis r.2.skip.position)
  | refused {call : Call} {f : Builtin} {x : Float} {e : DomainError} (ha : Applies env call f x)
      (hx : (f.apply x).result = .error e) : Raises env call (.domain e)

/-! ## One call -/

section
variable {depth : Nat} {c : Cursor}

theorem word_ne_of_ofName? {f : Builtin} (h : Builtin.ofName? c.word = some f) : c.word ≠ "" := by
  intro he
  rw [he] at h
  cases h

theorem parseFactor_function {f : Builtin} (hd : depth < maxOpenFactors)
    (hf : Builtin.ofName? c.word = some f) : parseFactor env depth c =
      (parseFactor env (depth + 1) (c.skip.pass Char.isLower)).bind fun r =>
        ((f.apply r.1).mapError .domain).bind fun y => .value (y, r.2) := by
  rw [parseFactor_word hd (word_ne_of_ofName? hf), hf]

theorem parseClosing_eq_error_iff {x : Float} {e : ExpressionError} :
    (parseClosing x c).result = .error e ↔
      ')' ∉ c.skip.text.head? ∧ e = .missingParenthesis c.skip.position := by
  unfold parseClosing
  cases h : c.skip.text with
  | nil =>
    rw [Cursor.eat?_of_nil h]
    simp [eq_comm]
  | cons ch rest =>
    by_cases hch : ch = ')'
    · have hclose : only ')' ch = some () := if_pos hch
      obtain ⟨last, he, -⟩ := Cursor.eat?_of_some h hclose
      rw [he]
      simp [hch]
    · rw [Cursor.eat?_of_none h (if_neg hch)]
      simp [hch, eq_comm]

end

theorem size_lt_of_enters {call inner : Call} (h : Enters env call inner) :
    inner.size < call.size := by
  cases h with
  | operand hd h hs =>
    have hlt := Cursor.length_lt_of_skip h
    simp only [Call.size, Cursor.next]
    omega
  | contents hd h =>
    have hlt := Cursor.length_lt_of_skip h
    simp only [Call.size, Cursor.next]
    omega
  | @argument depth c f hd hf =>
    have hw := Cursor.word_ne_iff.1 (word_ne_of_ofName? hf)
    obtain ⟨ch, rest, hrest, hch⟩ := Cursor.exists_of_takeWhile_ne hw
    have hlt : (c.skip.pass Char.isLower).text.length < c.text.length :=
      (Cursor.length_pass_lt hrest hch).trans_le (c.length_pass_le _)
    simp only [Call.size]
    omega
  | firstFactor => exact Nat.lt_succ_self _
  | furtherFactors hr =>
    have hlt := parseFactor_beyond hr
    simp only [Call.size]
    omega
  | nextFactor h ho =>
    have hlt := Cursor.length_lt_of_skip h
    simp only [Call.size, Cursor.next]
    omega
  | scaleOn h ho hr =>
    have hlt := (parseFactor_beyond hr).trans (Cursor.length_lt_of_skip h)
    simp only [Call.size]
    omega
  | firstTerm => exact Nat.lt_succ_self _
  | furtherTerms hr =>
    have hlt := parseTerm_beyond hr
    simp only [Call.size]
    omega
  | nextTerm h hs =>
    have hlt := Cursor.length_lt_of_skip h
    simp only [Call.size, Cursor.next]
    omega
  | addOn h hs hr =>
    have hlt := (parseTerm_beyond hr).trans (Cursor.length_lt_of_skip h)
    simp only [Call.size]
    omega

theorem error_of_enters {call inner : Call} {e : ExpressionError} (h : Enters env call inner)
    (he : (inner.run env).result = .error e) : (call.run env).result = .error e := by
  cases h with
  | operand hd h hs =>
    rw [Call.run, parseFactor_sign hd h hs]
    exact Logged.result_bind_eq_error.2 (.inl he)
  | contents hd h =>
    rw [Call.run, parseFactor_open hd h]
    exact Logged.result_bind_eq_error.2 (.inl he)
  | argument hd hf =>
    rw [Call.run, parseFactor_function hd hf]
    exact Logged.result_bind_eq_error.2 (.inl he)
  | firstFactor =>
    rw [Call.run, parseTerm_eq]
    exact Logged.result_bind_eq_error.2 (.inl he)
  | furtherFactors hr =>
    rw [Call.run, parseTerm_eq]
    exact Logged.result_bind_eq_error.2 (.inr ⟨_, hr, he⟩)
  | nextFactor h ho =>
    rw [Call.run, parseScaled_operator h ho]
    exact Logged.result_bind_eq_error.2 (.inl he)
  | scaleOn h ho hr =>
    rw [Call.run, parseScaled_operator h ho]
    exact Logged.result_bind_eq_error.2 (.inr ⟨_, hr, he⟩)
  | firstTerm =>
    rw [Call.run, parseSum_eq]
    exact Logged.result_bind_eq_error.2 (.inl he)
  | furtherTerms hr =>
    rw [Call.run, parseSum_eq]
    exact Logged.result_bind_eq_error.2 (.inr ⟨_, hr, he⟩)
  | nextTerm h hs =>
    rw [Call.run, parseAdded_operator h hs]
    exact Logged.result_bind_eq_error.2 (.inl he)
  | addOn h hs hr =>
    rw [Call.run, parseAdded_operator h hs]
    exact Logged.result_bind_eq_error.2 (.inr ⟨_, hr, he⟩)

theorem error_of_raises {call : Call} {e : ExpressionError} (h : Raises env call e) :
    (call.run env).result = .error e := by
  cases h with
  | nestedTooDeeply hd =>
    rw [Call.run, parseFactor_tooDeep hd]
    rfl
  | unexpectedEnd hd h =>
    rw [Call.run, parseFactor_end hd h]
    rfl
  | unexpectedCharacter hd h hs ho hk =>
    rw [Call.run, parseFactor_unexpected hd h hs ho hk]
    rfl
  | malformedNumeral hd hn hread =>
    rw [Call.run, parseFactor_numeral hd hn, hread]
    rfl
  | unknownName hd hw hf hx =>
    rw [Call.run, parseFactor_word hd hw, hf, hx]
    rfl
  | missingParenthesis hd h hr hclose =>
    rw [Call.run, parseFactor_open hd h]
    exact Logged.result_bind_eq_error.2 (.inr ⟨_, hr, parseClosing_eq_error_iff.2 ⟨hclose, rfl⟩⟩)
  | refused ha hx =>
    obtain ⟨hd, hf, hr⟩ := ha
    rw [Call.run, parseFactor_function hd hf]
    refine Logged.result_bind_eq_error.2 (.inr ⟨_, hr, ?_⟩)
    refine Logged.result_bind_eq_error.2 (.inl ?_)
    exact Logged.result_mapError_eq_error.2 ⟨_, hx, rfl⟩

/-! ## Where an error comes from -/

section
variable {e : ExpressionError} {depth : Nat} {x : Float} {c : Cursor}

theorem factor_error (h : (parseFactor env depth c).result = .error e) :
    Raises env (.factor depth c) e ∨
      ∃ inner, Enters env (.factor depth c) inner ∧ (inner.run env).result = .error e := by
  by_cases hd : maxOpenFactors ≤ depth
  · rw [parseFactor_tooDeep hd] at h
    cases h
    exact .inl (.nestedTooDeeply hd)
  have hd := Nat.not_le.1 hd
  cases hrest : c.skip.text with
  | nil =>
    rw [parseFactor_end hd hrest] at h
    cases h
    exact .inl (.unexpectedEnd hd hrest)
  | cons ch rest =>
    cases hs : Sign.ofChar? ch with
    | some s =>
      rw [parseFactor_sign hd hrest hs] at h
      rcases Logged.result_bind_eq_error.1 h with h | ⟨r, -, h⟩
      · exact .inr ⟨_, .operand hd hrest hs, h⟩
      · cases h
    | none =>
      by_cases ho : ch = '('
      · subst ho
        rw [parseFactor_open hd hrest] at h
        rcases Logged.result_bind_eq_error.1 h with h | ⟨r, hr, h⟩
        · exact .inr ⟨_, .contents hd hrest, h⟩
        · obtain ⟨hclose, rfl⟩ := parseClosing_eq_error_iff.1 h
          exact .inl (.missingParenthesis hd hrest hr hclose)
      cases hk : tokenKind ch with
      | none =>
        rw [parseFactor_unexpected hd hrest hs ho hk] at h
        cases h
        exact .inl (.unexpectedCharacter hd hrest hs ho hk)
      | some k =>
        cases k with
        | numeral =>
          have hn : c.literal ≠ [] :=
            Cursor.takeWhile_ne hrest ((tokenKind_eq_numeral_iff ch).1 hk)
          rw [parseFactor_numeral hd hn] at h
          cases hread : Decimal.read? c.literal with
          | some d =>
            rw [hread] at h
            cases h
          | none =>
            rw [hread] at h
            cases h
            exact .inl (.malformedNumeral hd hn hread)
        | word =>
          have hw := Cursor.word_ne_iff.2 (Cursor.takeWhile_ne hrest (isLower_of_tokenKind hk))
          cases hf : Builtin.ofName? c.word with
          | some f =>
            rw [parseFactor_function hd hf] at h
            rcases Logged.result_bind_eq_error.1 h with h | ⟨r, hr, h⟩
            · exact .inr ⟨_, .argument hd hf, h⟩
            rcases Logged.result_bind_eq_error.1 h with h | ⟨y, -, h⟩
            · obtain ⟨refusal, hx, rfl⟩ := Logged.result_mapError_eq_error.1 h
              exact .inl (.refused ⟨hd, hf, hr⟩ hx)
            · cases h
          | none =>
            rw [parseFactor_word hd hw, hf] at h
            cases hx : env.get? c.word with
            | some x =>
              rw [hx] at h
              cases h
            | none =>
              rw [hx] at h
              cases h
              exact .inl (.unknownName hd hw hf hx)

theorem scaled_error (h : (parseScaled env depth x c).result = .error e) :
    ∃ inner, Enters env (.scaled depth x c) inner ∧ (inner.run env).result = .error e := by
  rcases c.stops_or_goes_on Scale.ofChar? with hstop | ⟨ch, rest, o, hrest, ho⟩
  · rw [parseScaled_stop hstop] at h
    cases h
  · rw [parseScaled_operator hrest ho] at h
    rcases Logged.result_bind_eq_error.1 h with h | ⟨r, hr, h⟩
    · exact ⟨_, .nextFactor hrest ho, h⟩
    · exact ⟨_, .scaleOn hrest ho hr, h⟩

theorem added_error (h : (parseAdded env depth x c).result = .error e) :
    ∃ inner, Enters env (.added depth x c) inner ∧ (inner.run env).result = .error e := by
  rcases c.stops_or_goes_on Sign.ofChar? with hstop | ⟨ch, rest, s, hrest, hs⟩
  · rw [parseAdded_stop hstop] at h
    cases h
  · rw [parseAdded_operator hrest hs] at h
    rcases Logged.result_bind_eq_error.1 h with h | ⟨r, hr, h⟩
    · exact ⟨_, .nextTerm hrest hs, h⟩
    · exact ⟨_, .addOn hrest hs hr, h⟩

theorem term_error (h : (parseTerm env depth c).result = .error e) :
    ∃ inner, Enters env (.term depth c) inner ∧ (inner.run env).result = .error e := by
  rw [parseTerm_eq] at h
  rcases Logged.result_bind_eq_error.1 h with h | ⟨r, hr, h⟩
  · exact ⟨_, .firstFactor, h⟩
  · exact ⟨_, .furtherFactors hr, h⟩

theorem sum_error (h : (parseSum env depth c).result = .error e) :
    ∃ inner, Enters env (.sum depth c) inner ∧ (inner.run env).result = .error e := by
  rw [parseSum_eq] at h
  rcases Logged.result_bind_eq_error.1 h with h | ⟨r, hr, h⟩
  · exact ⟨_, .firstTerm, h⟩
  · exact ⟨_, .furtherTerms hr, h⟩

end

/-- An error of a call is found by the call itself or by one that it makes. -/
theorem raises_or_enters {call : Call} {e : ExpressionError}
    (h : (call.run env).result = .error e) :
    Raises env call e ∨ ∃ inner, Enters env call inner ∧ (inner.run env).result = .error e := by
  cases call with
  | factor depth c => exact factor_error h
  | term depth c => exact .inr (term_error h)
  | scaled depth x c => exact .inr (scaled_error h)
  | sum depth c => exact .inr (sum_error h)
  | added depth x c => exact .inr (added_error h)

theorem run_eq_error_iff {call : Call} {e : ExpressionError} :
    (call.run env).result = .error e ↔
      ∃ inner, ReflTransGen (Enters env) call inner ∧ Raises env inner e := by
  constructor
  · intro h
    -- an inner call has less text left, or the same text one level of the grammar further down
    induction hn : call.size using Nat.strongRecOn generalizing call with
    | ind n ih =>
      rcases raises_or_enters h with h | ⟨inner, henters, h⟩
      · exact ⟨call, .refl, h⟩
      · obtain ⟨last, hreach, hraises⟩ := ih inner.size (hn ▸ size_lt_of_enters henters) h rfl
        exact ⟨last, .head henters hreach, hraises⟩
  · rintro ⟨inner, hreach, hraises⟩
    induction hreach using ReflTransGen.head_induction_on with
    | refl => exact error_of_raises hraises
    | head henters _ ih => exact error_of_enters henters ih

/-! ## Whole texts -/

/-- A call that is made in the course of reading a text. -/
def Reached (env : Environment) (text : List Char) (call : Call) : Prop :=
  ReflTransGen (Enters env) (.sum 0 ⟨0, text⟩) call

variable {text : List Char}

/-- A text fails with what a call finds, or a character is left over. -/
theorem read_eq_error_iff {e : ExpressionError} : (read env text).result = .error e ↔
    (∃ call, Reached env text call ∧ Raises env call e) ∨
      ∃ r ch rest, (parseSum env 0 ⟨0, text⟩).result = .ok r ∧ r.2.text = ch :: rest ∧
        e = .trailingInput ch r.2.position := by
  have hsum : (parseSum env 0 ⟨0, text⟩).result = .error e ↔
      ∃ call, Reached env text call ∧ Raises env call e :=
    @run_eq_error_iff env (.sum 0 ⟨0, text⟩) e
  rw [← parse_eq_read, parse, Logged.result_bind_eq_error, hsum]
  apply or_congr_right
  apply exists_congr
  rintro ⟨x, position, left⟩
  cases left with
  | nil => simp
  | cons ch rest => simp [eq_comm]

/-! ## Refused arguments -/

theorem eq_fact_of_apply {f : Builtin} {x : Float} {e : DomainError}
    (h : (f.apply x).result = .error e) : f = .fact := by
  cases f with
  | fact => rfl
  | _ => cases h

/-- In the course of reading a text a factorial is applied to an argument that it refuses. -/
def RefusesFactorial (env : Environment) (text : List Char) (e : DomainError) : Prop :=
  ∃ call x, Reached env text call ∧ Applies env call .fact x ∧
    (Builtin.factorial x).result = .error e

theorem read_eq_domain_iff {e : DomainError} :
    (read env text).result = .error (.domain e) ↔ RefusesFactorial env text e := by
  rw [read_eq_error_iff]
  constructor
  · rintro (⟨call, hreach, hraises⟩ | ⟨r, ch, rest, -, -, he⟩)
    · cases hraises with
      | refused ha hx =>
        obtain rfl := eq_fact_of_apply hx
        exact ⟨call, _, hreach, ha, hx⟩
    · cases he
  · rintro ⟨call, x, hreach, ha, hx⟩
    exact .inl ⟨call, hreach, .refused ha hx⟩

theorem read_ne_unsubstituted (name : String) :
    (read env text).result ≠ .error (.unsubstituted name) := by
  intro h
  rcases read_eq_error_iff.1 h with ⟨call, -, hraises⟩ | ⟨r, ch, rest, -, -, he⟩
  · cases hraises
  · cases he

end LineCalculator.Expression

import LineCalculator.Proofs.Grammar.Completeness
import LineCalculator.Proofs.Grammar.Composite
import LineCalculator.Proofs.Grammar.Descent
/-! # The descent and the reader agree

Reading token by token from a state is, from a cursor on, what the descent finds there, followed by
what the state makes of it. So both give a text the same value, with the same events, or the same
error.

* `readFrom env s c`: what the reader makes of the text from a cursor on, in a state.
* `readFrom_due`, `readFrom_term`, `readFrom_scaled`, `readFrom_added`, `readFrom_sum`: one function
  of the descent at a time.
* `parse_eq_read`: the two readings of a whole text.
-/

namespace LineCalculator.Expression
set_option autoImplicit false
open Text

theorem Logged.bind_congr {ε α β : Type} {l : Logged ε α} {f g : α → Logged ε β}
    (h : ∀ a, l.result = .ok a → f a = g a) : l.bind f = l.bind g := by
  obtain ⟨events, result⟩ := l
  cases result with
  | error e => rfl
  | ok a => simp only [Logged.bind, h a rfl]

variable {env : Environment}

/-- What the reader makes of what is left of a text. -/
def readFrom (env : Environment) (s : State) (c : Cursor) : Logged ExpressionError Float :=
  (s.run env (locate c.position (runs tokenKind c.text))).bind fun s =>
    s.finish (c.position + byteLength c.text)

/-! ## The first token -/

theorem Cursor.skip_space (position : Nat) (text : List Char) :
    (Cursor.mk position (' ' :: text)).skip = (Cursor.mk (position + 1) text).skip := by
  have hsize : Char.utf8Size ' ' = 1 := rfl
  simp [Cursor.skip, Cursor.pass, byteLength, hsize, Nat.add_assoc]

theorem Cursor.skip_of_ne {position : Nat} {text : List Char} (h : ∀ ch ∈ text.head?, ch ≠ ' ') :
    (Cursor.mk position text).skip = ⟨position, text⟩ := by
  cases text with
  | nil => rfl
  | cons ch text =>
    have hch : ch ≠ ' ' := h ch rfl
    simp [Cursor.skip, Cursor.pass, hch, byteLength]

theorem Cursor.head?_skip (c : Cursor) : ∀ ch ∈ c.skip.text.head?, ch ≠ ' ' := by
  intro ch hch
  have hc : (c.text.dropWhile (· = ' ')).head? = some ch := hch
  have h := List.head?_dropWhile_not (· = ' ') c.text
  rw [hc] at h
  exact of_decide_eq_false h

theorem Cursor.skip_skip (c : Cursor) : c.skip.skip = c.skip :=
  Cursor.skip_of_ne c.head?_skip

theorem readFrom_skip (s : State) (c : Cursor) : readFrom env s c.skip = readFrom env s c := by
  obtain ⟨position, text⟩ := c
  induction text generalizing position with
  | nil => rfl
  | cons ch text ih =>
    by_cases hch : ch = ' '
    · subst hch
      rw [Cursor.skip_space, ih]
      have hsize : (Run.mk ' ' []).size = 1 := rfl
      have hlen : byteLength (' ' :: text) = 1 + byteLength text := rfl
      rw [readFrom, readFrom, runs_cons_of_none text tokenKind_space, locate, if_pos rfl, hsize,
        hlen, Nat.add_assoc]
    · rw [Cursor.skip_of_ne]
      intro c hc
      cases hc
      exact hch

theorem readFrom_nil (s : State) {c : Cursor} (h : c.text = []) :
    readFrom env s c = s.finish c.position := by
  rw [readFrom, h]
  rfl

theorem readFrom_run (s : State) {c : Cursor} {r : Run} {rest : List Char}
    (h : c.text = r.text ++ rest) (hu : r.Uniform tokenKind) (ha : Apart tokenKind r.text rest)
    (hr : r.first ≠ ' ') : readFrom env s c =
      (s.step env ⟨r, c.position⟩).bind fun s => readFrom env s ⟨c.position + r.size, rest⟩ := by
  have hlen : byteLength (r.text ++ rest) = r.size + byteLength rest := byteLength_append _ _
  rw [readFrom, h, runs_text_append hu ha, locate, if_neg hr, State.run_cons, hlen]
  simp only [readFrom, Logged.bind_assoc, Nat.add_assoc]

/-- A character without a class is a token. -/
theorem readFrom_char (s : State) {c : Cursor} {ch : Char} {rest : List Char}
    (h : c.skip.text = ch :: rest) (hk : tokenKind ch = none) : readFrom env s c =
      (s.step env ⟨⟨ch, []⟩, c.skip.position⟩).bind fun s =>
        readFrom env s ⟨c.skip.position + ch.utf8Size, rest⟩ := by
  have hch : ch ≠ ' ' := c.head?_skip ch (by rw [h]; rfl)
  rw [← readFrom_skip]
  exact readFrom_run s h (.inr ⟨hk, rfl⟩) (Apart.after_char [] rest hk) hch

/-- A token of one of the classes extends as far as its class. -/
theorem readFrom_pass (s : State) {c : Cursor} {ch : Char} {rest : List Char} {k : TokenKind}
    {p : Char → Bool} (h : c.skip.text = ch :: rest)
    (hp : ∀ x, tokenKind x = some k ↔ p x = true) (hch : p ch = true) :
    ∃ r : Run, r.first = ch ∧ r.text = c.skip.text.takeWhile p ∧ readFrom env s c =
      (s.step env ⟨r, c.skip.position⟩).bind fun s => readFrom env s (c.skip.pass p) := by
  have htext : (Run.mk ch (rest.takeWhile p)).text = c.skip.text.takeWhile p := by
    rw [h, List.takeWhile_cons_of_pos hch]
    rfl
  have hsplit : c.skip.text = (Run.mk ch (rest.takeWhile p)).text ++ c.skip.text.dropWhile p := by
    rw [htext, List.takeWhile_append_dropWhile]
  have hu : (Run.mk ch (rest.takeWhile p)).Uniform tokenKind := by
    refine .inl ⟨k, ?_⟩
    rw [htext]
    intro x hx
    exact (hp x).2 (List.mem_takeWhile_imp hx)
  have ha : Apart tokenKind (Run.mk ch (rest.takeWhile p)).text (c.skip.text.dropWhile p) := by
    intro x hx y hy
    right
    have hkx : tokenKind x = some k := by
      rw [htext] at hx
      exact (hp x).2 (List.mem_takeWhile_imp (List.mem_of_mem_getLast? hx))
    rw [hkx]
    intro hky
    have hnot := List.head?_dropWhile_not p c.skip.text
    rw [Option.mem_def.1 hy] at hnot
    exact Bool.false_ne_true (hnot.symm.trans ((hp y).1 hky.symm))
  have hne : ch ≠ ' ' := c.head?_skip ch (by rw [h]; rfl)
  refine ⟨⟨ch, rest.takeWhile p⟩, rfl, htext, ?_⟩
  rw [← readFrom_skip, readFrom_run s hsplit hu ha hne, Run.size, htext]
  rfl

theorem tokenKind_eq_numeral_iff (c : Char) :
    tokenKind c = some .numeral ↔ Decimal.isNumeralChar c = true := by
  constructor
  · intro h
    by_contra hn
    rw [tokenKind, if_neg hn] at h
    split at h
    · cases h
    · cases h
  · exact tokenKind_of_isNumeralChar

theorem tokenKind_eq_word_iff (c : Char) : tokenKind c = some .word ↔ c.isLower = true := by
  constructor
  · exact isLower_of_tokenKind
  · exact tokenKind_of_isLower

/-! ## Operators -/

theorem Sign.text_mark_of_ofChar? {ch : Char} {s : Sign} (h : Sign.ofChar? ch = some s) :
    [ch] = s.mark.text := by
  unfold Sign.ofChar? at h
  split at h
  · rename_i hc
    cases h
    rw [hc]
    rfl
  · split at h
    · rename_i hc
      cases h
      rw [hc]
      rfl
    · cases h

theorem Scale.text_mark_of_ofChar? {ch : Char} {o : Scale} (h : Scale.ofChar? ch = some o) :
    [ch] = o.mark.text := by
  unfold Scale.ofChar? at h
  split at h
  · rename_i hc
    cases h
    rw [hc]
    rfl
  · split at h
    · rename_i hc
      cases h
      rw [hc]
      rfl
    · cases h

theorem tokenKind_of_sign {ch : Char} {s : Sign} (h : Sign.ofChar? ch = some s) :
    tokenKind ch = none := by
  have ht := Sign.text_mark_of_ofChar? h
  cases s
  · cases ht
    decide
  · cases ht
    decide

theorem tokenKind_of_scale {ch : Char} {o : Scale} (h : Scale.ofChar? ch = some o) :
    tokenKind ch = none := by
  have ht := Scale.text_mark_of_ofChar? h
  cases o
  · cases ht
    decide
  · cases ht
    decide

/-! ## Phrase by phrase -/

theorem parseSum_tooDeep {depth : Nat} {c : Cursor} (hd : maxOpenFactors ≤ depth) :
    parseSum env depth c = .error (.nestedTooDeeply c.position) := by
  rw [parseSum_eq, parseTerm_eq, parseFactor_tooDeep hd]
  rfl

/-- Where the descent ends a term no further operator of a term stands. -/
theorem parseScaled_stops {depth : Nat} {x : Float} {c : Cursor} {r : Float × Cursor}
    (h : (parseScaled env depth x c).result = .ok r) :
    r.2.skip = r.2 ∧ r.2.Stops Scale.ofChar? := by
  induction hn : c.text.length using Nat.strongRecOn generalizing x c with
  | ind n ih =>
    rcases c.stops_or_goes_on Scale.ofChar? with hstop | ⟨ch, rest, o, hrest, ho⟩
    · rw [parseScaled_stop hstop] at h
      cases h
      refine ⟨c.skip_skip, ?_⟩
      rwa [Cursor.Stops, Cursor.skip_skip]
    · rw [parseScaled_operator hrest ho] at h
      obtain ⟨q, hq, h⟩ := Logged.result_bind_eq_ok.1 h
      have hlt := (parseFactor_beyond hq).trans (Cursor.length_lt_of_skip hrest)
      exact ih q.2.text.length (hn ▸ hlt) h rfl

theorem parseTerm_stops {depth : Nat} {c : Cursor} {r : Float × Cursor}
    (h : (parseTerm env depth c).result = .ok r) :
    r.2.skip = r.2 ∧ r.2.Stops Scale.ofChar? := by
  rw [parseTerm_eq] at h
  obtain ⟨q, -, h⟩ := Logged.result_bind_eq_ok.1 h
  exact parseScaled_stops h

/-- Where the descent ends a sum no operator stands. -/
theorem parseAdded_stops {depth : Nat} {x : Float} {c : Cursor} {r : Float × Cursor}
    (hc : c.Stops Scale.ofChar?) (h : (parseAdded env depth x c).result = .ok r) :
    r.2.skip = r.2 ∧ r.2.Stops Scale.ofChar? ∧ r.2.Stops Sign.ofChar? := by
  induction hn : c.text.length using Nat.strongRecOn generalizing x c with
  | ind n ih =>
    rcases c.stops_or_goes_on Sign.ofChar? with hstop | ⟨ch, rest, s, hrest, hs⟩
    · rw [parseAdded_stop hstop] at h
      cases h
      refine ⟨c.skip_skip, ?_, ?_⟩
      · rwa [Cursor.Stops, Cursor.skip_skip]
      · rwa [Cursor.Stops, Cursor.skip_skip]
    · rw [parseAdded_operator hrest hs] at h
      obtain ⟨q, hq, h⟩ := Logged.result_bind_eq_ok.1 h
      have hlt := (parseTerm_beyond hq).trans (Cursor.length_lt_of_skip hrest)
      exact ih q.2.text.length (hn ▸ hlt) (parseTerm_stops hq).2 h rfl

theorem parseSum_stops {depth : Nat} {c : Cursor} {r : Float × Cursor}
    (h : (parseSum env depth c).result = .ok r) :
    r.2.skip = r.2 ∧ r.2.Stops Scale.ofChar? ∧ r.2.Stops Sign.ofChar? := by
  rw [parseSum_eq] at h
  obtain ⟨q, hq, h⟩ := Logged.result_bind_eq_ok.1 h
  exact parseAdded_stops (parseTerm_stops hq).2 h

theorem readOperator_total {sum : Option (Float × Sign)} {y : Float} {outer : List Level}
    {t : Token} (ho : Scale.ofChar? t.run.first = none) (hs : Sign.ofChar? t.run.first = none) :
    readOperator sum y outer t =
      match outer with
      | [] => .error (.trailingInput t.run.first t.start)
      | level :: outer =>
        if t.run.first = ')' then level.supply outer (total sum y)
        else .error (.missingParenthesis t.start) := by
  unfold Scale.ofChar? at ho
  unfold Sign.ofChar? at hs
  unfold readOperator
  split at ho
  · cases ho
  · split at ho
    · cases ho
    · split at hs
      · cases hs
      · split at hs
        · cases hs
        · rename_i h₁ h₂ h₃ h₄
          refine (if_neg h₁).trans ((if_neg h₂).trans ((if_neg h₃).trans ((if_neg h₄).trans ?_)))
          cases outer with
          | nil => rfl
          | cons level outer => rfl

theorem readFrom_complete {sum : Option (Float × Sign)} {y : Float} {outer : List Level}
    {c : Cursor} {ch : Char} {rest : List Char} (h : c.skip.text = ch :: rest)
    (ho : Scale.ofChar? ch = none) (hs : Sign.ofChar? ch = none) :
    readFrom env (.complete sum y outer) c =
      match outer with
      | [] => .error (.trailingInput ch c.skip.position)
      | level :: outer =>
        if ch = ')' then
          (level.supply outer (total sum y)).bind fun s =>
            readFrom env s ⟨c.skip.position + ch.utf8Size, rest⟩
        else .error (.missingParenthesis c.skip.position) := by
  by_cases hch : ch = ')'
  · have hk : tokenKind ch = none := by
      rw [hch]
      decide
    rw [readFrom_char _ h hk, State.step, readOperator_total ho hs]
    cases outer with
    | nil => rfl
    | cons level outer =>
      dsimp only
      rw [if_pos hch, if_pos hch]
  · obtain ⟨more, rs, hr⟩ := exists_runs_cons tokenKind ch rest
    have hspace : ch ≠ ' ' := c.head?_skip ch (by rw [h]; rfl)
    rw [← readFrom_skip, readFrom, h, hr, locate, if_neg hspace, State.run_cons, State.step,
      readOperator_total ho hs]
    cases outer with
    | nil => rfl
    | cons level outer =>
      dsimp only
      rw [if_neg hch, if_neg hch]
      rfl

/-- What is made of a sum where it ends depends on its value alone. -/
theorem readFrom_total {sum : Option (Float × Sign)} {y : Float} {outer : List Level} {c : Cursor}
    (ho : c.Stops Scale.ofChar?) (hs : c.Stops Sign.ofChar?) :
    readFrom env (.complete sum y outer) c =
      readFrom env (.complete none (total sum y) outer) c := by
  cases h : c.skip.text with
  | nil =>
    rw [← readFrom_skip, ← readFrom_skip _ c, readFrom_nil _ h, readFrom_nil _ h]
    cases outer with
    | nil => rfl
    | cons level outer => rfl
  | cons ch rest =>
    have ho := ho ch (by rw [h]; rfl)
    have hs := hs ch (by rw [h]; rfl)
    rw [readFrom_complete h ho hs, readFrom_complete h ho hs]
    rfl

/-! ### Words and numerals -/

section
variable {level : Level} {outer : List Level} {t : Token}

theorem readOperand_of_numeral (h : tokenKind t.run.first = some .numeral) :
    readOperand env level outer t =
      match Decimal.read? t.run.text with
      | some d => level.supply outer d.toFloat
      | none => .error (.malformedNumeral (String.ofList t.run.text) t.start) := by
  rw [readOperand, if_neg (first_ne_of_tokenKind h (by decide)),
    if_neg (first_ne_of_tokenKind h (by decide)), if_neg (first_ne_of_tokenKind h (by decide))]
  cases Decimal.read? t.run.text with
  | none => simp only [h]
  | some d => simp only [h]

theorem readOperand_of_word (h : tokenKind t.run.first = some .word) :
    readOperand env level outer t =
      match Builtin.ofName? (String.ofList t.run.text) with
      | some f => State.descend (level.await (.call f)) outer t.stop
      | none =>
        match env.get? (String.ofList t.run.text) with
        | some x => level.supply outer x
        | none => .error (.unknownName (String.ofList t.run.text) t.start) := by
  rw [readOperand, if_neg (first_ne_of_tokenKind h (by decide)),
    if_neg (first_ne_of_tokenKind h (by decide)), if_neg (first_ne_of_tokenKind h (by decide))]
  cases hf : Builtin.ofName? (String.ofList t.run.text) with
  | some f => simp only [h, hf]
  | none =>
    cases hx : env.get? (String.ofList t.run.text) with
    | none => simp only [h, hf, hx]
    | some x => simp only [h, hf, hx]

theorem readOperand_of_none (hs : Sign.ofChar? t.run.first = none) (ho : t.run.first ≠ '(')
    (h : tokenKind t.run.first = none) : readOperand env level outer t =
      .error (.unexpectedCharacter t.run.first t.start) := by
  unfold Sign.ofChar? at hs
  split at hs
  · cases hs
  · split at hs
    · cases hs
    · rename_i h₁ h₂
      rw [readOperand, if_neg h₁, if_neg h₂, if_neg ho]
      simp only [h]

end

/-- The limit is checked by the reader when a factor is opened, by the descent at the next one. -/
theorem readFrom_descend {level : Level} {outer : List Level} {c : Cursor}
    (h : openFactors level outer < maxOpenFactors → readFrom env (.due level outer) c =
      (parseFactor env (openFactors level outer) c).bind fun r =>
        (level.supply outer r.1).bind fun s => readFrom env s r.2) :
    ((State.descend level outer c.position).bind fun s => readFrom env s c) =
      (parseFactor env (openFactors level outer) c).bind fun r =>
        (level.supply outer r.1).bind fun s => readFrom env s r.2 := by
  by_cases hd : maxOpenFactors ≤ openFactors level outer
  · rw [State.descend, if_pos hd, parseFactor_tooDeep hd]
    rfl
  · rw [State.descend, if_neg hd, Logged.value_bind, h (Nat.not_le.1 hd)]

theorem readFrom_closing {level : Level} {outer : List Level} {x : Float} {c : Cursor}
    (ho : c.Stops Scale.ofChar?) (hs : c.Stops Sign.ofChar?) :
    readFrom env (.complete none x (level :: outer)) c =
      (parseClosing x c).bind fun r =>
        (level.supply outer r.1).bind fun s => readFrom env s r.2 := by
  unfold parseClosing
  cases h : c.skip.text with
  | nil =>
    rw [← readFrom_skip, readFrom_nil _ h, Cursor.eat?_of_nil h]
    rfl
  | cons ch rest =>
    have ho := ho ch (by rw [h]; rfl)
    have hs := hs ch (by rw [h]; rfl)
    rw [readFrom_complete h ho hs]
    dsimp only
    by_cases hch : ch = ')'
    · have hclose : only ')' ch = some () := if_pos hch
      obtain ⟨next, he, hnext⟩ := Cursor.eat?_of_some h hclose
      rw [if_pos hch, he, ← hnext]
      rfl
    · rw [if_neg hch, Cursor.eat?_of_none h (if_neg hch)]
      rfl

section
-- The recursion is that of the descent. What waits at a level is supplied where its operand ends, so
-- the rest of the text enters the statements as what is read from the state after it.
mutual

theorem readFrom_due (level : Level) (outer : List Level) (c : Cursor)
    (hd : openFactors level outer < maxOpenFactors) :
    readFrom env (.due level outer) c =
      (parseFactor env (openFactors level outer) c).bind fun r =>
        (level.supply outer r.1).bind fun s => readFrom env s r.2 := by
  cases hrest : c.skip.text with
  | nil =>
    rw [← readFrom_skip, readFrom_nil _ hrest, parseFactor_end hd hrest]
    rfl
  | cons ch rest =>
    have hlt := Cursor.length_lt_of_skip hrest
    cases hs : Sign.ofChar? ch with
    | some s =>
      have ht : (Token.mk ⟨ch, []⟩ c.skip.position).run.text = s.mark.text :=
        Sign.text_mark_of_ofChar? hs
      have hdescend := readFrom_descend (readFrom_due (level.await (.sign s)) outer
        ⟨c.skip.position + ch.utf8Size, rest⟩)
      rw [readFrom_char _ hrest (tokenKind_of_sign hs), step_sign ht]
      refine hdescend.trans ?_
      rw [openFactors_await, parseFactor_sign hd hrest hs, Logged.bind_assoc]
      simp only [Logged.value_bind, supply_await, Waiting.apply, Logged.mapError_value]
    | none =>
      by_cases ho : ch = '('
      · subst ho
        have ht : (Token.mk ⟨'(', []⟩ c.skip.position).run.text = (Lexeme.mark '(').text := rfl
        rw [readFrom_char _ hrest (by decide), step_open ht, parseFactor_open hd hrest,
          ← openFactors_fresh_cons, Logged.bind_assoc]
        by_cases hdeep : maxOpenFactors ≤ openFactors .fresh (level :: outer)
        · rw [State.descend, if_pos hdeep, parseSum_tooDeep hdeep]
          rfl
        · have hopen : openFactors .fresh (level :: outer) = outside (level :: outer) :=
            Nat.zero_add _
          rw [State.descend, if_neg hdeep, Logged.value_bind, hopen,
            readFrom_sum (level :: outer) _ (hopen ▸ Nat.not_le.1 hdeep)]
          apply Logged.bind_congr
          intro r hr
          obtain ⟨_, hscale, hsign⟩ := parseSum_stops hr
          exact readFrom_closing hscale hsign
      · cases hk : tokenKind ch with
        | none =>
          rw [readFrom_char _ hrest hk, parseFactor_unexpected hd hrest hs ho hk, State.step,
            readOperand_of_none hs ho hk]
          rfl
        | some k =>
          cases k with
          | numeral =>
            have hn := (tokenKind_eq_numeral_iff ch).1 hk
            obtain ⟨r, hfirst, htext, hread⟩ :=
              readFrom_pass (.due level outer) hrest tokenKind_eq_numeral_iff hn
            have hliteral : r.text = c.literal := htext
            rw [hread, parseFactor_numeral hd (Cursor.takeWhile_ne hrest hn), State.step,
              readOperand_of_numeral (hfirst ▸ hk)]
            dsimp only
            rw [hliteral]
            cases Decimal.read? c.literal with
            | none => rfl
            | some d => rfl
          | word =>
            have hl := (tokenKind_eq_word_iff ch).1 hk
            obtain ⟨r, hfirst, htext, hread⟩ :=
              readFrom_pass (.due level outer) hrest tokenKind_eq_word_iff hl
            have hname : String.ofList r.text = c.word := congrArg String.ofList htext
            have hpass : (c.skip.pass Char.isLower).text.length < c.text.length :=
              (Cursor.length_pass_lt hrest hl).trans_le (c.length_pass_le _)
            have hstop : (Token.mk r c.skip.position).stop =
                (c.skip.pass Char.isLower).position := by
              rw [Token.stop, Run.size, htext]
              rfl
            have hw := Cursor.word_ne_iff.2 (Cursor.takeWhile_ne hrest hl)
            rw [hread, parseFactor_word hd hw, State.step, readOperand_of_word (hfirst ▸ hk), hstop]
            dsimp only
            rw [hname]
            cases Builtin.ofName? c.word with
            | none =>
              dsimp only
              cases env.get? c.word with
              | none => rfl
              | some x => rfl
            | some f =>
              have hdescend := readFrom_descend (readFrom_due (level.await (.call f)) outer
                (c.skip.pass Char.isLower))
              refine hdescend.trans ?_
              rw [openFactors_await]
              simp only [Logged.bind_assoc, Logged.value_bind, supply_await, Waiting.apply]
termination_by (c.text.length, 0)

theorem readFrom_term (sum : Option (Float × Sign)) (outer : List Level) (c : Cursor)
    (hd : outside outer < maxOpenFactors) :
    readFrom env (.due ⟨sum, none, []⟩ outer) c =
      (parseTerm env (outside outer) c).bind fun r =>
        readFrom env (.complete sum r.1 outer) r.2 := by
  have ho : openFactors ⟨sum, none, []⟩ outer = outside outer := Nat.zero_add _
  rw [readFrom_due _ outer c (ho ▸ hd), parseTerm_eq, Logged.bind_assoc, ho]
  apply Logged.bind_congr
  intro r hr
  have hlt := parseFactor_beyond hr
  exact readFrom_scaled sum r.1 outer r.2 hd
termination_by (c.text.length, 1)

theorem readFrom_scaled (sum : Option (Float × Sign)) (y : Float) (outer : List Level) (c : Cursor)
    (hd : outside outer < maxOpenFactors) :
    readFrom env (.complete sum y outer) c =
      (parseScaled env (outside outer) y c).bind fun r =>
        readFrom env (.complete sum r.1 outer) r.2 := by
  rcases c.stops_or_goes_on Scale.ofChar? with hstop | ⟨ch, rest, o, hrest, ho⟩
  · rw [parseScaled_stop hstop, Logged.value_bind, readFrom_skip]
  · have hlt := Cursor.length_lt_of_skip hrest
    have ht : (Token.mk ⟨ch, []⟩ c.skip.position).run.text = o.mark.text :=
      Scale.text_mark_of_ofChar? ho
    have hopen : openFactors ⟨sum, some (y, o), []⟩ outer = outside outer := Nat.zero_add _
    rw [parseScaled_operator hrest ho, readFrom_char _ hrest (tokenKind_of_scale ho),
      step_scale ht, Logged.value_bind, Logged.bind_assoc, readFrom_due _ outer _ (hopen ▸ hd),
      hopen]
    apply Logged.bind_congr
    intro r hr
    have hbeyond := (parseFactor_beyond hr).trans hlt
    exact readFrom_scaled sum (o.combine y r.1) outer r.2 hd
termination_by (c.text.length, 0)

theorem readFrom_added (sum : Option (Float × Sign)) (y : Float) (outer : List Level) (c : Cursor)
    (hc : c.Stops Scale.ofChar?) (hd : outside outer < maxOpenFactors) :
    readFrom env (.complete sum y outer) c =
      (parseAdded env (outside outer) (total sum y) c).bind fun r =>
        readFrom env (.complete none r.1 outer) r.2 := by
  rcases c.stops_or_goes_on Sign.ofChar? with hstop | ⟨ch, rest, s, hrest, hs⟩
  · rw [parseAdded_stop hstop, Logged.value_bind, readFrom_skip, readFrom_total hc hstop]
  · have hlt := Cursor.length_lt_of_skip hrest
    have ht : (Token.mk ⟨ch, []⟩ c.skip.position).run.text = s.mark.text :=
      Sign.text_mark_of_ofChar? hs
    rw [parseAdded_operator hrest hs, readFrom_char _ hrest (tokenKind_of_sign hs), step_add ht,
      Logged.value_bind, Logged.bind_assoc, readFrom_term _ outer _ hd]
    apply Logged.bind_congr
    intro r hr
    have hbeyond := (parseTerm_beyond hr).trans hlt
    -- the reader adds the term when the next one begins, the descent right after it
    exact readFrom_added (some (total sum y, s)) r.1 outer r.2 (parseTerm_stops hr).2 hd
termination_by (c.text.length, 0)

theorem readFrom_sum (outer : List Level) (c : Cursor) (hd : outside outer < maxOpenFactors) :
    readFrom env (.due .fresh outer) c =
      (parseSum env (outside outer) c).bind fun r =>
        readFrom env (.complete none r.1 outer) r.2 := by
  have hterm : readFrom env (.due .fresh outer) c = _ := readFrom_term none outer c hd
  rw [hterm, parseSum_eq, Logged.bind_assoc]
  apply Logged.bind_congr
  intro r hr
  have hlt := parseTerm_beyond hr
  exact readFrom_added none r.1 outer r.2 (parseTerm_stops hr).2 hd
termination_by (c.text.length, 2)

end
end

/-- The two readings of a text have the same value or error and the same events. -/
theorem parse_eq_read (text : List Char) : parse env text = read env text := by
  have hread : read env text = readFrom env (.due .fresh []) ⟨0, text⟩ := by
    rw [read, readFrom, Nat.zero_add]
    rfl
  rw [hread, readFrom_sum [] _ (by decide), parse]
  apply Logged.bind_congr
  intro r hr
  obtain ⟨hskip, hscale, hsign⟩ := parseSum_stops hr
  obtain ⟨x, c⟩ := r
  dsimp only at hskip hscale hsign ⊢
  cases h : c.text with
  | nil =>
    rw [readFrom_nil _ h]
    rfl
  | cons ch rest =>
    rw [← hskip] at h
    have ho := hscale ch (by rw [h]; rfl)
    have hs := hsign ch (by rw [h]; rfl)
    rw [readFrom_complete h ho hs, hskip]

end LineCalculator.Expression

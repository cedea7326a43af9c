import LineCalculator.Proofs.Grammar.Alike
import LineCalculator.Proofs.Grammar.Position
/-! # Errors at the first point where a text goes wrong

What was read before an error can go on to an expression that has a value, unless a factorial
waits in it whose argument would be refused. And an error that is about one character is found
there whatever follows the character.

* `ExpressionError.IsDecided`: the errors for which the text up to their character is enough.
* `ExpressionError.IsResumable`: the errors at which another text could have gone on.
* `Stops.of_head`: a text is refused as another one that agrees with it up to that character.
* `exists_continuation`: a state without a factorial that waits can be completed.
* `error_at_first_point`: where each error is found.
-/

namespace LineCalculator
set_option autoImplicit false

namespace ExpressionError

/-- The error is about the character at its position. -/
def IsDecided : ExpressionError → Prop
  | unexpectedCharacter _ _ => True
  | trailingInput _ _ => True
  | missingParenthesis _ => True
  | nestedTooDeeply _ => True
  | _ => False

/-- The error is that an operand or a parenthesis is missing at its position. -/
def IsResumable : ExpressionError → Prop
  | unexpectedCharacter _ _ => True
  | unexpectedEnd _ => True
  | missingParenthesis _ => True
  | _ => False

end ExpressionError

namespace Expression
open Text

variable {env : Environment} {text a b : List Char} {r : Run} {s : State} {e : ExpressionError}

/-! ## Texts that agree up to a character -/

/-- Whatever follows its first character, a token stands in the same place. -/
theorem TokenAt.exists_of_first (h : TokenAt a r b) (rest : List Char) :
    ∃ r' b', r'.first = r.first ∧ r.first :: rest = r'.text ++ b' ∧ TokenAt a r' b' := by
  obtain ⟨more, rs, hruns⟩ := exists_runs_cons tokenKind r.first rest
  obtain ⟨b', hrest, -, hu, ha⟩ := exists_of_runs_eq_cons hruns
  refine ⟨⟨r.first, more⟩, b', rfl, hrest, hu, h.not_space, ?_, ha⟩
  exact h.apart_before.congr_right rfl

/-- Whatever follows the character after it, a token stands in the same place. -/
theorem TokenAt.congr_head {b' : List Char} (h : TokenAt a r b) (hb : b.head? = b'.head?) :
    TokenAt a r b' :=
  ⟨h.uniform, h.not_space, h.apart_before.congr_right rfl, h.apart_after.congr_right hb⟩

/-- A text is refused as another one that agrees with it through the character at the error. -/
theorem Stops.of_head {c : Char} (h : Stops env (a ++ c :: b) e) (hdecided : e.IsDecided)
    (hposition : e.position? = some (byteLength a)) (b' : List Char) :
    Stops env (a ++ c :: b') e := by
  generalize htext : a ++ c :: b = text at h
  cases h with
  | @token a₀ b₀ r s e htext₀ ht hs h =>
    rw [htext₀] at htext
    have first (hp : byteLength a₀ = byteLength a)
        (hfirst : ∀ r' : Run, r'.first = r.first → Refuses env s ⟨r', byteLength a₀⟩ e) :
        Stops env (a ++ c :: b') e := by
      obtain rfl := eq_of_byteLength_eq htext hp.symm
      obtain ⟨rfl, -⟩ := List.cons.inj (List.append_cancel_left htext)
      obtain ⟨r', b'', hr', hrest, ht'⟩ := ht.exists_of_first b'
      exact .token (by rw [hrest]) ht' hs (hfirst r' hr')
    cases h with
    | opening hl hl' hd =>
      have hp : byteLength (a₀ ++ r.text) = byteLength a := by
        rw [byteLength_append]
        exact Option.some.inj hposition
      rw [← List.append_assoc] at htext
      obtain rfl := eq_of_byteLength_eq htext hp.symm
      obtain rfl := List.append_cancel_left htext
      exact .token (List.append_assoc _ _ _) (ht.congr_head rfl) hs (.opening hl hl' hd)
    | operand hsign hopen hk =>
      refine first (Option.some.inj hposition) fun r' hr' => ?_
      simp only [← hr'] at hsign hopen hk ⊢
      exact .operand hsign hopen hk
    | numeral hk hread => exact absurd hdecided id
    | name hk hf hx => exact absurd hdecided id
    | trailing ho hsign =>
      refine first (Option.some.inj hposition) fun r' hr' => ?_
      simp only [← hr'] at ho hsign ⊢
      exact .trailing ho hsign
    | unclosed ho hsign hc =>
      refine first (Option.some.inj hposition) fun r' hr' => ?_
      simp only [← hr'] at ho hsign hc
      exact .unclosed ho hsign hc
  | operandMissing hs => exact absurd hdecided id
  | parenthesisMissing hs =>
    have hlen := Option.some.inj hposition
    rw [← htext, byteLength_append] at hlen
    have := c.utf8Size_pos
    simp only [byteLength] at hlen
    omega

/-! ## Texts that go on from a state -/

theorem read_of_scan {sum : Option (Float × Sign)} {y : Float}
    (hs : scan env .start text = .reached (.complete sum y [])) :
    (read env text).result = .ok (total sum y) := by
  rw [← outcome_eq_reached, outcome_read, hs]
  rfl

/-- No factorial waits at any level. -/
def State.NoFactorial : State → Prop
  | due level outer => ∀ l ∈ level :: outer, .call .fact ∉ l.waiting
  | complete _ _ outer => ∀ l ∈ outer, .call .fact ∉ l.waiting

theorem noFactorial_of_scan (htext : ¬ "fact".toList <:+: text)
    (hs : scan env .start text = .reached s) : s.NoFactorial := by
  have halike : (scan env .start text).Alike (scan env .start text) :=
    alike_scan (fun _ => rfl) .start htext
  rw [hs] at halike
  cases halike with
  | reached h =>
    cases h with
    | due hl ho hd =>
      refine List.forall_mem_cons.2 ⟨hl.no_factorial, fun l h => ?_⟩
      exact (List.forall₂_same.1 ho l h).no_factorial
    | complete ho hd => exact fun l h => (List.forall₂_same.1 ho l h).no_factorial

variable (env) in
theorem scan_close (sum : Option (Float × Sign)) (y : Float) {level : Level} (outer : List Level)
    (h : .call .fact ∉ level.waiting) :
    ∃ z, scan env (.complete sum y (level :: outer)) [')'] =
      .reached (.complete level.sum z outer) := by
  have hu : (⟨')', []⟩ : Run).Uniform tokenKind := .inr ⟨by decide, rfl⟩
  obtain ⟨z, hz⟩ := supply_eq_value h outer (total sum y)
  refine ⟨z, (scan_run hu (by decide) _).trans ?_⟩
  rw [step_close rfl, hz]
  rfl

variable (env) in
/-- As many parentheses as are open close them all. -/
theorem scan_closing (sum : Option (Float × Sign)) (y : Float) (outer : List Level)
    (h : ∀ l ∈ outer, .call .fact ∉ l.waiting) :
    ∃ sum' z, scan env (.complete sum y outer) (List.replicate outer.length ')') =
      .reached (.complete sum' z []) := by
  induction outer generalizing sum y with
  | nil => exact ⟨sum, y, rfl⟩
  | cons level outer ih =>
    obtain ⟨hlevel, houter⟩ := List.forall_mem_cons.1 h
    obtain ⟨x, hx⟩ := scan_close env sum y outer hlevel
    obtain ⟨sum', z, hz⟩ := ih level.sum x houter
    refine ⟨sum', z, ?_⟩
    rw [List.length_cons, List.replicate_succ, scan_cons _ (by decide), hx]
    exact hz

variable (env) in
theorem scan_zero {level : Level} (outer : List Level) (h : .call .fact ∉ level.waiting) :
    ∃ y, scan env (.due level outer) [' ', '0'] = .reached (.complete level.sum y outer) := by
  obtain ⟨y, hy⟩ := supply_eq_value h outer Numeral.zero.decimal.toFloat
  have hstep : (State.due level outer).step env ⟨⟨'0', []⟩, 1⟩ =
      .value (.complete level.sum y outer) := by
    rw [← hy]
    exact step_numeral rfl
  have htokens : tokens [' ', '0'] = [⟨⟨'0', []⟩, 1⟩] := by decide
  refine ⟨y, ?_⟩
  rw [scan, htokens, State.run_cons, hstep]
  rfl

theorem apart_closing (n : Nat) : Apart tokenKind text (List.replicate n ')') := by
  refine Apart.of_right text fun c hc => ?_
  rw [List.eq_of_mem_replicate (List.mem_of_mem_head? hc)]
  decide

/-- A state without a factorial that waits can be completed: a number is an operand where one is
due, and then the open parentheses are closed. -/
theorem exists_continuation (hs : scan env .start a = .reached s) (hfact : s.NoFactorial) :
    ∃ b v, (read env (a ++ b)).result = .ok v := by
  cases s with
  | due level outer =>
    obtain ⟨hlevel, houter⟩ := List.forall_mem_cons.1 hfact
    obtain ⟨y, hy⟩ := scan_zero env outer hlevel
    obtain ⟨sum, z, hz⟩ := scan_closing env level.sum y outer houter
    refine ⟨[' ', '0'] ++ List.replicate outer.length ')', total sum z, read_of_scan ?_⟩
    have happart : Apart tokenKind a ([' ', '0'] ++ List.replicate outer.length ')') :=
      Apart.before_char a _ tokenKind_space
    rw [scan_append happart, hs, Outcome.reached_bind, scan_append (apart_closing _), hy]
    exact hz
  | complete sum y outer =>
    obtain ⟨sum', z, hz⟩ := scan_closing env sum y outer hfact
    refine ⟨List.replicate outer.length ')', total sum' z, read_of_scan ?_⟩
    rw [scan_append (apart_closing _), hs]
    exact hz

/-! ## Where an error is found -/

/-- A resumable error stands behind a text that leads to a state. -/
theorem Stops.exists_scan (h : Stops env text e) (hresumable : e.IsResumable) :
    ∃ a b s, text = a ++ b ∧ e.position? = some (byteLength a) ∧
      scan env .start a = .reached s := by
  cases h with
  | token htext ht hs h =>
    cases h with
    | operand _ _ _ => exact ⟨_, _, _, htext, rfl, hs⟩
    | unclosed _ _ _ => exact ⟨_, _, _, htext, rfl, hs⟩
    | _ => exact absurd hresumable id
  | operandMissing hs => exact ⟨text, [], _, (List.append_nil text).symm, rfl, hs⟩
  | parenthesisMissing hs => exact ⟨text, [], _, (List.append_nil text).symm, rfl, hs⟩

/-- Errors are found at the first point where the text goes wrong. The text through the character
that an error is about fails in that way whatever follows; the text before trailing input has a
value; and the text before a missing operand or parenthesis can go on to one that has a value,
unless a factorial is applied in it. -/
theorem error_at_first_point (env : Environment) (text : List Char) (e : ExpressionError)
    (h : (read env text).result = .error e) :
    (e.IsDecided → ∀ a c b, text = a ++ c :: b → e.position? = some (byteLength a) →
      ∀ b', (read env (a ++ c :: b')).result = .error e) ∧
    (∀ ch position, e = .trailingInput ch position → ∃ a b, text = a ++ b ∧
      byteLength a = position ∧ ∃ v, (read env a).result = .ok v) ∧
    (¬ "fact".toList <:+: text → e.IsResumable → ∃ a b, text = a ++ b ∧
      e.position? = some (byteLength a) ∧ ∃ b' v, (read env (a ++ b')).result = .ok v) := by
  refine ⟨?_, ?_, ?_⟩
  · rintro hdecided a c b rfl hposition b'
    have hdomain : ∀ refusal, e ≠ .domain refusal := by
      rintro refusal rfl
      exact hdecided
    exact error_of_stops (((read_eq_error_iff_stops hdomain).1 h).of_head hdecided hposition b')
  · rintro ch position rfl
    cases (read_eq_error_iff_stops (by simp)).1 h with
    | token htext ht hs h =>
      cases h with
      | trailing ho hsign => exact ⟨_, _, htext, rfl, _, read_of_scan hs⟩
  · intro hfact hresumable
    have hdomain : ∀ refusal, e ≠ .domain refusal := by
      rintro refusal rfl
      exact hresumable
    obtain ⟨a, b, s, rfl, hposition, hs⟩ :=
      ((read_eq_error_iff_stops hdomain).1 h).exists_scan hresumable
    have ha : ¬ "fact".toList <:+: a := fun h =>
      hfact (h.trans (List.prefix_append a b).isInfix)
    exact ⟨a, b, rfl, hposition, exists_continuation hs (noFactorial_of_scan ha hs)⟩

/-- Nothing that begins with `2 * (3 $` is an expression. -/
theorem error_at_dollar :
    (read .empty "2 * (3 $ 1)".toList).result = .error (.missingParenthesis 7) ∧
      ∀ b, (read .empty ("2 * (3 ".toList ++ '$' :: b)).result =
        .error (.missingParenthesis 7) := by
  have h : (read .empty "2 * (3 $ 1)".toList).result = .error (.missingParenthesis 7) := by
    decide +kernel
  have htext : "2 * (3 $ 1)".toList = "2 * (3 ".toList ++ '$' :: " 1)".toList := by decide
  exact ⟨h, (error_at_first_point .empty _ _ h).1 trivial _ '$' _ htext rfl⟩

end Expression

end LineCalculator

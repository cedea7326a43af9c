import LineCalculator.Proofs.Grammar.Composite
import LineCalculator.Proofs.Substitution.Compiled
import LineCalculator.Proofs.Substitution.Occurrence
import LineCalculator.Proofs.Substitution.Operand
/-! # Bound names as operands

A bound name should stand for one operand, as it does in parentheses. It does but for two kinds of
places: next to a point its value runs together with it, and after a complete operand the sign of a
negative value is read as an operator.

* `Hygienic env expression`: parentheses around the bound names change nothing, unless they nest too
  deeply.
* `Safe`, `Detached env text`: a bound name, and all of them, stand at no such place.
* `read_render`: a rendered value is read as itself.
* `follows_render`: where an operand is due a value is read as it is in parentheses.
* `follows_of_detached`, `detachedFrom_of_reached`: the same for whole texts, and its converse.
* `hygienic_iff`: which expressions are hygienic.
-/

namespace LineCalculator.Substitution
set_option autoImplicit false
open Text Expression

variable {env : Environment}

/-! ## A value where an operand is due -/

theorem tokenTexts_render (x : Float) :
    tokenTexts (render x) = (operand x).lexemes.map Lexeme.text := by
  have h := spells_operand x (.blanks 0) (Apart.nil_right tokenKind (render x))
  rw [List.replicate_zero, List.append_nil, List.append_nil] at h
  exact tokenTexts_of_lexemes h (operand x).proper_lexemes (resolved_operand .empty x)

def enclosed (x : Float) : FactorTree := .group (.term (.factor (operand x)))

theorem resolved_enclosed (env : Environment) (x : Float) :
    ∀ l ∈ (enclosed x).lexemes, l.Resolved env := resolved_group (resolved_operand env x)

theorem depth_enclosed (x : Float) : (enclosed x).depth = (operand x).depth + 1 := rfl

theorem result_operand (x : Float) : ((operand x).value env.lookup).result = .ok x := by
  rw [value_operand]
  rfl

theorem read_render_eq (env : Environment) (x : Float) : read env (render x) = .value x := by
  let e : SumTree := .term (.factor (operand x))
  have htext : tokenTexts (render x) = e.lexemes.map Lexeme.text := tokenTexts_render x
  have hd : e.depth ≤ maxOpenFactors := (depth_operand_le x).trans (by decide)
  have hvalue : e.value env.lookup = .value x := value_operand env.lookup x
  rw [read_eq_value htext (resolved_operand env x) hd, hvalue]
  rfl

theorem read_render (env : Environment) (x : Float) : (read env (render x)).result = .ok x := by
  rw [read_render_eq]
  rfl

theorem result_enclosed (x : Float) : ((enclosed x).value env.lookup).result = .ok x :=
  result_operand x

theorem tokenTexts_enclosed (x : Float) :
    tokenTexts ('(' :: (render x ++ [')'])) = (enclosed x).lexemes.map Lexeme.text :=
  tokenTexts_group (tokenTexts_render x)

/-- Where an operand is due a value is read as it is in parentheses, unless these open too many
factors. -/
theorem follows_render (level : Level) (outer : List Level) (x : Float) :
    (scan env (.due level outer) (render x)).Follows
      (scan env (.due level outer) ('(' :: (render x ++ [')']))) := by
  by_cases ho : openFactors level outer < maxOpenFactors
  · by_cases hd : openFactors level outer + (enclosed x).depth ≤ maxOpenFactors
    · have hle : openFactors level outer + (operand x).depth ≤ maxOpenFactors := by
        rw [depth_enclosed] at hd
        omega
      have hvalue := FactorTree.outcome_run (tokenTexts_render x)
        (resolved_operand env x) (result_operand x) hle
      have henclosed := FactorTree.outcome_run (tokenTexts_enclosed x)
        (resolved_enclosed env x) (result_enclosed x) hd
      rw [scan, scan, hvalue, henclosed]
      exact Outcome.Follows.refl _
    · exact .inl (FactorTree.run_tooDeep (enclosed x) (tokenTexts_enclosed x)
        (resolved_enclosed env x) (result_enclosed x) ho (Nat.not_le.1 hd))
  · left
    have hopen := openFactors_fresh_cons level outer
    rw [scan_cons _ (by decide), scan_open, if_pos (by omega), Outcome.tooDeep_bind]

/-! ## A value where an operator is due -/

theorem exists_render_eq_cons (x : Float) : ∃ c more, render x = c :: more ∧
    (c = '-' ∨ c = '(' ∨ Decimal.isNumeralChar c = true) := by
  by_cases hnan : Double.isNaN x = true
  · exact ⟨'(', _, by rw [render, if_pos hnan]; rfl, by decide⟩
  by_cases hinf : Double.isInfinite x = true
  · rw [render, if_neg hnan, if_pos hinf]
    split
    · exact ⟨'(', _, rfl, by decide⟩
    · exact ⟨'(', _, rfl, by decide⟩
  · rw [render_of_finite (rank_lt_of_finite hnan hinf)]
    split
    · exact ⟨'-', _, rfl, by decide⟩
    · let n := (Decimal.shortest (Double.rank x)).numeral
      obtain ⟨c, more, hc⟩ := List.exists_cons_of_ne_nil n.text_ne_nil
      have hmem : c ∈ n.text := by rw [hc]; exact List.mem_cons_self
      exact ⟨c, more, hc, .inr (.inr (n.isNumeral.1 c hmem))⟩

/-- After a complete operand a value without a sign in front is refused. -/
theorem scan_render_of_isComplete {s : State} (hs : s.IsComplete) {x : Float}
    (hx : (render x).head? ≠ some '-') : scan env s (render x) = .failed := by
  obtain ⟨c, more, hr, hc⟩ := exists_render_eq_cons x
  rw [hr] at hx ⊢
  apply scan_complete hs
  intro hmem
  rcases hc with rfl | rfl | hn
  · exact hx rfl
  · exact absurd hmem (by decide)
  · have hall : ∀ d ∈ [' ', '*', '/', '+', '-', ')'], Decimal.isNumeralChar d = false := by decide
    rw [hall c hmem] at hn
    cases hn

/-! ## Occurrences -/

/-- The value of a name may stand in its stead: no point runs together with it, and when it has a
sign in front then no operand is complete before it. -/
structure Safe (env : Environment) (s : State) (before name after : List Char) : Prop where
  no_point_before : before.getLast? ≠ some '.'
  no_point_after : after.head? ≠ some '.'
  no_operator_due : (replace env name).head? = some '-' →
    ∀ s', scan env s (substitute env before) = .reached s' → ¬ s'.IsComplete

/-- All bound names of a text that is read from a state on are safe. -/
def DetachedFrom (env : Environment) (s : State) (text : List Char) : Prop :=
  ∀ before name after, text = before ++ (name ++ after) → Occurrence env before name after →
    Safe env s before name after

def Detached (env : Environment) (text : List Char) : Prop := DetachedFrom env .start text

theorem tokenKind_of_not_isWord {c : Char} (h : isWord c = false) (hp : c ≠ '.') :
    tokenKind c = none := by
  have hn : Decimal.isNumeralChar c = false := by
    apply Bool.eq_false_iff.2
    intro hn
    rw [isWord_of_isDigit (isDigit_of_isNumeralChar hn hp)] at h
    cases h
  have hl : c.isLower = false := by
    apply Bool.eq_false_iff.2
    intro hl
    rw [isWord_of_isAlpha (by simp [Char.isAlpha, hl])] at h
    cases h
  simp [tokenKind, hn, hl]

section Split
variable {before name after : List Char} (ho : Occurrence env before name after) (s : State)
include ho

/-- Between points and names that are no part of them values are tokens on their own. -/
theorem scan_substitute_occurrence (hbefore : before.getLast? ≠ some '.')
    (hafter : after.head? ≠ some '.') :
    scan env s (substitute env (before ++ (name ++ after))) =
      (scan env s (substitute env before)).bind fun s =>
        (scan env s (replace env name)).bind fun s => scan env s (substitute env after) := by
  have hleft : Apart tokenKind (substitute env before)
      (replace env name ++ substitute env after) := by
    refine Apart.of_left _ fun c hc => ?_
    rw [getLast?_substitute env ho.isWord_getLast?] at hc
    refine tokenKind_of_not_isWord (ho.isWord_getLast? c hc) ?_
    rintro rfl
    exact hbefore hc
  have hright : Apart tokenKind (replace env name) (substitute env after) := by
    refine Apart.of_right _ fun c hc => ?_
    rw [head?_substitute env ho.isWord_head?] at hc
    refine tokenKind_of_not_isWord (ho.isWord_head? c hc) ?_
    rintro rfl
    exact hafter hc
  rw [substitute_eq_mapWords, ho.mapWords_eq, ← substitute_eq_mapWords, scan_append hleft]
  congr 1
  funext s
  exact scan_append hright s

theorem scan_substitute (hb : Unbound env before) (hbefore : before.getLast? ≠ some '.')
    (hafter : after.head? ≠ some '.') :
    scan env s (substitute env (before ++ (name ++ after))) = (scan env s before).bind fun s =>
      (scan env s (replace env name)).bind fun s => scan env s (substitute env after) := by
  rw [scan_substitute_occurrence ho s hbefore hafter, hb.substitute_eq]

theorem scan_encloseValue :
    scan env s (mapWords (encloseValue env) (before ++ (name ++ after))) =
      (scan env s (mapWords (encloseValue env) before)).bind fun s =>
        (scan env s ('(' :: (replace env name ++ [')']))).bind fun s =>
          scan env s (mapWords (encloseValue env) after) := by
  have hleft : Apart tokenKind (mapWords (encloseValue env) before)
      ('(' :: (replace env name ++ [')']) ++ mapWords (encloseValue env) after) :=
    Apart.before_char _ _ (by decide)
  have hright : Apart tokenKind ('(' :: (replace env name ++ [')']))
      (mapWords (encloseValue env) after) :=
    Apart.after_char ('(' :: replace env name) _ (by decide)
  rw [ho.mapWords_eq, encloseValue, if_pos ho.bound, scan_append hleft]
  congr 1
  funext s
  exact scan_append hright s

end Split

/-! ## Whole texts -/

theorem DetachedFrom.rest {s s₁ s₂ : State} {before name after : List Char}
    (hd : DetachedFrom env s (before ++ (name ++ after))) (hb : Unbound env before)
    (ho : Occurrence env before name after) (h₁ : scan env s before = .reached s₁)
    (h₂ : scan env s₁ (replace env name) = .reached s₂) : DetachedFrom env s₂ after := by
  rintro b n a rfl hn
  have hname : Apart wordKind (before ++ name) (b ++ n) := by
    have h := ho.right
    rw [← List.append_assoc] at h
    refine h.of_append.congr_left ?_
    rw [List.getLast?_append_of_ne_nil _ ho.ne_nil]
  have hwhole := hn.append_left hname
  have hsafe := hd (before ++ name ++ b) n a (by simp only [List.append_assoc]) hwhole
  have hlast : b.getLast? = some '.' → (before ++ name ++ b).getLast? = some '.' := by
    intro h
    rw [List.getLast?_append, h]
    rfl
  refine ⟨fun h => hsafe.no_point_before (hlast h), hsafe.no_point_after, fun hneg s' hs' => ?_⟩
  apply hsafe.no_operator_due hneg
  have hfirst := hd before name (b ++ (n ++ a)) rfl ho
  have hpoint : b.head? ≠ some '.' := by
    intro h
    apply hfirst.no_point_after
    rw [List.head?_append, h]
    rfl
  rw [List.append_assoc, scan_substitute ho.of_append s hb hfirst.no_point_before hpoint, h₁,
    Outcome.reached_bind, h₂, Outcome.reached_bind, hs']

/-- Where all bound names are safe a text is read as it is with parentheses around them. -/
theorem follows_of_detached {s : State} {text : List Char} (hd : DetachedFrom env s text) :
    (scan env s (substitute env text)).Follows
      (scan env s (mapWords (encloseValue env) text)) := by
  induction text using occurrence_induction env generalizing s with
  | unbound text h =>
    rw [h.substitute_eq, h.encloseValue_eq]
    exact Outcome.Follows.refl _
  | occurrence before name after hb ho ih =>
    have hsafe := hd before name after rfl ho
    rw [scan_substitute ho s hb hsafe.no_point_before hsafe.no_point_after,
      scan_encloseValue ho s, hb.encloseValue_eq]
    refine (Outcome.Follows.refl _).bind fun s₁ h₁ => Outcome.Follows.bind ?_ fun s₂ h₂ => ?_
    -- the value is read alike, or both forms are refused because no operand is due
    · cases s₁ with
      | due level outer =>
        rw [ho.replace_eq]
        exact follows_render level outer _
      | complete sum term outer =>
        have hs : (State.complete sum term outer).IsComplete := trivial
        have hneg : (replace env name).head? ≠ some '-' := by
          intro hneg
          refine hsafe.no_operator_due hneg _ ?_ hs
          rw [hb.substitute_eq, h₁]
        rw [ho.replace_eq] at hneg ⊢
        rw [scan_render_of_isComplete hs hneg, scan_complete hs _ (by decide)]
        exact Outcome.Follows.refl _
    · exact ih (hd.rest hb ho h₁ h₂)

/-- With parentheses around the bound names only a text in which all of them are safe is read to
its end. -/
theorem detachedFrom_of_reached {s t : State} {text : List Char}
    (h : scan env s (mapWords (encloseValue env) text) = .reached t) :
    DetachedFrom env s text := by
  -- on the length of the text: what stands before an occurrence is read to its end as well
  induction hn : text.length using Nat.strongRecOn generalizing text t with
  | ind n ih =>
    rintro before name after rfl ho
    rw [scan_encloseValue ho s] at h
    obtain ⟨s₁, h₁, h⟩ := Outcome.bind_eq_reached.1 h
    obtain ⟨s₂, h₂, h₃⟩ := Outcome.bind_eq_reached.1 h
    have hpos := List.length_pos_of_ne_nil ho.ne_nil
    have hlt : before.length < n := by
      rw [← hn, List.length_append, List.length_append]
      omega
    have hbefore : DetachedFrom env s before := ih before.length hlt h₁ rfl
    have hdue : ¬ s₁.IsComplete := by
      intro hs
      rw [scan_complete hs _ (by decide)] at h₂
      cases h₂
    have hcomplete : s₂.IsComplete := by
      have hclose : Apart tokenKind ('(' :: replace env name) [')'] :=
        Apart.before_char _ [] (by decide)
      rw [← List.cons_append, scan_append hclose] at h₂
      obtain ⟨s', -, h₂⟩ := Outcome.bind_eq_reached.1 h₂
      exact isComplete_of_scan_close h₂
    refine ⟨fun hp => ?_, fun hp => ?_, fun hneg s' hs' => ?_⟩
    · obtain ⟨b, rfl⟩ := List.getLast?_eq_some_iff.1 hp
      have hpoint : Apart wordKind b ['.'] :=
        Apart.before_char b [] (wordKind_of_not_isWord (by decide))
      rw [mapWords_append hpoint, encloseValue_cons [] (by decide)] at h₁
      exact hdue (isComplete_of_scan_point List.getLast?_concat h₁)
    · obtain ⟨a, rfl⟩ := List.head?_eq_some_iff.1 hp
      rw [encloseValue_cons a (by decide), scan_complete hcomplete _ (by decide)] at h₃
      cases h₃
    · have hf := follows_of_detached hbefore
      rw [hs', h₁] at hf
      rwa [hf.eq_of_reached]

/-! ## Expressions -/

def parenthesized (env : Environment) (expression : String) : String :=
  String.ofList (parenthesize env expression.toList)

def Fails (l : Logged LineError Float) : Prop := ∃ e, l.result = .error e

def FailsTooDeep (l : Logged LineError Float) : Prop :=
  ∃ e position, l.result = .error e ∧ e.cause = some (.nestedTooDeeply position)

/-- What an expression leads to, its bound names replaced by their values. -/
def reading (env : Environment) (expression : String) : Outcome Float :=
  outcome (read env (substitute env expression.toList))

section Reading
variable {expression : String}

section
variable [PatternCompiler]

/-- Parentheses around the bound names leave the value, or that there is none, unless they nest too
deeply. -/
def Hygienic (env : Environment) (expression : String) : Prop :=
  (∃ v, (evaluate env expression).result = .ok v ∧
    (evaluate env (parenthesized env expression)).result = .ok v) ∨
  (Fails (evaluate env expression) ∧ Fails (evaluate env (parenthesized env expression))) ∨
  FailsTooDeep (evaluate env (parenthesized env expression))

theorem evaluate_eq_ok_iff_reading {v : Float} :
    (evaluate env expression).result = .ok v ↔
      Searchable env ∧ reading env expression = .reached v :=
  evaluate_eq_ok_iff.trans (and_congr_right fun _ => outcome_eq_reached.symm)

theorem fails_of_not_searchable (h : ¬ Searchable env) (expression : String) :
    Fails (evaluate env expression) := by
  obtain ⟨name, hname⟩ := not_searchable_iff.1 h
  exact ⟨_, congrArg Logged.result (evaluate_of_missing hname expression)⟩

theorem fails_iff_reading (h : Searchable env) :
    Fails (evaluate env expression) ↔ (reading env expression).value? = none := by
  unfold Fails
  cases hr : (evaluate env expression).result with
  | ok v =>
    rw [(evaluate_eq_ok_iff_reading.1 hr).2]
    simp [Outcome.value?]
  | error e =>
    have hnone : (reading env expression).value? = none := by
      cases hv : reading env expression with
      | reached v =>
        rw [evaluate_eq_ok_iff_reading.2 ⟨h, hv⟩] at hr
        cases hr
      | tooDeep => rfl
      | failed => rfl
    simp [hnone]

theorem failsTooDeep_iff :
    FailsTooDeep (evaluate env expression) ↔
      Searchable env ∧ reading env expression = .tooDeep := by
  unfold FailsTooDeep
  by_cases h : Searchable env
  · rw [h.evaluate_eq, and_iff_right h, reading]
    generalize read env (substitute env expression.toList) = l
    obtain ⟨events, result⟩ := l
    cases result with
    | ok v => simp [Logged.mapError, Except.mapError, outcome]
    | error e =>
      cases e <;> simp [Logged.mapError, Except.mapError, outcome, Outcome.ofError,
        LineError.ofExpression, LineError.cause]
  · obtain ⟨name, hname⟩ := not_searchable_iff.1 h
    rw [evaluate_of_missing hname]
    simp [h, LineError.cause]

theorem evaluate_eq_ok (h : Searchable env) {v : Float} :
    (evaluate env expression).result = .ok v ↔ (reading env expression).value? = some v := by
  rw [evaluate_eq_ok_iff_reading, and_iff_right h]
  cases reading env expression with
  | reached a => simp [Outcome.value?]
  | tooDeep => simp [Outcome.value?]
  | failed => simp [Outcome.value?]

theorem hygienic_iff_follows (h : Searchable env) : Hygienic env expression ↔
    (reading env expression).Follows (reading env (parenthesized env expression)) := by
  unfold Hygienic Outcome.Follows
  rw [fails_iff_reading h, fails_iff_reading h, failsTooDeep_iff, and_iff_right h]
  simp only [evaluate_eq_ok h]
  constructor
  · rintro (⟨v, hv, hv'⟩ | ⟨hn, hn'⟩ | hdeep)
    · exact .inr (hv.trans hv'.symm)
    · exact .inr (hn.trans hn'.symm)
    · exact .inl hdeep
  · rintro (hdeep | heq)
    · exact .inr (.inr hdeep)
    · cases hv : (reading env expression).value? with
      | some v => exact .inl ⟨v, rfl, heq.symm.trans hv⟩
      | none => exact .inr (.inl ⟨rfl, heq.symm.trans hv⟩)

end

theorem reading_eq : reading env expression =
    (scan env .start (substitute env expression.toList)).bind fun s => outcome (s.finish 0) :=
  outcome_read _

theorem reading_parenthesized : reading env (parenthesized env expression) =
    (scan env .start (mapWords (encloseValue env) expression.toList)).bind fun s =>
      outcome (s.finish 0) := by
  rw [reading_eq, parenthesized, String.toList_ofList, substitute_parenthesize]

end Reading

section
variable [PatternCompiler]

theorem hygienic_of_detached {expression : String} (hd : Detached env expression.toList) :
    Hygienic env expression := by
  by_cases hs : Searchable env
  · rw [hygienic_iff_follows hs, reading_eq, reading_parenthesized]
    exact (follows_of_detached hd).bind fun s _ => Outcome.Follows.refl _
  · exact .inr (.inl ⟨fails_of_not_searchable hs _, fails_of_not_searchable hs _⟩)

/-- With parentheses an expression has no value unless its bound names are safe without them. -/
theorem detached_or_fails (env : Environment) (expression : String) :
    Detached env expression.toList ∨ Fails (evaluate env (parenthesized env expression)) := by
  by_cases hs : Searchable env
  · rw [fails_iff_reading hs, reading_parenthesized]
    cases h : scan env .start (mapWords (encloseValue env) expression.toList) with
    | reached s => exact .inl (detachedFrom_of_reached h)
    | tooDeep => exact .inr rfl
    | failed => exact .inr rfl
  · exact .inr (fails_of_not_searchable hs _)

/-- The expressions in which every bound name stands for one operand are those whose bound names
are safe, and those that fail anyway. -/
theorem hygienic_iff (env : Environment) (expression : String) :
    Hygienic env expression ↔
      Detached env expression.toList ∨ Fails (evaluate env expression) ∨
        FailsTooDeep (evaluate env (parenthesized env expression)) := by
  constructor
  · intro h
    rcases detached_or_fails env expression with hd | ⟨e, he⟩
    · exact .inl hd
    rcases h with ⟨v, -, hv⟩ | ⟨hf, -⟩ | hdeep
    · rw [he] at hv
      cases hv
    · exact .inr (.inl hf)
    · exact .inr (.inr hdeep)
  · rintro (hd | hf | hdeep)
    · exact hygienic_of_detached hd
    · rcases detached_or_fails env expression with hd | hf'
      · exact hygienic_of_detached hd
      · exact .inr (.inl ⟨hf, hf'⟩)
    · exact .inr (.inr hdeep)

end

attribute [local instance] PatternCompiler.bySize in
/-- The sign of a negative value is read as an operator. -/
theorem not_hygienic_two_space_negative : ¬ Hygienic (.ofList [("x", -3)]) "2 x" := by
  have hv : (evaluate (.ofList [("x", -3)]) "2 x").result = .ok (-1) := by decide +kernel
  have he : (evaluate (.ofList [("x", -3)]) (parenthesized (.ofList [("x", -3)]) "2 x")).result =
      .error (.invalidExpression "2 (x)" (.trailingInput '(' 2)) := by decide +kernel
  rintro (⟨v, -, h⟩ | ⟨⟨e, h⟩, -⟩ | ⟨e, p, h, hc⟩)
  · rw [he] at h
    cases h
  · rw [hv] at h
    cases h
  · rw [he] at h
    cases h
    cases hc

end LineCalculator.Substitution

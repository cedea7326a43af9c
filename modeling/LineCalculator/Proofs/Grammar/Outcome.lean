import LineCalculator.Proofs.Grammar.Completeness
/-! # Reading a text piece by piece

The places of the tokens enter the errors and nothing else. So what a piece of text leads to does
not depend on where it stands, and a text that is cut where no token is can be read in parts.

* `Outcome`: what a computation leads to, errors told apart only by whether too many factors are
  open.
* `scan env s text`: what the tokens of the text lead to from the state `s`.
* `scan_append`: two texts that do not run together are read one after the other.
* `outcome_read`: reading a whole text.
-/

namespace LineCalculator.Expression
set_option autoImplicit false
open Text

/-! ## Outcomes -/

inductive Outcome (α : Type) where
  | reached (a : α)
  | tooDeep
  | failed
deriving DecidableEq

namespace Outcome
variable {α β : Type}

def bind (o : Outcome α) (f : α → Outcome β) : Outcome β :=
  match o with
  | reached a => f a
  | tooDeep => tooDeep
  | failed => failed

@[simp] theorem reached_bind (a : α) (f : α → Outcome β) : (reached a).bind f = f a := rfl

@[simp] theorem tooDeep_bind (f : α → Outcome β) : (tooDeep : Outcome α).bind f = tooDeep := rfl

@[simp] theorem failed_bind (f : α → Outcome β) : (failed : Outcome α).bind f = failed := rfl

@[simp] theorem bind_reached (o : Outcome α) : o.bind reached = o := by
  cases o <;> rfl

theorem bind_eq_reached {o : Outcome α} {f : α → Outcome β} {b : β} :
    o.bind f = reached b ↔ ∃ a, o = reached a ∧ f a = reached b := by
  cases o <;> simp [bind]

def ofError : ExpressionError → Outcome α
  | .nestedTooDeeply _ => tooDeep
  | _ => failed

def value? : Outcome α → Option α
  | reached a => some a
  | _ => none

/-- The second outcome is that too many factors are open, or both are of the same use: the same
value, or none. -/
def Follows (o o' : Outcome α) : Prop := o' = tooDeep ∨ o.value? = o'.value?

theorem Follows.refl (o : Outcome α) : o.Follows o := .inr rfl

theorem Follows.bind {o o' : Outcome α} {f g : α → Outcome β} (h : o.Follows o')
    (hfg : ∀ a, o = reached a → (f a).Follows (g a)) : (o.bind f).Follows (o'.bind g) := by
  rcases h with rfl | h
  · exact .inl rfl
  · cases o with
    | reached a =>
      cases o' with
      | reached b =>
        cases h
        exact hfg a rfl
      | tooDeep => exact .inl rfl
      | failed => cases h
    | tooDeep =>
      cases o' with
      | reached b => cases h
      | tooDeep => exact .inl rfl
      | failed => exact .inr rfl
    | failed =>
      cases o' with
      | reached b => cases h
      | tooDeep => exact .inl rfl
      | failed => exact .inr rfl

theorem Follows.eq_of_reached {a b : α} (h : (reached a).Follows (reached b)) : a = b := by
  rcases h with h | h
  · cases h
  · cases h
    rfl

end Outcome

/-- What a computation leads to, events and details of its error left out. -/
def outcome {α : Type} (l : Logged ExpressionError α) : Outcome α :=
  match l.result with
  | .ok a => .reached a
  | .error e => .ofError e

section
variable {α β : Type}

@[simp] theorem outcome_value (a : α) :
    outcome (.value a : Logged ExpressionError α) = .reached a := rfl

@[simp] theorem outcome_error (e : ExpressionError) :
    outcome (.error e : Logged ExpressionError α) = .ofError e := rfl

theorem outcome_bind (l : Logged ExpressionError α) (f : α → Logged ExpressionError β) :
    outcome (l.bind f) = (outcome l).bind fun a => outcome (f a) := by
  obtain ⟨events, result⟩ := l
  cases result with
  | ok a => rfl
  | error e => cases e <;> rfl

theorem outcome_eq_reached {l : Logged ExpressionError α} {a : α} :
    outcome l = .reached a ↔ l.result = .ok a := by
  obtain ⟨events, result⟩ := l
  cases result with
  | ok b => simp [outcome]
  | error e => cases e <;> simp [outcome, Outcome.ofError]

end

/-! ## Places do not matter -/

variable {env : Environment}

theorem outcome_descend (level : Level) (outer : List Level) (position : Nat) :
    outcome (State.descend level outer position) =
      if maxOpenFactors ≤ openFactors level outer then .tooDeep
      else .reached (.due level outer) := by
  unfold State.descend
  split
  · rfl
  · rfl

theorem outcome_step (s : State) (r : Run) (p q : Nat) :
    outcome (s.step env ⟨r, p⟩) = outcome (s.step env ⟨r, q⟩) := by
  cases s with
  | due level outer =>
    simp only [State.step, readOperand]
    split
    · rw [outcome_descend, outcome_descend]
    split
    · rw [outcome_descend, outcome_descend]
    split
    · rw [outcome_descend, outcome_descend]
    split
    · split
      · rfl
      · rfl
    · split
      · rw [outcome_descend, outcome_descend]
      · split
        · rfl
        · rfl
    · rfl
  | complete sum term outer =>
    simp only [State.step, readOperator]
    split
    · rfl
    split
    · rfl
    split
    · rfl
    split
    · rfl
    cases outer with
    | nil => rfl
    | cons level outer =>
      dsimp only
      split
      · rfl
      · rfl

theorem outcome_run_congr (s : State) {ts us : List Token}
    (h : ts.map Token.run = us.map Token.run) :
    outcome (s.run env ts) = outcome (s.run env us) := by
  induction ts generalizing s us with
  | nil =>
    obtain rfl := List.map_eq_nil_iff.1 h.symm
    rfl
  | cons t ts ih =>
    obtain ⟨u, us, rfl, hu, hus⟩ := List.map_eq_cons_iff.1 h.symm
    obtain ⟨r, p⟩ := t
    obtain ⟨r', q⟩ := u
    obtain rfl : r' = r := hu
    rw [State.run_cons, State.run_cons, outcome_bind, outcome_bind, outcome_step s r' p q]
    congr 1
    funext s
    exact ih s hus.symm

/-! ## Scanning -/

/-- What the tokens of a text lead to. -/
def scan (env : Environment) (s : State) (text : List Char) : Outcome State :=
  outcome (s.run env (tokens text))

theorem scan_append {a b : List Char} (h : Apart tokenKind a b) (s : State) :
    scan env s (a ++ b) = (scan env s a).bind fun s => scan env s b := by
  have hruns : (tokens (a ++ b)).map Token.run = (tokens a ++ tokens b).map Token.run := by
    rw [List.map_append, tokens, tokens, tokens, map_run_locate, map_run_locate, map_run_locate,
      runs_append h, List.filter_append]
  rw [scan, outcome_run_congr s hruns, State.run_append, outcome_bind]
  rfl

/-- A character without a class is a token of its own. -/
theorem scan_cons {c : Char} (t : List Char) (hk : tokenKind c = none) (s : State) :
    scan env s (c :: t) = (scan env s [c]).bind fun s => scan env s t :=
  scan_append (Apart.after_char [] t hk) s

/-- A single token. -/
theorem scan_run {r : Run} (hu : r.Uniform tokenKind) (hs : r.first ≠ ' ') (s : State) :
    scan env s r.text = outcome (s.step env ⟨r, 0⟩) := by
  have hruns : (tokens r.text).map Token.run = [(⟨r, 0⟩ : Token)].map Token.run := by
    rw [tokens, map_run_locate, hu.runs_text, List.filter_cons_of_pos (by simp [hs])]
    rfl
  rw [scan, outcome_run_congr s hruns, State.run_cons, outcome_bind]
  exact Outcome.bind_reached _

theorem scan_open (level : Level) (outer : List Level) :
    scan env (.due level outer) ['('] =
      if maxOpenFactors ≤ openFactors .fresh (level :: outer) then .tooDeep
      else .reached (.due .fresh (level :: outer)) := by
  have hu : (⟨'(', []⟩ : Run).Uniform tokenKind := .inr ⟨by decide, rfl⟩
  have hrun : scan env (.due level outer) ['('] = _ := scan_run hu (by decide) _
  rw [hrun, State.step, readOperand, if_neg (by decide), if_neg (by decide), if_pos rfl,
    outcome_descend]

/-! ## After an operand -/

def State.IsComplete : State → Prop
  | due .. => False
  | complete .. => True

theorem isComplete_of_supply {level : Level} {outer : List Level} {x : Float} {s : State}
    (h : outcome (level.supply outer x) = .reached s) : s.IsComplete := by
  obtain ⟨y, -, hs⟩ := Logged.result_bind_eq_ok.1 (outcome_eq_reached.1 h)
  cases hs
  trivial

/-- After an operand only an operator or a closing parenthesis can be read. -/
theorem scan_complete {s : State} (hs : s.IsComplete) {c : Char} (t : List Char)
    (hc : c ∉ [' ', '*', '/', '+', '-', ')']) : scan env s (c :: t) = .failed := by
  simp only [List.mem_cons, List.not_mem_nil, or_false, not_or] at hc
  obtain ⟨hspace, htimes, hover, hplus, hminus, hclose⟩ := hc
  obtain ⟨more, rs, hruns⟩ := exists_runs_cons tokenKind c t
  cases s with
  | due level outer => cases hs
  | complete sum term outer =>
    rw [scan, tokens, hruns, locate, if_neg hspace, State.run_cons, outcome_bind]
    simp only [State.step, readOperator, htimes, hover, hplus, hminus, hclose, if_false]
    cases outer with
    | nil => rfl
    | cons level outer => rfl

/-- After a point an operand is complete. -/
theorem isComplete_of_scan_point {t : List Char} {s s' : State} (ht : t.getLast? = some '.')
    (h : scan env s t = .reached s') : s'.IsComplete := by
  induction t using cut_induction tokenKind generalizing s with
  | nil => cases ht
  | run r rest hu ha ih =>
    cases rest with
    | cons c rest =>
      rw [scan_append ha] at h
      obtain ⟨s₁, -, h⟩ := Outcome.bind_eq_reached.1 h
      refine ih ?_ h
      rwa [List.getLast?_append_of_ne_nil _ (List.cons_ne_nil c rest)] at ht
    | nil =>
      rw [List.append_nil] at ht h
      have hpoint : '.' ∈ r.text := List.mem_of_getLast? ht
      have hfirst : tokenKind r.first = some .numeral := by
        rcases hu with ⟨k, hk⟩ | ⟨hn, hm⟩
        · rw [hk r.first (by simp [Run.text]), ← hk '.' hpoint]
          decide
        · rw [Run.text, hm, List.mem_singleton] at hpoint
          rw [← hpoint]
          decide
      have hspace : r.first ≠ ' ' := by
        intro he
        rw [he] at hfirst
        cases hfirst
      have hne : ∀ c : Char, tokenKind c = none → r.first ≠ c := by
        intro c hc he
        rw [he, hc] at hfirst
        cases hfirst
      cases s with
      | due level outer =>
        rw [scan_run hu hspace, State.step, readOperand, if_neg (hne '+' (by decide)),
          if_neg (hne '-' (by decide)), if_neg (hne '(' (by decide)), hfirst] at h
        dsimp only at h
        split at h
        · exact isComplete_of_supply h
        · cases h
      | complete sum term outer =>
        have hc : r.first ∉ [' ', '*', '/', '+', '-', ')'] := by
          intro hmem
          have hall : ∀ c ∈ [' ', '*', '/', '+', '-', ')'], tokenKind c = none := by decide
          exact hne r.first (hall r.first hmem) rfl
        have hs : (State.complete sum term outer).IsComplete := trivial
        rw [Run.text, scan_complete hs r.more hc] at h
        cases h

/-- After a closing parenthesis an operand is complete. -/
theorem isComplete_of_scan_close {s s' : State} (h : scan env s [')'] = .reached s') :
    s'.IsComplete := by
  have hu : (⟨')', []⟩ : Run).Uniform tokenKind := .inr ⟨by decide, rfl⟩
  have hstep : outcome (s.step env ⟨⟨')', []⟩, 0⟩) = .reached s' :=
    (scan_run hu (by decide) s).symm.trans h
  cases s with
  | due level outer => cases hstep
  | complete sum term outer =>
    cases outer with
    | nil => cases hstep
    | cons level outer => exact isComplete_of_supply hstep

/-! ## Reading to the end -/

theorem outcome_finish (s : State) (p q : Nat) :
    outcome (s.finish p) = outcome (s.finish q) := by
  cases s with
  | due level outer => rfl
  | complete sum term outer =>
    cases outer with
    | nil => rfl
    | cons level outer => rfl

theorem outcome_read (text : List Char) :
    outcome (read env text) =
      (scan env .start text).bind fun s => outcome (s.finish 0) := by
  rw [read, outcome_bind, scan]
  congr 1
  funext s
  exact outcome_finish s (byteLength text) 0

end LineCalculator.Expression

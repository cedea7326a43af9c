import LineCalculator.Proofs.Grammar.Agreement
/-! # Texts that are moved apart

A token is read for its text, and its place enters nothing but the position of an error. So the
rest of a text, when it stands further on, is read with the same events to the same end, its errors
moved with it.

* `ExpressionError.moveBy n e`, `Token.moveBy n t`: the same error and the same token, `n` bytes
  further on.
* `step_moveBy`, `run_moveBy`: reading tokens that are moved.
* `readFrom_moveBy`: reading the rest of a text that is moved.
* `apart_tokenKind_iff`: where no token is cut.
* `read_insert_space`: what a space changes there.
-/

namespace LineCalculator
set_option autoImplicit false

def ExpressionError.moveBy (n : Nat) : ExpressionError → ExpressionError
  | unexpectedCharacter ch position => unexpectedCharacter ch (position + n)
  | unexpectedEnd position => unexpectedEnd (position + n)
  | missingParenthesis position => missingParenthesis (position + n)
  | malformedNumeral literal position => malformedNumeral literal (position + n)
  | unknownName name position => unknownName name (position + n)
  | trailingInput ch position => trailingInput ch (position + n)
  | nestedTooDeeply position => nestedTooDeeply (position + n)
  | unsubstituted name => unsubstituted name
  | domain error => domain error

namespace Expression
open Text

def Token.moveBy (n : Nat) (t : Token) : Token := ⟨t.run, t.start + n⟩

variable {env : Environment}

/-! ## Tokens -/

theorem Token.stop_moveBy (n : Nat) (t : Token) : (t.moveBy n).stop = t.stop + n := by
  simp only [Token.stop, Token.moveBy]
  omega

theorem locate_moveBy (n start : Nat) (rs : List Run) :
    locate (start + n) rs = (locate start rs).map (Token.moveBy n) := by
  induction rs generalizing start with
  | nil => rfl
  | cons r rs ih =>
    rw [locate, locate, Nat.add_right_comm, ih]
    split
    · rfl
    · rfl

/-! ## Reading -/

theorem supply_moveBy (n : Nat) (level : Level) (outer : List Level) (x : Float) :
    (level.supply outer x).mapError (ExpressionError.moveBy n) = level.supply outer x := by
  rw [Level.supply, Logged.mapError_bind]
  congr 1
  obtain ⟨events, result⟩ := Waiting.applyAll level.waiting x
  cases result with
  | ok y => rfl
  | error e => rfl

theorem descend_moveBy (n : Nat) (level : Level) (outer : List Level) (position : Nat) :
    State.descend level outer (position + n) =
      (State.descend level outer position).mapError (ExpressionError.moveBy n) := by
  unfold State.descend
  split
  · rfl
  · rfl

theorem readOperand_moveBy (n : Nat) (level : Level) (outer : List Level) (t : Token) :
    readOperand env level outer (t.moveBy n) =
      (readOperand env level outer t).mapError (ExpressionError.moveBy n) := by
  have hrun : (t.moveBy n).run = t.run := rfl
  have hstart : (t.moveBy n).start = t.start + n := rfl
  simp only [readOperand, hrun, hstart, t.stop_moveBy, descend_moveBy]
  split
  · rfl
  split
  · rfl
  split
  · rfl
  split
  · split
    · exact (supply_moveBy n level outer _).symm
    · rfl
  · split
    · rfl
    · split
      · exact (supply_moveBy n level outer _).symm
      · rfl
  · rfl

theorem readOperator_moveBy (n : Nat) (sum : Option (Float × Sign)) (term : Float)
    (outer : List Level) (t : Token) :
    readOperator sum term outer (t.moveBy n) =
      (readOperator sum term outer t).mapError (ExpressionError.moveBy n) := by
  have hrun : (t.moveBy n).run = t.run := rfl
  have hstart : (t.moveBy n).start = t.start + n := rfl
  simp only [readOperator, hrun, hstart]
  split
  · rfl
  split
  · rfl
  split
  · rfl
  split
  · rfl
  cases outer with
  | nil => rfl
  | cons level outer =>
    dsimp only
    split
    · exact (supply_moveBy n level outer _).symm
    · rfl

theorem step_moveBy (n : Nat) (s : State) (t : Token) :
    s.step env (t.moveBy n) = (s.step env t).mapError (ExpressionError.moveBy n) := by
  cases s with
  | due level outer => exact readOperand_moveBy n level outer t
  | complete sum term outer => exact readOperator_moveBy n sum term outer t

theorem run_moveBy (n : Nat) (s : State) (ts : List Token) :
    s.run env (ts.map (Token.moveBy n)) = (s.run env ts).mapError (ExpressionError.moveBy n) := by
  induction ts generalizing s with
  | nil => rfl
  | cons t ts ih =>
    rw [List.map_cons, State.run_cons, State.run_cons, step_moveBy, Logged.mapError_bind]
    congr 1
    funext s
    exact ih s

theorem finish_moveBy (n : Nat) (s : State) (position : Nat) :
    s.finish (position + n) = (s.finish position).mapError (ExpressionError.moveBy n) := by
  cases s with
  | due level outer => rfl
  | complete sum term outer =>
    cases outer with
    | nil => rfl
    | cons level outer => rfl

theorem readFrom_moveBy (n position : Nat) (s : State) (text : List Char) :
    readFrom env s ⟨position + n, text⟩ =
      (readFrom env s ⟨position, text⟩).mapError (ExpressionError.moveBy n) := by
  simp only [readFrom, locate_moveBy, run_moveBy, Logged.mapError_bind]
  congr 1
  funext s
  rw [Nat.add_right_comm, finish_moveBy]

/-! ## A space -/

variable {a b : List Char}

/-- The classes of characters that run together are the digits and points, and the lowercase
letters. -/
theorem apart_tokenKind_iff : Apart tokenKind a b ↔ ∀ x ∈ a.getLast?, ∀ y ∈ b.head?,
    ¬ (Decimal.isNumeralChar x = true ∧ Decimal.isNumeralChar y = true) ∧
      ¬ (x.isLower = true ∧ y.isLower = true) := by
  refine forall₂_congr fun x _ => forall₂_congr fun y _ => ?_
  rw [← tokenKind_eq_numeral_iff, ← tokenKind_eq_numeral_iff, ← tokenKind_eq_word_iff,
    ← tokenKind_eq_word_iff]
  cases tokenKind x with
  | none => simp
  | some k =>
    cases tokenKind y with
    | none => simp
    | some k' => cases k <;> cases k' <;> simp

theorem read_append (h : Apart tokenKind a b) : read env (a ++ b) =
    (State.start.run env (tokens a)).bind fun s => readFrom env s ⟨byteLength a, b⟩ := by
  simp only [read, readFrom, tokens_append h, State.run_append, Logged.bind_assoc,
    byteLength_append]

theorem read_append_space (env : Environment) (a b : List Char) : read env (a ++ ' ' :: b) =
    (State.start.run env (tokens a)).bind fun s => readFrom env s ⟨byteLength a + 1, b⟩ := by
  rw [read_append (Apart.before_char a b tokenKind_space)]
  congr 1
  funext s
  rw [← readFrom_skip, Cursor.skip_space, readFrom_skip]

/-- A space between two tokens, or where no token is, changes neither the value nor the events, and
of an error at most the position, which is one further on when the error is found behind it. -/
theorem read_insert_space (env : Environment) (a b : List Char)
    (h : ∀ x ∈ a.getLast?, ∀ y ∈ b.head?,
      ¬ (Decimal.isNumeralChar x = true ∧ Decimal.isNumeralChar y = true) ∧
        ¬ (x.isLower = true ∧ y.isLower = true)) :
    (∀ v, (read env (a ++ ' ' :: b)).result = .ok v ↔ (read env (a ++ b)).result = .ok v) ∧
    (∀ e, (read env (a ++ b)).result = .error e →
      (read env (a ++ ' ' :: b)).result = .error e ∨
        (read env (a ++ ' ' :: b)).result = .error (e.moveBy 1)) ∧
    (read env (a ++ ' ' :: b)).events = (read env (a ++ b)).events := by
  rw [read_append_space, read_append (apart_tokenKind_iff.2 h)]
  simp only [readFrom_moveBy]
  generalize State.start.run env (tokens a) = l
  obtain ⟨events, result⟩ := l
  cases result with
  | error e =>
    exact ⟨fun v => Iff.rfl, fun e he => .inl he, rfl⟩
  | ok s =>
    refine ⟨fun v => ?_, fun e he => .inr ?_, rfl⟩
    · exact Logged.result_mapError_eq_ok
    · exact Logged.result_mapError_eq_error.2 ⟨e, he, rfl⟩

/-- Between a function and its argument the space moves the error that is found later. -/
theorem read_insert_space_fact :
    (read .empty "(1+fact4 3)".toList).result = .error (.missingParenthesis 9) ∧
      ((read .empty "(1+fact 4 3)".toList).result = .error (.missingParenthesis 9) ∨
        (read .empty "(1+fact 4 3)".toList).result = .error (.missingParenthesis 10)) := by
  have he : (read .empty "(1+fact4 3)".toList).result = .error (.missingParenthesis 9) := by
    decide +kernel
  have happart : Apart tokenKind "(1+fact".toList "4 3)".toList := by decide
  have hspace := read_insert_space .empty "(1+fact".toList "4 3)".toList
    (apart_tokenKind_iff.1 happart)
  exact ⟨he, hspace.2.1 _ he⟩

end Expression

end LineCalculator

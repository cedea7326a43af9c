import LineCalculator.Proofs.Grammar.Beginning
import LineCalculator.Proofs.Grammar.Consumption
/-! # Positions of errors

The position that an error carries is one between two characters of the text, and what the error
says is true of the text there.

* `ExpressionError.position?`: the position that an error carries.
* `IsMaximalRun p a w b`: between `a` and `b` stands a maximal run of characters that `p` holds of.
* `Describes env a b e`: what the error says is true between `a` and `b`.
* `describes_of_refuses`: so it is where a token is refused.
* `describes_position`: and so it is of every error that carries a position.
-/

namespace LineCalculator
set_option autoImplicit false

/-- The byte offset that an error carries. -/
def ExpressionError.position? : ExpressionError → Option Nat
  | unexpectedCharacter _ position => some position
  | unexpectedEnd position => some position
  | missingParenthesis position => some position
  | malformedNumeral _ position => some position
  | unknownName _ position => some position
  | trailingInput _ position => some position
  | nestedTooDeeply position => some position
  | unsubstituted _ => none
  | domain _ => none

namespace Expression
open Text

/-! ## What an error says -/

structure IsMaximalRun (p : Char → Bool) (before w after : List Char) : Prop where
  ne_nil : w ≠ []
  left : ∀ c ∈ before.getLast?, p c = false
  takeWhile_eq : after.takeWhile p = w

/-- What an error says of the text before its position and after it. -/
def Describes (env : Environment) (before after : List Char) : ExpressionError → Prop
  | .unexpectedCharacter ch _ => after.head? = some ch
  | .unexpectedEnd _ => after = []
  | .missingParenthesis _ => ∀ ch ∈ after.head?, ch ≠ ' ' ∧ ch ≠ ')'
  | .malformedNumeral literal _ => IsMaximalRun Decimal.isNumeralChar before literal.toList after ∧
      ((∀ c ∈ literal.toList, c.isDigit = false) ∨ 1 < literal.toList.count '.')
  | .unknownName name _ => IsMaximalRun Char.isLower before name.toList after ∧
      Builtin.ofName? name = none ∧ env.get? name = none
  | .trailingInput ch _ => after.head? = some ch
  | .nestedTooDeeply _ => ∀ n, OpensLast env n before ↔ n = maxOpenFactors
  | .unsubstituted _ => True
  | .domain _ => True

variable {env : Environment} {a b : List Char} {r : Run}

theorem TokenAt.isMaximalRun {k : TokenKind} {p : Char → Bool} (h : TokenAt a r b)
    (hp : ∀ x, tokenKind x = some k ↔ p x = true) (hk : tokenKind r.first = some k) :
    IsMaximalRun p a r.text (r.text ++ b) := by
  have hall : ∀ c ∈ r.text, p c = true := fun c hc => (hp c).1 (h.uniform.kind_eq hk c hc)
  refine ⟨r.text_ne_nil, fun c hc => ?_, ?_⟩
  · rw [Bool.eq_false_iff]
    intro hpc
    rcases h.apart_before c hc r.first rfl with hnone | hne
    · rw [(hp c).2 hpc] at hnone
      cases hnone
    · exact hne (((hp c).2 hpc).trans hk.symm)
  · exact Cursor.takeWhile_word hall (not_of_apart hp r.text_ne_nil hall h.apart_after)

/-- A row of digits and points that is not read has no digit or too many points. -/
theorem not_numeral_of_read?_none {w : List Char} (hw : ∀ c ∈ w, Decimal.isNumeralChar c = true)
    (h : Decimal.read? w = none) : (∀ c ∈ w, c.isDigit = false) ∨ 1 < w.count '.' := by
  by_contra hn
  obtain ⟨hdigit, hcount⟩ := not_or.1 hn
  obtain ⟨c, hc, hdigit⟩ := not_forall₂.1 hdigit
  have hnumeral : IsNumeral w := ⟨hw, ⟨c, hc, by simpa using hdigit⟩, Nat.not_lt.1 hcount⟩
  have hsome := (isSome_read?_iff w).2 hnumeral
  rw [h] at hsome
  cases hsome

/-! ## Where an error is found -/

theorem openFactors_lt_of_scan {level : Level} {outer : List Level}
    (h : scan env .start a = .reached (.due level outer)) :
    openFactors level outer < maxOpenFactors := by
  obtain ⟨ls, -, hread⟩ := exists_stateRead h
  cases hread with
  | due ho hl hd => exact hd

/-- A refused token stands at the position of its error, and after too deep a nesting in front of
it. -/
theorem describes_of_refuses {s : State} {e : ExpressionError}
    (hs : scan env .start a = .reached s) (ht : TokenAt a r b)
    (h : Refuses env s ⟨r, byteLength a⟩ e) : ∀ position ∈ e.position?, ∃ before after,
      a ++ (r.text ++ b) = before ++ after ∧ byteLength before = position ∧
      Describes env before after e := by
  intro position hposition
  cases h with
  | @opening level outer t l hl htext hd =>
    cases hposition
    refine ⟨a ++ r.text, b, (List.append_assoc _ _ _).symm, byteLength_append _ _, fun n => ?_⟩
    rw [opensLast_iff hs ht hl htext]
    have := openFactors_lt_of_scan hs
    omega
  | operand _ _ _ =>
    cases hposition
    exact ⟨a, r.text ++ b, rfl, rfl, rfl⟩
  | numeral hk hread =>
    cases hposition
    refine ⟨a, r.text ++ b, rfl, rfl, ?_⟩
    rw [Describes, String.toList_ofList]
    refine ⟨ht.isMaximalRun tokenKind_eq_numeral_iff hk, not_numeral_of_read?_none ?_ hread⟩
    exact fun c hc => (tokenKind_eq_numeral_iff c).1 (ht.uniform.kind_eq hk c hc)
  | name hk hf hx =>
    cases hposition
    refine ⟨a, r.text ++ b, rfl, rfl, ?_⟩
    rw [Describes, String.toList_ofList]
    exact ⟨ht.isMaximalRun tokenKind_eq_word_iff hk, hf, hx⟩
  | trailing _ _ =>
    cases hposition
    exact ⟨a, r.text ++ b, rfl, rfl, rfl⟩
  | unclosed _ _ hc =>
    cases hposition
    refine ⟨a, r.text ++ b, rfl, rfl, fun ch hch => ?_⟩
    cases hch
    exact ⟨ht.not_space, hc⟩

/-- Every reported position is truthful: it lies between two characters, and what the error says
is true of the text there. -/
theorem describes_position (env : Environment) (text : List Char) (e : ExpressionError)
    (h : (read env text).result = .error e) : ∀ position ∈ e.position?, ∃ before after,
      text = before ++ after ∧ byteLength before = position ∧ Describes env before after e := by
  intro position hposition
  have hdomain : ∀ refusal, e ≠ .domain refusal := by
    rintro refusal rfl
    cases hposition
  cases (read_eq_error_iff_stops hdomain).1 h with
  | token htext ht hs h =>
    rw [htext]
    exact describes_of_refuses hs ht h position hposition
  | operandMissing hs =>
    cases hposition
    exact ⟨text, [], (List.append_nil text).symm, rfl, rfl⟩
  | parenthesisMissing hs =>
    cases hposition
    exact ⟨text, [], (List.append_nil text).symm, rfl, by simp [Describes]⟩

/-- The run `1.2.3` with its two points stands at the byte offset 5. -/
theorem describes_malformed_numeral :
    (read .empty "2 * (1.2.3)".toList).result = .error (.malformedNumeral "1.2.3" 5) ∧
      ∃ before after, "2 * (1.2.3)".toList = before ++ after ∧ byteLength before = 5 ∧
        Describes .empty before after (.malformedNumeral "1.2.3" 5) := by
  have h : (read .empty "2 * (1.2.3)".toList).result = .error (.malformedNumeral "1.2.3" 5) := by
    decide +kernel
  exact ⟨h, describes_position .empty _ _ h 5 rfl⟩

end Expression

end LineCalculator

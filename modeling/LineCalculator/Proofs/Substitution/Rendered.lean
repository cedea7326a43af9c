import LineCalculator.Proofs.Grammar.Consumption
import LineCalculator.Proofs.Substitution.Parentheses
import LineCalculator.Proofs.Substitution.Rewriting
/-! # Rendered values are read back

The text of a value is read as that value alone and in every place where a factor is due: the
descent consumes exactly this text, unless a digit or a point after it runs together with it.

* `apart_render`: what may follow it.
* `parseFactor_render`: the factor that is found at it.
* `render_read_back`: its characters, its value alone and its value in front of another text.
-/

namespace LineCalculator.Substitution
set_option autoImplicit false
open Text Expression

theorem apart_render (x : Float) {rest : List Char}
    (h : ∀ c ∈ rest.head?, Decimal.isNumeralChar c = false) :
    Apart tokenKind (render x) rest := by
  intro c hc d hd
  rcases mem_render (List.mem_of_mem_getLast? hc) with hn | hm
  · right
    rw [tokenKind_of_isNumeralChar hn]
    intro he
    have hd := h d hd
    rw [(tokenKind_eq_numeral_iff d).1 he.symm] at hd
    cases hd
  · exact .inl ((by decide : ∀ c ∈ ['-', '/', '(', ')'], tokenKind c = none) c hm)

theorem parseFactor_render (env : Environment) (x : Float) {rest : List Char} {depth : Nat}
    (position : Nat) (hrest : ∀ c ∈ rest.head?, Decimal.isNumeralChar c = false)
    (hd : depth < 254) : parseFactor env depth ⟨position, render x ++ rest⟩ =
      .value (x, ⟨position + byteLength (render x), rest⟩) := by
  have hopen : depth + (operand x).depth ≤ maxOpenFactors := by
    have hx := depth_operand_le x
    have hmax : maxOpenFactors = 256 := rfl
    omega
  rw [(operand x).parse_eq (spellsBefore_operand x (apart_render x hrest))
    (resolved_operand env x) hopen, value_operand]
  rfl

/-- No letter, no equals sign and no space is in the text of a value. The text is read as the value,
by the reader and by the descent. Where a factor is due the descent consumes it to its end, as long
as no digit or point follows and three more factors may be opened. -/
theorem render_read_back (env : Environment) (x : Float) :
    (∀ c ∈ render x, c.isDigit = true ∨ c ∈ ['.', '-', '/', '(', ')']) ∧
      (∀ c ∈ render x, c.isAlpha = false ∧ c ≠ '=' ∧ c ≠ ' ') ∧
      read env (render x) = .value x ∧ parse env (render x) = .value x ∧
      ∀ (rest : List Char) (depth position : Nat),
        (∀ c ∈ rest.head?, c.isDigit = false ∧ c ≠ '.') → depth < 254 →
          parseFactor env depth ⟨position, render x ++ rest⟩ =
            .value (x, ⟨position + byteLength (render x), rest⟩) := by
  refine ⟨?_, ?_, read_render_eq env x, ?_, ?_⟩
  · intro c hc
    rcases mem_render hc with hn | hm
    · by_cases hp : c = '.'
      · exact .inr (by rw [hp]; decide)
      · exact .inl (isDigit_of_isNumeralChar hn hp)
    · exact .inr (List.mem_cons_of_mem _ hm)
  · intro c hc
    refine ⟨isAlpha_of_mem_render hc, ?_, ?_⟩
    · rintro rfl
      exact absurd (mem_render hc) (by decide)
    · rintro rfl
      exact absurd (mem_render hc) (by decide)
  · rw [parse_eq_read, read_render_eq]
  · intro rest depth position hrest hd
    apply parseFactor_render env x position _ hd
    intro c hc
    obtain ⟨hdigit, hpoint⟩ := hrest c hc
    rw [Decimal.isNumeralChar, hdigit]
    exact decide_eq_false hpoint

end LineCalculator.Substitution

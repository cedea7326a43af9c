import LineCalculator.Proofs.Grammar.Derivation
import LineCalculator.Proofs.Session.Assignment
import LineCalculator.Proofs.Substitution.Compiled
/-! # Assignments are atomic

An assignment binds one name to the value that its expression has under the bindings before it, or
it fails and binds nothing. The expression ends with the line, and a further equals sign in it is
of no use: substitution leaves it in its place and no lexeme has one.

* `IsForeign c`: the character is no space and in no lexeme.
* `not_mem_of_derives`: such a character is in no expression.
* `read_ne_ok_of_foreign`, `evaluate_ne_ok_of_foreign`: where it stands an expression has no value.
* `assign_atomic`: what an assignment leaves.
-/

namespace LineCalculator
set_option autoImplicit false
open Text Expression Substitution

/-! ## Characters of no expression -/

/-- No word character, no point and no space, and no mark of the grammar. -/
def IsForeign (c : Char) : Prop :=
  isWord c = false ∧ tokenKind c = none ∧ c ∉ [' ', '+', '-', '*', '/', '(', ')']

theorem isForeign_equals : IsForeign '=' := ⟨by decide, by decide, by decide⟩

section
variable {c : Char} {env : Environment} {text : List Char}

theorem IsForeign.not_mem_lexeme (hc : IsForeign c) {l : Lexeme} (hp : l.Proper)
    (hr : l.Resolved env) : c ∉ l.text := by
  obtain ⟨-, hkind, hmark⟩ := hc
  intro hmem
  cases l with
  | mark d =>
    rw [Lexeme.text, List.mem_singleton] at hmem
    exact hmark (List.mem_cons_of_mem ' ' (hmem ▸ hp))
  | numeral n =>
    rw [tokenKind_of_isNumeralChar (n.isNumeral.1 c hmem)] at hkind
    cases hkind
  | name a =>
    rw [tokenKind_of_isLower (hr.1 c hmem)] at hkind
    cases hkind
  | function f =>
    rw [tokenKind_of_isLower (isLower_of_mem_name f c hmem)] at hkind
    cases hkind

theorem not_mem_of_derives {e : SumTree} (he : e.Derives env text) (hc : IsForeign c) :
    c ∉ text := by
  intro hmem
  rcases he.spelled.eq_space_or_mem hmem with rfl | ⟨w, hw, hcw⟩
  · exact hc.2.2 List.mem_cons_self
  · obtain ⟨l, hl, rfl⟩ := List.mem_map.1 hw
    exact hc.not_mem_lexeme (e.proper_lexemes l hl) (he.resolved l hl) hcw

theorem read_ne_ok_of_foreign (hc : IsForeign c) (h : c ∈ text) (x : Float) :
    (read env text).result ≠ .ok x := by
  intro hx
  obtain ⟨e, he, -⟩ := exists_derives_of_read hx
  exact not_mem_of_derives he hc h

theorem evaluate_ne_ok_of_foreign [PatternCompiler] {expression : String} (hc : IsForeign c)
    (h : c ∈ expression.toList) (x : Float) : (evaluate env expression).result ≠ .ok x := by
  intro hx
  exact read_ne_ok_of_foreign hc (mem_substitute env hc.1 h) x (evaluate_eq_ok_iff.1 hx).2

end

/-! ## What an assignment leaves -/

section
variable [PatternCompiler] {env : Environment} {line : String}

theorem assign_environment_of_error {e : LineError} (h : (assign env line).result = .error e) :
    (assign env line).environment = env := by
  rcases assign_cases env line with ⟨events, e', he⟩ | ⟨name, hn, value, events, he⟩
  · rw [he]
  · rw [he] at h
    cases h

theorem assign_environment_of_ok {name : String} {value : Float}
    (h : (assign env line).result = .ok (name, value)) :
    ∃ hn : IsName name, (assign env line).environment = env.insert name hn value := by
  rcases assign_cases env line with ⟨events, e', he⟩ | ⟨name', hn, value', events, he⟩
  · rw [he] at h
    cases h
  · rw [he] at h
    cases h
    exact ⟨hn, congrArg Step.environment he⟩

/-- In a line with two equals signs the second one is in the expression. -/
theorem assign_ne_ok_of_count (h : 1 < line.toList.count '=') (b : Binding) :
    (assign env line).result ≠ .ok b := by
  intro hb
  obtain ⟨expression, hp, -, hv⟩ := assign_result_eq_ok_iff.1 hb
  obtain ⟨left, right, ⟨hline, hleft⟩, -, rfl⟩ := assignmentParts?_eq_some_iff.1 hp
  have hright : '=' ∈ right := by
    rw [hline, List.count_append, List.count_cons_self, List.count_eq_zero.2 hleft] at h
    exact List.count_pos_iff.1 (by omega)
  refine evaluate_ne_ok_of_foreign isForeign_equals ?_ _ hv
  rwa [String.toList_ofList, mem_trim_iff (by decide)]

end

/-- An assignment that succeeds has bound the name before the first equals sign to the value of the
rest under the old bindings, and nothing else. One that fails has left all bindings as they were,
and a line with two equals signs fails. -/
theorem assign_atomic [PatternCompiler] (env : Environment) (line : String) :
    (∀ name value, (assign env line).result = .ok (name, value) ↔
      ∃ left right, (line.toList = left ++ '=' :: right ∧ '=' ∉ left) ∧
        String.ofList (trim left) = name ∧ IsName name ∧
        (evaluate env (String.ofList (trim right))).result = .ok value) ∧
    (∀ name value, (assign env line).result = .ok (name, value) →
      (assign env line).environment.get? name = some value ∧
      ∀ other, name ≠ other → (assign env line).environment.get? other = env.get? other) ∧
    (∀ e, (assign env line).result = .error e → (assign env line).environment = env) ∧
    (1 < line.toList.count '=' → ∃ e, (assign env line).result = .error e) := by
  refine ⟨fun name value => ?_, fun name value h => ?_, fun e h => assign_environment_of_error h,
    fun h => ?_⟩
  · rw [assign_result_eq_ok_iff]
    constructor
    · rintro ⟨expression, hp, hn, hv⟩
      obtain ⟨left, right, hline, hname, rfl⟩ := assignmentParts?_eq_some_iff.1 hp
      exact ⟨left, right, hline, hname, hn, hv⟩
    · rintro ⟨left, right, hline, hname, hn, hv⟩
      exact ⟨_, assignmentParts?_eq_some_iff.2 ⟨left, right, hline, hname, rfl⟩, hn, hv⟩
  · obtain ⟨hn, henv⟩ := assign_environment_of_ok h
    rw [henv]
    exact ⟨env.get?_insert_self hn value, fun other hne => env.get?_insert_of_ne hn value hne⟩
  · cases hr : (assign env line).result with
    | ok b => exact absurd hr (assign_ne_ok_of_count h b)
    | error e => exact ⟨e, rfl⟩

end LineCalculator

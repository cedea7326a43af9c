import LineCalculator.Proofs.Substitution.Compiled
import LineCalculator.Proofs.Substitution.Mention
/-! # Substitution is complete in one pass

The words of a text after substitution are the words that are no bound names, in the places where
they stood, and the runs of digits in the values that were put in. None of them is a bound name, so
there is nothing left for a second pass.

* `wordIn_substitute_iff`: the words of a text after substitution.
* `IsFixed env text`: no form of substitution changes the text.
* `Unbound.isFixed`: a text without bound names is left alone.
* `substitute_complete`: so is every text after substitution, also where fewer names are bound.
-/

namespace LineCalculator.Substitution
set_option autoImplicit false
open Text Expression

variable {env : Environment} {text : List Char}

/-! ## Words after substitution -/

theorem words_substitute (env : Environment) (text : List Char) :
    words (substitute env text) = (words text).flatMap fun r => words (replace env r.text) :=
  words_mapWords (rewritesNames_replace env) text

theorem isWord_first_of_bound {r : Run} (h : env.contains (String.ofList r.text) = true) :
    isWord r.first = true := by
  apply isWord_of_isAlpha
  apply (Environment.isName_of_contains h).2
  rw [String.toList_ofList]
  exact List.mem_cons_self

/-- No word is made up where a value meets the text around it, and a word that is not bound stays a
word whatever was put in beside it. -/
theorem wordIn_substitute_iff {word : List Char} : WordIn word (substitute env text) ↔
    (WordIn word text ∧ env.contains (String.ofList word) = false) ∨
      ∃ name x, WordIn name text ∧ env.get? (String.ofList name) = some x ∧
        WordIn word (render x) := by
  rw [wordIn_iff, words_substitute]
  simp only [List.mem_flatMap]
  constructor
  · rintro ⟨r, ⟨r', hr', hr⟩, rfl, hw⟩
    cases hget : env.get? (String.ofList r'.text) with
    | none =>
      have hcontains : env.contains (String.ofList r'.text) = false := by
        rw [Environment.contains, hget]
        rfl
      rw [replace, hget, words, (uniform_of_mem_runs hr').runs_text] at hr
      obtain rfl := List.mem_singleton.1 hr
      exact .inl ⟨wordIn_iff.2 ⟨r, hr', rfl, hw⟩, hcontains⟩
    | some x =>
      have hname := isWord_first_of_bound (Environment.contains_of_get? hget)
      rw [replace, hget] at hr
      exact .inr ⟨r'.text, x, wordIn_iff.2 ⟨r', hr', rfl, hname⟩, hget,
        wordIn_iff.2 ⟨r, hr, rfl, hw⟩⟩
  · rintro (⟨hword, hb⟩ | ⟨name, x, hname, hget, hword⟩)
    · obtain ⟨r, hr, rfl, hw⟩ := wordIn_iff.1 hword
      refine ⟨r, ⟨r, hr, ?_⟩, rfl, hw⟩
      rw [replace, Environment.get?_eq_none hb, words, (uniform_of_mem_runs hr).runs_text]
      exact List.mem_singleton_self r
    · obtain ⟨r', hr', rfl, -⟩ := wordIn_iff.1 hname
      obtain ⟨r, hr, rfl, hw⟩ := wordIn_iff.1 hword
      refine ⟨r, ⟨r', hr', ?_⟩, rfl, hw⟩
      rwa [replace, hget]

/-! ## Texts that are left alone -/

/-- The text stays as it is under substitution, all names at once or one after the other, found as
words or by patterns. Only a pattern that is refused leads to something else. -/
structure IsFixed [PatternCompiler] (env : Environment) (text : List Char) : Prop where
  substitute : substitute env text = text
  substituteEach : substituteEach env text = text
  substituteMatches : substituteMatches env text = text
  substituteMatchesEach : substituteMatchesEach env text = text
  search : (search env text).result = .ok text ∨
    ∃ b ∈ env.bindings, ¬ Compiles [b.1] ∧
      (search env text).result = .error (.unsubstituted b.1)
  searchEach : searchEach env text = .ok text ∨
    ∃ b ∈ env.bindings, ¬ Compiles [b.1] ∧ searchEach env text = .error (.unsubstituted b.1)

theorem Unbound.isFixed [PatternCompiler] (h : Unbound env text) : IsFixed env text := by
  have hself := h.substitute_eq
  have heach := (substituteEach_eq env text).trans hself
  have hsearch := result_search_cases env text
  have hsearchEach := searchEach_cases env text
  rw [hself] at hsearch hsearchEach
  exact ⟨hself, heach, (substituteMatches_eq env text).trans hself,
    (substituteMatchesEach_eq env text).trans heach, hsearch, hsearchEach⟩

theorem Unbound.mono {fewer : Environment} (h : Unbound env text)
    (hfewer : ∀ name, fewer.contains name = true → env.contains name = true) :
    Unbound fewer text := by
  intro r hr
  rw [← Bool.not_eq_true]
  intro hb
  have hn := h r hr
  rw [hfewer _ hb] at hn
  cases hn

/-- After substitution no word of the text is a bound name: its words are the unbound ones it had
before and those of the values that were put in. Neither form of substitution changes it again,
under the same bindings or under any values of some of the names. It is the text that a search
gives. -/
theorem substitute_complete [PatternCompiler] (env : Environment) (text : List Char) :
    (∀ word, WordIn word (substitute env text) → env.contains (String.ofList word) = false) ∧
      (∀ word, WordIn word (substitute env text) ↔
        (WordIn word text ∧ env.contains (String.ofList word) = false) ∨
          ∃ name x, WordIn name text ∧ env.get? (String.ofList name) = some x ∧
            WordIn word (render x)) ∧
      (∀ fewer : Environment, (∀ name, fewer.contains name = true → env.contains name = true) →
        IsFixed fewer (substitute env text)) ∧
      ∀ rewritten, (search env text).result = .ok rewritten → rewritten = substitute env text := by
  have hunbound := unbound_substitute env text
  refine ⟨fun word hword => ?_, fun word => wordIn_substitute_iff, fun fewer hfewer => ?_,
    fun rewritten h => (search_eq_ok_iff.1 h).2⟩
  · apply hunbound.contains_eq_false
    rwa [String.toList_ofList]
  · exact (hunbound.mono hfewer).isFixed

attribute [local instance] PatternCompiler.bySize in
/-- One name is the beginning of the other, and is bound to another value the second time. -/
theorem substitute_complete_two_names :
    let env : Environment := .ofList [("x", -3), ("xy", 7)]
    let fewer : Environment := .ofList [("x", 1)]
    (∀ name, fewer.contains name = true → env.contains name = true) ∧
      IsFixed fewer (substitute env "2*x+xy.x".toList) := by
  intro env fewer
  have hbound : ∀ b ∈ fewer.bindings, env.contains b.1 = true := by decide +kernel
  have hfewer : ∀ name, fewer.contains name = true → env.contains name = true := by
    intro name h
    obtain ⟨x, hx⟩ := Option.isSome_iff_exists.1 h
    exact hbound _ (Binding.exists_mem_of_find? hx)
  exact ⟨hfewer, (substitute_complete env _).2.2.1 fewer hfewer⟩

end LineCalculator.Substitution

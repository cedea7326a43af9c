import LineCalculator.Evaluation
import LineCalculator.Proofs.Substitution.Pattern
/-! # Patterns that have to be compiled

A pattern may be refused. Where that of all bound names is, one is compiled for each name, and a
name whose own pattern is refused as well is an error. The text is the same whichever patterns were
compiled, so that only this last case can be told from it. Which case it is depends on the bound
names, and neither on their values nor on the text.

* `Searchable env`: the bound names are found, by one pattern or by one for each.
* `missing? env`: the name that a search fails on.
* `rejections env`: what a search logs.
* `result_search`, `events_search`: what a search leads to.
* `Searchable.evaluate_eq`, `evaluate_of_missing`: the same of an expression.
* `evaluate_eq_ok_iff`, `evaluate_eq_error_iff`: its values and its errors.
* `Searchable.congr`: the values of the names are of no account.
* `searchable_bySize_iff`: which names are found where patterns are refused by their size.
* `substituteEach_eq_substitute`: all forms of substitution give one text.
-/

namespace LineCalculator.Substitution
set_option autoImplicit false
open Text Expression

section
variable [PatternCompiler]

/-- A pattern is made for these names. -/
def Compiles (names : List String) : Prop := refusal? names = none

instance decidableCompiles (names : List String) : Decidable (Compiles names) :=
  inferInstanceAs (Decidable (_ = _))

/-- The first name for which no pattern is made. -/
def firstRefused? (names : List String) : Option String :=
  names.find? fun name => ¬ Compiles [name]

/-- The bound names are found: there are none, or they have a pattern together, or each has one. -/
def Searchable (env : Environment) : Prop :=
  env.bindings = [] ∨ Compiles (triedNames env) ∨ ∀ b ∈ env.bindings, Compiles [b.1]

instance decidableSearchable (env : Environment) : Decidable (Searchable env) :=
  inferInstanceAs (Decidable (_ ∨ _ ∨ _))

/-- The name that a search fails on. -/
def missing? (env : Environment) : Option String :=
  if env.bindings = [] ∨ Compiles (triedNames env) then none else firstRefused? (triedNames env)

/-- What a search logs: that no pattern is made for all names together. -/
def rejections (env : Environment) : List Event :=
  if env.bindings = [] then []
  else (refusal? (triedNames env)).toList.map (.patternRejected env.size)

variable (env : Environment) (text : List Char)

/-! ## Searches -/

theorem searchWord_of_compiles {b : Binding} (h : Compiles [b.1]) :
    searchWord text b = .ok (substituteWord b.1 b.2 text) := by
  rw [searchWord, h]

theorem searchWord_of_not_compiles {b : Binding} (h : ¬ Compiles [b.1]) :
    searchWord text b = .error (.unsubstituted b.1) := by
  obtain ⟨reason, hr⟩ := Option.ne_none_iff_exists'.1 h
  rw [searchWord, hr]

theorem foldlM_searchWord (bs : List Binding) (text : List Char) :
    bs.foldlM searchWord text =
      match firstRefused? (bs.map Prod.fst) with
      | none => .ok (bs.foldl (fun t b => substituteWord b.1 b.2 t) text)
      | some name => .error (.unsubstituted name) := by
  induction bs generalizing text with
  | nil => rfl
  | cons b bs ih =>
    rw [List.foldlM_cons, List.foldl_cons, firstRefused?, List.map_cons]
    by_cases hb : Compiles [b.1]
    · rw [searchWord_of_compiles text hb, List.find?_cons_of_neg (by simpa using hb)]
      exact ih _
    · rw [searchWord_of_not_compiles text hb, List.find?_cons_of_pos (by simpa using hb)]
      rfl

theorem searchEach_eq : searchEach env text =
    match firstRefused? (triedNames env) with
    | none => .ok (substitute env text)
    | some name => .error (.unsubstituted name) := by
  rw [← substituteEach_eq]
  exact foldlM_searchWord _ _

theorem firstRefused?_eq_none_iff :
    firstRefused? (triedNames env) = none ↔ ∀ b ∈ env.bindings, Compiles [b.1] := by
  rw [firstRefused?, List.find?_eq_none]
  simp [triedNames, (longestFirst_perm env).mem_iff]

/-- A search gives the text after substitution, or it fails on a name. -/
theorem result_search : (search env text).result =
    match missing? env with
    | none => .ok (substitute env text)
    | some name => .error (.unsubstituted name) := by
  rw [search, missing?, Environment.isEmpty]
  by_cases he : env.bindings = []
  · rw [if_pos (List.isEmpty_iff.2 he), if_pos (.inl he)]
    exact congrArg Except.ok (substitute_of_no_bindings text he).symm
  rw [if_neg (mt List.isEmpty_iff.1 he)]
  by_cases hc : Compiles (triedNames env)
  · rw [if_pos (.inr hc), hc]
    rfl
  · obtain ⟨reason, hr⟩ := Option.ne_none_iff_exists'.1 hc
    rw [if_neg (not_or.2 ⟨he, hc⟩), hr]
    exact searchEach_eq env text

theorem events_search : (search env text).events = rejections env := by
  rw [search, rejections, Environment.isEmpty]
  cases env.bindings with
  | nil => rfl
  | cons b bs => cases refusal? (triedNames env) <;> rfl

theorem missing?_eq_none_iff : missing? env = none ↔ Searchable env := by
  rw [missing?, Searchable, ← or_assoc]
  split
  · rename_i h
    exact iff_of_true rfl (.inl h)
  · rename_i h
    rw [or_iff_right h, firstRefused?_eq_none_iff]

/-- The name is bound, and no pattern is made for it alone. -/
theorem exists_of_firstRefused {name : String} (h : firstRefused? (triedNames env) = some name) :
    ∃ b ∈ env.bindings, b.1 = name ∧ ¬ Compiles [name] := by
  obtain ⟨b, hb, rfl⟩ := List.mem_map.1 (List.mem_of_find?_eq_some h)
  exact ⟨b, (longestFirst_perm env).mem_iff.1 hb, rfl, by simpa using List.find?_some h⟩

theorem exists_of_missing {name : String} (h : missing? env = some name) :
    ∃ b ∈ env.bindings, b.1 = name ∧ ¬ Compiles [name] := by
  rw [missing?] at h
  split at h
  · cases h
  · exact exists_of_firstRefused env h

theorem searchEach_cases : searchEach env text = .ok (substitute env text) ∨
    ∃ b ∈ env.bindings, ¬ Compiles [b.1] ∧
      searchEach env text = .error (.unsubstituted b.1) := by
  rw [searchEach_eq]
  cases h : firstRefused? (triedNames env) with
  | none => exact .inl rfl
  | some name =>
    obtain ⟨b, hb, rfl, hc⟩ := exists_of_firstRefused env h
    exact .inr ⟨b, hb, hc, rfl⟩

theorem result_search_cases : (search env text).result = .ok (substitute env text) ∨
    ∃ b ∈ env.bindings, ¬ Compiles [b.1] ∧
      (search env text).result = .error (.unsubstituted b.1) := by
  rw [result_search]
  cases h : missing? env with
  | none => exact .inl rfl
  | some name =>
    obtain ⟨b, hb, rfl, hc⟩ := exists_of_missing env h
    exact .inr ⟨b, hb, hc, rfl⟩

end

/-! ## The two cases -/

section
variable [PatternCompiler] {env : Environment} {name expression : String}

theorem Searchable.of_forall (h : ∀ b ∈ env.bindings, Compiles [b.1]) : Searchable env :=
  .inr (.inr h)

theorem not_searchable_iff : ¬ Searchable env ↔ ∃ name, missing? env = some name := by
  rw [← missing?_eq_none_iff, ← ne_eq, Option.ne_none_iff_exists']

theorem Searchable.result_search (h : Searchable env) (text : List Char) :
    (search env text).result = .ok (substitute env text) := by
  rw [Substitution.result_search, (missing?_eq_none_iff env).2 h]

theorem result_search_of_missing (h : missing? env = some name) (text : List Char) :
    (search env text).result = .error (.unsubstituted name) := by
  rw [result_search, h]

theorem search_eq_ok_iff {text rewritten : List Char} :
    (search env text).result = .ok rewritten ↔
      Searchable env ∧ rewritten = substitute env text := by
  rw [← missing?_eq_none_iff, result_search]
  cases missing? env with
  | none => simp [eq_comm]
  | some name => simp

/-! ## Expressions -/

theorem Searchable.evaluate_eq (h : Searchable env) (expression : String) :
    evaluate env expression =
      ⟨rejections env ++ .evaluating (String.ofList (substitute env expression.toList)) ::
          (read env (substitute env expression.toList)).events,
        ((read env (substitute env expression.toList)).mapError
          (LineError.ofExpression expression)).result⟩ := by
  have hresult := h.result_search expression.toList
  rw [evaluate, Logged.mapError, Logged.result_bind hresult, Logged.events_bind hresult,
    events_search]
  rfl

theorem evaluate_of_missing (h : missing? env = some name) (expression : String) :
    evaluate env expression =
      ⟨rejections env, .error (.invalidExpression expression (.unsubstituted name))⟩ := by
  rw [evaluate, Logged.bind_of_error (result_search_of_missing h _), events_search]
  rfl

theorem evaluate_eq_ok_iff {y : Float} : (evaluate env expression).result = .ok y ↔
    Searchable env ∧ (read env (substitute env expression.toList)).result = .ok y := by
  by_cases h : Searchable env
  · rw [h.evaluate_eq, and_iff_right h]
    exact Logged.result_mapError_eq_ok
  · obtain ⟨name, hname⟩ := not_searchable_iff.1 h
    rw [evaluate_of_missing hname]
    simp [h]

/-- An expression fails on a name that is not found, or as the text after substitution fails. -/
theorem evaluate_eq_error_iff {e : LineError} : (evaluate env expression).result = .error e ↔
    (∃ name, missing? env = some name ∧
      .invalidExpression expression (.unsubstituted name) = e) ∨
    (Searchable env ∧ ∃ cause, (read env (substitute env expression.toList)).result =
      .error cause ∧ LineError.ofExpression expression cause = e) := by
  by_cases h : Searchable env
  · rw [h.evaluate_eq, and_iff_right h, (missing?_eq_none_iff env).2 h,
      Logged.result_mapError_eq_error]
    simp
  · obtain ⟨name, hname⟩ := not_searchable_iff.1 h
    rw [evaluate_of_missing hname, hname]
    simp [h]

end

/-! ## The names alone -/

theorem map_fst_insertByLength {b b' : Binding} {l l' : List Binding} (hb : b.1 = b'.1)
    (hl : l.map Prod.fst = l'.map Prod.fst) :
    (insertByLength b l).map Prod.fst = (insertByLength b' l').map Prod.fst := by
  induction l generalizing l' with
  | nil =>
    rw [List.map_eq_nil_iff.1 hl.symm]
    exact congrArg (fun name => [name]) hb
  | cons a l ih =>
    obtain ⟨a', l', rfl, ha, hrest⟩ := List.map_eq_cons_iff.1 hl.symm
    have horder : longerFirst b a = longerFirst b' a' := by
      rw [longerFirst, longerFirst, hb, ha]
    rw [insertByLength, insertByLength, horder]
    split
    · exact congrArg₂ List.cons hb hl
    · exact congrArg₂ List.cons ha.symm (ih hrest.symm)

theorem map_fst_foldr_insertByLength {l l' : List Binding}
    (h : l.map Prod.fst = l'.map Prod.fst) :
    (l.foldr insertByLength []).map Prod.fst = (l'.foldr insertByLength []).map Prod.fst := by
  induction l generalizing l' with
  | nil => rw [List.map_eq_nil_iff.1 h.symm]
  | cons a l ih =>
    obtain ⟨a', l', rfl, ha, hrest⟩ := List.map_eq_cons_iff.1 h.symm
    exact map_fst_insertByLength ha.symm (ih hrest.symm)

/-- Whether the names are found does not depend on their values. -/
theorem Searchable.congr [PatternCompiler] {env env' : Environment} (h : env.SameNames env') :
    Searchable env ↔ Searchable env' := by
  have hnames := h.map_fst_eq
  have htried : triedNames env = triedNames env' := map_fst_foldr_insertByLength hnames
  have hnil (e : Environment) : e.bindings = [] ↔ e.bindings.map Prod.fst = [] := by simp
  have hall (e : Environment) :
      (∀ b ∈ e.bindings, Compiles [b.1]) ↔ ∀ n ∈ e.bindings.map Prod.fst, Compiles [n] := by simp
  rw [Searchable, Searchable, hnil, hnil, hall, hall, htried, hnames]

/-! ## Patterns refused by their size -/

section BySize
attribute [local instance] PatternCompiler.bySize

theorem refusal?_bySize (names : List String) : refusal? names =
    if patternSize names ≤ patternBudget then none
    else some "Compiled regex exceeds size limit of 67108864 bytes." := rfl

theorem compiles_bySize_iff {names : List String} :
    Compiles names ↔ patternSize names ≤ patternBudget := by
  rw [Compiles, refusal?_bySize]
  split
  · rename_i h
    exact iff_of_true rfl h
  · rename_i h
    exact iff_of_false nofun h

theorem letters_eq_sum (names : List String) : letters names = (names.map String.length).sum := by
  induction names with
  | nil => rfl
  | cons name names ih =>
    rw [List.map_cons, List.sum_cons, ← ih]
    rfl

theorem patternSize_of_ne {names : List String} (h : names.length ≠ 1) :
    patternSize names = 68 * letters names := by
  cases names with
  | nil => rfl
  | cons name rest =>
    cases rest with
    | nil => exact absurd rfl h
    | cons name' rest => rfl

/-- The size does not depend on the order of the names. -/
theorem patternSize_perm {names names' : List String} (h : names.Perm names') :
    patternSize names = patternSize names' := by
  by_cases hone : names.length = 1
  · obtain ⟨name, rfl⟩ := List.length_eq_one_iff.1 hone
    rw [List.perm_singleton.1 h.symm]
  · rw [patternSize_of_ne hone, patternSize_of_ne (h.length_eq ▸ hone), letters_eq_sum,
      letters_eq_sum, (h.map _).sum_nat]

theorem patternSize_triedNames (env : Environment) :
    patternSize (triedNames env) = patternSize (env.bindings.map Prod.fst) :=
  patternSize_perm ((longestFirst_perm env).map Prod.fst)

/-- A name takes less alone than among others. So the names are found if each of them has a pattern
of its own, whatever that of all of them takes. -/
theorem searchable_bySize_iff (env : Environment) :
    Searchable env ↔ ∀ b ∈ env.bindings, 32 * b.1.length ≤ patternBudget := by
  have hone (name : String) : Compiles [name] ↔ 32 * name.length ≤ patternBudget :=
    compiles_bySize_iff
  constructor
  · rintro (hnil | hall | heach) b hb
    · rw [hnil] at hb
      cases hb
    · rw [compiles_bySize_iff, patternSize_triedNames] at hall
      have hmem : b.1 ∈ env.bindings.map Prod.fst := List.mem_map_of_mem hb
      by_cases hlength : (env.bindings.map Prod.fst).length = 1
      · obtain ⟨name, hname⟩ := List.length_eq_one_iff.1 hlength
        rw [hname] at hmem hall
        rwa [List.mem_singleton.1 hmem]
      · rw [patternSize_of_ne hlength, letters_eq_sum] at hall
        have hsum := List.le_sum_of_mem (List.mem_map_of_mem hmem (f := String.length))
        omega
    · exact (hone b.1).1 (heach b hb)
  · exact fun h => .of_forall fun b hb => (hone b.1).2 (h b hb)

end BySize

/-! ## All forms of substitution -/

/-- Replacing the bound names one after the other gives the same text as replacing all of them at
once, whether they are found as words or by patterns. The two searches come to an end where their
patterns are made, and then with this text. -/
theorem substituteEach_eq_substitute [PatternCompiler] (env : Environment) (text : List Char) :
    (substituteEach env text = substitute env text ∧
      substituteMatches env text = substitute env text ∧
      substituteMatchesEach env text = substituteMatches env text) ∧
    (∀ rewritten, searchEach env text = .ok rewritten ↔
      (∀ b ∈ env.bindings, Compiles [b.1]) ∧ rewritten = substitute env text) ∧
    ∀ rewritten, (search env text).result = .ok rewritten ↔
      Searchable env ∧ rewritten = substitute env text := by
  have heach := substituteEach_eq env text
  have hmatches := substituteMatches_eq env text
  refine ⟨⟨heach, hmatches, ((substituteMatchesEach_eq env text).trans heach).trans hmatches.symm⟩,
    fun rewritten => ?_, fun rewritten => search_eq_ok_iff⟩
  rw [searchEach_eq, ← firstRefused?_eq_none_iff]
  cases firstRefused? (triedNames env) with
  | none => simp [eq_comm]
  | some name => simp

end LineCalculator.Substitution

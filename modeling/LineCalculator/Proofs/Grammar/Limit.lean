import LineCalculator.Proofs.Grammar.Counter
import LineCalculator.Proofs.Grammar.Stop
/-! # The limit on nesting

A derivation whose applications are all in their domains is refused for its depth alone, and at
the first lexeme that opens too many factors.

* `SumTree.OpensFirst e n text position`: the first lexeme of the tree that opens the factor
  number `n` ends at that byte offset of the text.
* `opensFirst_of_firstOpening`: the counter of the reader finds such a lexeme.
* `read_iff_depth_le`: which derivations of any depth are read, and where the others fail.
-/

namespace LineCalculator.Expression
set_option autoImplicit false
open Text

/-- The text spells the lexemes of the tree, and behind the first of them that opens the factor
number `n` it has come to the byte offset. -/
def SumTree.OpensFirst (e : SumTree) (n : Nat) (text : List Char) (position : Nat) : Prop :=
  ∃ before l after a b, e.openings 0 = before ++ (l, some n) :: after ∧
    (∀ o ∈ before, o.2 ≠ some n) ∧ text = a ++ (l.text ++ b) ∧
    tokenTexts a = before.map (fun o => o.1.text) ∧ position = byteLength (a ++ l.text)

variable {env : Environment} {e : SumTree} {text : List Char} {v : Float}

theorem opensFirst_of_firstOpening {n : Nat} {t : Token}
    (htext : tokenTexts text = e.lexemes.map Lexeme.text)
    (h : FirstOpening n (e.openings 0) (tokens text) t) : e.OpensFirst n text t.stop := by
  obtain ⟨before, l, after, ts₁, ts₂, hos, hbefore, hts, hlen⟩ := h.exists_split
  obtain ⟨a, b, rfl, -, rfl, hstart⟩ := exists_tokenAt hts
  -- the two rows are the same texts, and they are cut at the same place
  have hrow : (tokens a ++ t :: ts₂).map (fun t => t.run.text) =
      (before ++ (l, some n) :: after).map fun o => o.1.text := by
    rw [← hts, ← hos]
    refine htext.trans ?_
    rw [← e.map_fst_openings 0, List.map_map]
    rfl
  rw [List.map_append, List.map_append] at hrow
  obtain ⟨hrow₁, hrow₂⟩ := List.append_inj hrow (by simp [hlen])
  have hl : t.run.text = l.text := (List.cons.inj hrow₂).1
  refine ⟨before, l, after, a, b, hos, hbefore, by rw [hl], hrow₁, ?_⟩
  rw [Token.stop, hstart, Run.size, hl, byteLength_append]

theorem read_of_maxOpenFactors_lt (hspelled : Spells tokenKind (e.lexemes.map Lexeme.text) text)
    (hresolved : ∀ l ∈ e.lexemes, l.Resolved env) (hvalue : (e.value env.lookup).result = .ok v)
    (hd : maxOpenFactors < e.depth) : ∃ position, e.OpensFirst maxOpenFactors text position ∧
      (read env text).result = .error (.nestedTooDeeply position) := by
  have htext := tokenTexts_of_lexemes hspelled e.proper_lexemes hresolved
  have hstart : openFactors .fresh [] = 0 := rfl
  have hdeep : maxOpenFactors < openFactors .fresh [] + e.depth := by rwa [hstart, Nat.zero_add]
  obtain ⟨t, ht, herror⟩ := e.run_overflow htext hresolved hvalue (by decide) hdeep
  exact ⟨t.stop, opensFirst_of_firstOpening htext ht, Logged.result_bind_eq_error.2 (.inl herror)⟩

theorem read_of_depth_le (hspelled : Spells tokenKind (e.lexemes.map Lexeme.text) text)
    (hresolved : ∀ l ∈ e.lexemes, l.Resolved env) (hvalue : (e.value env.lookup).result = .ok v)
    (hd : e.depth ≤ maxOpenFactors) : (read env text).result = .ok v := by
  rw [read_eq_value (tokenTexts_of_lexemes hspelled e.proper_lexemes hresolved) hresolved hd]
  exact Logged.result_mapError_eq_ok.2 hvalue

/-- The limit is on nesting, and it is exact. A derivation whose names resolve and whose
applications are in their domains has its value where no more than the admitted number of factors
are open at once, and it fails right behind the first sign, parenthesis or function that opens the
last admitted factor around another one. Operands and operators in a row do not count, since
neither a factor that was read nor an operator leaves another number of factors open than before,
the signs and functions in front of the factor being closed together with it. -/
theorem read_iff_depth_le (env : Environment) (e : SumTree) (text : List Char) (v : Float)
    (hspelled : Spells tokenKind (e.lexemes.map Lexeme.text) text)
    (hresolved : ∀ l ∈ e.lexemes, l.Resolved env)
    (hvalue : (e.value env.lookup).result = .ok v) :
    (∀ w, (read env text).result = .ok w ↔ e.depth ≤ maxOpenFactors ∧ w = v) ∧
    (maxOpenFactors < e.depth → ∃ position, e.OpensFirst maxOpenFactors text position ∧
      (read env text).result = .error (.nestedTooDeeply position)) ∧
    (∀ (x : FactorTree) level outer ts s,
      ts.map (fun t => t.run.text) = x.lexemes.map Lexeme.text → (∀ l ∈ x.lexemes, l.Resolved env) →
      ((State.due level outer).run env ts).result = .ok s →
      s.depth + level.waiting.length = (State.due level outer).depth) ∧
    ∀ sum y outer t s, ((State.complete sum y outer).step env t).result = .ok s →
      ¬ s.IsComplete → s.depth = (State.complete sum y outer).depth := by
  refine ⟨fun w => ⟨fun h => ?_, ?_⟩, read_of_maxOpenFactors_lt hspelled hresolved hvalue,
    fun x level outer ts s hts hr h => x.depth_of_run hts hr h,
    fun sum y outer t s h hs => depth_of_step_operator h hs⟩
  · by_cases hd : e.depth ≤ maxOpenFactors
    · rw [read_of_depth_le hspelled hresolved hvalue hd] at h
      cases h
      exact ⟨hd, rfl⟩
    · obtain ⟨position, -, herror⟩ :=
        read_of_maxOpenFactors_lt hspelled hresolved hvalue (Nat.not_le.1 hd)
      rw [herror] at h
      cases h
  · rintro ⟨hd, rfl⟩
    exact read_of_depth_le hspelled hresolved hvalue hd

theorem lexemes_iterate_sign (s : Sign) (n : Nat) (x : FactorTree) :
    ((FactorTree.sign s)^[n] x).lexemes = List.replicate n s.mark ++ x.lexemes := by
  induction n with
  | zero => rfl
  | succ n ih => rw [Function.iterate_succ_apply', FactorTree.lexemes, ih]; rfl

/-- The number behind 256 signs would be the factor number 257. -/
theorem read_256_signs :
    ∃ position, (read .empty (List.replicate 256 '-' ++ ['1'])).result =
      .error (.nestedTooDeeply position) := by
  let one : Numeral := ⟨['1'], isNumeral_of_digits (by decide) (by decide)⟩
  let e : SumTree := .term (.factor ((FactorTree.sign .minus)^[256] (.number one)))
  have hlexemes : e.lexemes = List.replicate 256 Sign.minus.mark ++ [.numeral one] :=
    lexemes_iterate_sign .minus 256 (.number one)
  have hspelled :
      Spells tokenKind (e.lexemes.map Lexeme.text) (List.replicate 256 '-' ++ ['1']) := by
    have htokens : tokenTexts (List.replicate 256 '-' ++ ['1']) =
        List.replicate 256 ['-'] ++ [['1']] := by decide +kernel
    rw [hlexemes, List.map_append, List.map_replicate]
    exact (spells_iff.2 htokens).1
  have hresolved : ∀ l ∈ e.lexemes, l.Resolved .empty := by
    rw [hlexemes]
    intro l hl
    rcases List.mem_append.1 hl with hl | hl
    · rw [List.eq_of_mem_replicate hl]
      trivial
    · rw [List.mem_singleton.1 hl]
      trivial
  have hvalue : (e.value Environment.empty.lookup).result = .ok 1 := by decide +kernel
  have hdeep : maxOpenFactors < e.depth := by decide +kernel
  obtain ⟨position, -, h⟩ := (read_iff_depth_le .empty e _ 1 hspelled hresolved hvalue).2.1 hdeep
  exact ⟨position, h⟩

end LineCalculator.Expression

import LineCalculator.Proofs.Grammar.Tree
/-! # Which factors a phrase opens

A sign, a parenthesis and the name of a function open a factor around the phrase after them. A
number and a variable are factors that nothing is inside of.

* `Lexeme.Opens l`: the lexeme opens a factor where an operand is due.
* `openings`: the lexemes of a phrase around which `n` factors are open. One that opens a factor
  around another stands with the number of factors that are open then.
* `map_fst_openings`: without the numbers these are the lexemes.
* `lt_of_mem_openings`: the numbers remain below the depth of the phrase.
-/

namespace LineCalculator.Expression
set_option autoImplicit false

/-- Where an operand is due, the lexeme opens a factor around the next one. -/
def Lexeme.Opens : Lexeme → Prop
  | mark c => c ∈ ['+', '-', '(']
  | function _ => True
  | _ => False

mutual
def SumTree.openings : SumTree → Nat → List (Lexeme × Option Nat)
  | .term t, n => t.openings n
  | .add e s t, n => e.openings n ++ (s.mark, none) :: t.openings n
def TermTree.openings : TermTree → Nat → List (Lexeme × Option Nat)
  | .factor x, n => x.openings n
  | .scale t o x, n => t.openings n ++ (o.mark, none) :: x.openings n
def FactorTree.openings : FactorTree → Nat → List (Lexeme × Option Nat)
  | .sign s x, n => (s.mark, some (n + 1)) :: x.openings (n + 1)
  | .group e, n => (.mark '(', some (n + 1)) :: (e.openings (n + 1) ++ [(.mark ')', none)])
  | .number m, _ => [(.numeral m, none)]
  | .name a, _ => [(.name a, none)]
  | .call f x, n => (.function f, some (n + 1)) :: x.openings (n + 1)
end

mutual
theorem SumTree.map_fst_openings (e : SumTree) (n : Nat) :
    (e.openings n).map Prod.fst = e.lexemes := by
  cases e with
  | term t => exact t.map_fst_openings n
  | add e s t =>
    rw [SumTree.openings, List.map_append, List.map_cons, e.map_fst_openings, t.map_fst_openings,
      SumTree.lexemes]
theorem TermTree.map_fst_openings (t : TermTree) (n : Nat) :
    (t.openings n).map Prod.fst = t.lexemes := by
  cases t with
  | factor x => exact x.map_fst_openings n
  | scale t o x =>
    rw [TermTree.openings, List.map_append, List.map_cons, t.map_fst_openings, x.map_fst_openings,
      TermTree.lexemes]
theorem FactorTree.map_fst_openings (x : FactorTree) (n : Nat) :
    (x.openings n).map Prod.fst = x.lexemes := by
  cases x with
  | sign s x => rw [FactorTree.openings, List.map_cons, x.map_fst_openings, FactorTree.lexemes]
  | group e =>
    rw [FactorTree.openings, List.map_cons, List.map_append, e.map_fst_openings, FactorTree.lexemes]
    rfl
  | number m => rfl
  | name a => rfl
  | call f x => rw [FactorTree.openings, List.map_cons, x.map_fst_openings, FactorTree.lexemes]
end

mutual
theorem SumTree.lt_of_mem_openings (e : SumTree) {n k : Nat} {l : Lexeme}
    (h : (l, some k) ∈ e.openings n) : k < n + e.depth := by
  cases e with
  | term t => exact t.lt_of_mem_openings h
  | add e s t =>
    simp only [SumTree.openings, List.mem_append, List.mem_cons, Prod.mk.injEq, reduceCtorEq,
      and_false, false_or] at h
    rw [SumTree.depth]
    rcases h with h | h
    · have := e.lt_of_mem_openings h
      omega
    · have := t.lt_of_mem_openings h
      omega
theorem TermTree.lt_of_mem_openings (t : TermTree) {n k : Nat} {l : Lexeme}
    (h : (l, some k) ∈ t.openings n) : k < n + t.depth := by
  cases t with
  | factor x => exact x.lt_of_mem_openings h
  | scale t o x =>
    simp only [TermTree.openings, List.mem_append, List.mem_cons, Prod.mk.injEq, reduceCtorEq,
      and_false, false_or] at h
    rw [TermTree.depth]
    rcases h with h | h
    · have := t.lt_of_mem_openings h
      omega
    · have := x.lt_of_mem_openings h
      omega
theorem FactorTree.lt_of_mem_openings (x : FactorTree) {n k : Nat} {l : Lexeme}
    (h : (l, some k) ∈ x.openings n) : k < n + x.depth := by
  cases x with
  | sign s x =>
    rw [FactorTree.depth]
    rcases List.mem_cons.1 h with h | h
    · cases h
      have := x.depth_pos
      omega
    · have := x.lt_of_mem_openings h
      omega
  | group e =>
    rw [FactorTree.depth]
    rcases List.mem_cons.1 h with h | h
    · cases h
      have := e.depth_pos
      omega
    · rcases List.mem_append.1 h with h | h
      · have := e.lt_of_mem_openings h
        omega
      · cases List.mem_singleton.1 h
  | number m => cases List.mem_singleton.1 h
  | name a => cases List.mem_singleton.1 h
  | call f x =>
    rw [FactorTree.depth]
    rcases List.mem_cons.1 h with h | h
    · cases h
      have := x.depth_pos
      omega
    · have := x.lt_of_mem_openings h
      omega
end

theorem SumTree.openings_ne (e : SumTree) {n k : Nat} (h : n + e.depth ≤ k) :
    ∀ o ∈ e.openings n, o.2 ≠ some k := by
  rintro ⟨l, m⟩ ho rfl
  exact absurd (e.lt_of_mem_openings ho) (Nat.not_lt.2 h)

theorem TermTree.openings_ne (t : TermTree) {n k : Nat} (h : n + t.depth ≤ k) :
    ∀ o ∈ t.openings n, o.2 ≠ some k := by
  rintro ⟨l, m⟩ ho rfl
  exact absurd (t.lt_of_mem_openings ho) (Nat.not_lt.2 h)

theorem SumTree.length_openings (e : SumTree) (n : Nat) :
    (e.openings n).length = e.lexemes.length := by
  rw [← e.map_fst_openings n, List.length_map]

theorem TermTree.length_openings (t : TermTree) (n : Nat) :
    (t.openings n).length = t.lexemes.length := by
  rw [← t.map_fst_openings n, List.length_map]

end LineCalculator.Expression
